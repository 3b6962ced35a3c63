import Mathlib.Data.List.Chain
import PaneEngine.Pane.Compile
import PaneEngine.Proofs.Tree.Wording

/-!
# Neighbouring texts

A text that a document shows in one piece may come as several events: a line
break that does not count as one, raw HTML or an entity splits it.  The builder
joins a text to a text before it, so in a finished tree no two texts stand next
to each other, at any level and whatever the events are.  What is said between
two other things is therefore one node for everything that looks at the tree.

All children are added in one way, to the root or to an open element, and closing
an element adds one that is no text.  So the children of the root and of every
open element stay apart, and a closed element keeps the children it has.

## Main definitions

* `nodes` — a tree with everything in it;
* `Seamless` — the children of a node are kept, and no two of them are neighbouring texts;
* `Builder.Seamless` — the same of a tree that is being built;
* `isProse`, `isSilent` — the events that do not break a text off, and those no tree shows.

## Main results

* `Builder.seamless_step` — every event keeps texts apart;
* `Builder.foldl_step_prose` — a stretch of text is added as one text;
* `texts_joined` — finished trees have no neighbouring texts.
-/

namespace PaneEngine.Tree

open Markup (Tag)

/-- Whether a node is a text. -/
def isText : Tree → Bool
  | .text _ => true
  | _ => false

/-- One of two nodes is no text. -/
def Apart (t u : Tree) : Prop := t.isText = false ∨ u.isText = false

mutual

/-- A tree and everything in it, in reading order. -/
def nodes : Tree → List Tree
  | .root children => .root children :: nodesAll children
  | .element tag properties children => .element tag properties children :: nodesAll children
  | .text value => [.text value]
  | .other => [.other]

/-- Trees and everything in them, in reading order. -/
def nodesAll : List Tree → List Tree
  | [] => []
  | t :: rest => nodes t ++ nodesAll rest

end

/-- Siblings that are all kept when they are compiled, with no two texts next to each other. -/
structure Siblings (ts : List Tree) : Prop where
  apart : ts.IsChain Apart
  kept : ∀ t ∈ ts, Pane.isKept t = true

/-- At every level of a tree the children are such siblings. -/
def Seamless (t : Tree) : Prop := ∀ n ∈ nodes t, Siblings n.children

theorem Apart.symm {t u : Tree} (h : Apart t u) : Apart u t := Or.symm h

theorem mem_nodesAll {n : Tree} {ts : List Tree} : n ∈ nodesAll ts ↔ ∃ t ∈ ts, n ∈ nodes t := by
  induction ts with
  | nil => simp [nodesAll]
  | cons t ts ih => simp [nodesAll, ih]

theorem siblings_nil : Siblings [] := ⟨List.isChain_nil, by simp⟩

/-- The order of siblings does not matter. -/
theorem Siblings.reverse {ts : List Tree} (h : Siblings ts) : Siblings ts.reverse := by
  refine ⟨List.isChain_reverse.2 (h.apart.imp fun _ _ => Apart.symm), ?_⟩
  intro t hMem
  exact h.kept t (List.mem_reverse.1 hMem)

theorem seamless_text (value : String) : Seamless (.text value) := by
  intro n hMem
  rw [List.mem_singleton.1 hMem]
  exact siblings_nil

theorem seamless_element {children : List Tree} (h : Siblings children)
    (hInside : ∀ t ∈ children, Seamless t) (tag : Option String) (properties : Dict Json) :
    Seamless (.element tag properties children) := by
  intro n hMem
  rcases List.mem_cons.1 hMem with rfl | hBelow
  · exact h
  · obtain ⟨t, hChild, hNode⟩ := mem_nodesAll.1 hBelow
    exact hInside t hChild n hNode

/-- A child is joined to a text before it if it is a text, so texts stay apart. -/
theorem Siblings.joinChild {before : List Tree} (h : Siblings before) {t : Tree}
    (hKept : Pane.isKept t = true) : Siblings (Builder.joinChild t before) := by
  unfold Builder.joinChild
  split
  · next s u rest =>
    obtain ⟨hNext, hRest⟩ := List.isChain_cons.1 h.apart
    exact ⟨List.isChain_cons.2 ⟨hNext, hRest⟩,
      List.forall_mem_cons.2 ⟨rfl, (List.forall_mem_cons.1 h.kept).2⟩⟩
  · next hApart =>
    refine ⟨List.isChain_cons.2 ⟨?_, h.apart⟩, List.forall_mem_cons.2 ⟨hKept, h.kept⟩⟩
    intro u hMem
    cases before with
    | nil => cases hMem
    | cons v rest =>
        cases Option.some.inj hMem
        cases t with
        | text s =>
            cases u with
            | text s' => exact absurd rfl (hApart s s' rest rfl)
            | _ => exact .inr rfl
        | _ => exact .inl rfl

theorem seamless_joinChild {before : List Tree} (h : ∀ u ∈ before, Seamless u) {t : Tree}
    (hSeamless : Seamless t) : ∀ u ∈ Builder.joinChild t before, Seamless u := by
  unfold Builder.joinChild
  split
  · exact List.forall_mem_cons.2 ⟨seamless_text _, (List.forall_mem_cons.1 h).2⟩
  · exact List.forall_mem_cons.2 ⟨hSeamless, h⟩

namespace Builder

/-! ## While a tree is built -/

/-- Children that are collected, latest first: siblings, and everything in them is seamless. -/
structure Collected (ts : List Tree) : Prop where
  siblings : Siblings ts
  inside : ∀ t ∈ ts, Tree.Seamless t

/-- The children of the root and of every open element are seamless. -/
structure Seamless (b : Builder) : Prop where
  root : Collected b.root
  frames : ∀ f ∈ b.frames, Collected f.children

theorem collected_nil : Collected [] := ⟨siblings_nil, by simp⟩

theorem Collected.joinChild {before : List Tree} (h : Collected before) {t : Tree}
    (hKept : Pane.isKept t = true) (hSeamless : Tree.Seamless t) :
    Collected (Builder.joinChild t before) :=
  ⟨h.siblings.joinChild hKept, seamless_joinChild h.inside hSeamless⟩

/-- The same of the last opened element and of those around it. -/
theorem Seamless.of_frames {b : Builder} (h : Seamless b) {f : Frame} {rest : List Frame}
    (hFrames : b.frames = f :: rest) :
    Collected f.children ∧ ∀ g ∈ rest, Collected g.children := by
  have hOpen := h.frames
  rw [hFrames] at hOpen
  exact List.forall_mem_cons.1 hOpen

theorem seamless_start : Seamless start := ⟨collected_nil, by simp [start]⟩

theorem seamless_add {b : Builder} (h : Seamless b) {t : Tree} (hKept : Pane.isKept t = true)
    (hSeamless : Tree.Seamless t) : Seamless (b.add t) := by
  unfold add
  split
  · exact ⟨h.root.joinChild hKept hSeamless, h.frames⟩
  · next f rest hFrames =>
    obtain ⟨hFirst, hRest⟩ := h.of_frames hFrames
    exact ⟨h.root, List.forall_mem_cons.2 ⟨hFirst.joinChild hKept hSeamless, hRest⟩⟩

theorem seamless_push {b : Builder} (h : Seamless b) {f : Frame} (hChildren : f.children = []) :
    Seamless (b.push f) := by
  refine ⟨h.root, List.forall_mem_cons.2 ⟨?_, h.frames⟩⟩
  rw [hChildren]
  exact collected_nil

/-- A closed element keeps its children, and it is no text. -/
theorem seamless_pop {b : Builder} (h : Seamless b) : Seamless b.pop := by
  unfold pop
  split
  · exact h
  · next f rest hFrames =>
    obtain ⟨hFirst, hRest⟩ := h.of_frames hFrames
    have hClosed : Tree.Seamless f.finish := by
      refine seamless_element hFirst.siblings.reverse ?_ _ _
      intro t hMem
      exact hFirst.inside t (List.mem_reverse.1 hMem)
    have hOuter : Seamless { b with frames := rest } := ⟨h.root, hRest⟩
    exact seamless_add hOuter rfl hClosed

theorem seamless_closeAlt {b : Builder} (h : Seamless b) : Seamless b.closeAlt := by
  unfold closeAlt
  split
  · next alt f rest _ hFrames =>
    obtain ⟨hFirst, hRest⟩ := h.of_frames hFrames
    refine ⟨h.root, List.forall_mem_cons.2 ⟨?_, hRest⟩⟩
    by_cases hEmpty : alt.isEmpty = true
    · rw [if_pos hEmpty]
      exact hFirst
    · rw [if_neg hEmpty]
      exact hFirst
  · exact ⟨h.root, h.frames⟩

theorem seamless_pushes {fs : List Frame} (hChildren : ∀ f ∈ fs, f.children = []) {b : Builder}
    (h : Seamless b) : Seamless (fs.foldl (fun b f => b.push f) b) := by
  induction fs generalizing b with
  | nil => exact h
  | cons f fs ih =>
      obtain ⟨hFirst, hRest⟩ := List.forall_mem_cons.1 hChildren
      exact ih hRest (seamless_push h hFirst)

theorem seamless_enter {b : Builder} (h : Seamless b) (tag : Tag) : Seamless (b.enter tag) := by
  have hPushes := seamless_pushes (fun f hMem => (bare_framesOf tag f hMem).children) h
  cases tag with
  | image destination title => exact ⟨hPushes.root, hPushes.frames⟩
  | _ => exact hPushes

theorem seamless_leave {b : Builder} (h : Seamless b) (tag : Tag) : Seamless (b.leave tag) := by
  cases tag with
  | image destination title => exact seamless_pop (seamless_closeAlt h)
  | codeBlock info => exact seamless_pop (seamless_pop h)
  | _ => exact seamless_pop h

theorem seamless_stepContent {b : Builder} (h : Seamless b) (e : Markup.Event) :
    Seamless (b.stepContent e) := by
  have hElement : ∀ (tag : String) {children : List Tree}, Siblings children →
      (∀ t ∈ children, Tree.Seamless t) →
      Seamless (b.add (.element (some tag) .empty children)) := by
    intro tag children hSiblings hInside
    exact seamless_add h rfl (seamless_element hSiblings hInside _ _)
  cases e with
  | enter tag => exact seamless_enter h tag
  | leave tag => exact seamless_leave h tag
  | text s => exact seamless_add h rfl (seamless_text s)
  | code s =>
      have hOnly : Siblings [.text s] := ⟨List.isChain_singleton _, by simp [Pane.isKept]⟩
      exact hElement "code" hOnly (by simp [seamless_text])
  | softBreak => exact seamless_add h rfl (seamless_text "\n")
  | hardBreak => exact hElement "br" siblings_nil (by simp)
  | rule => exact hElement "hr" siblings_nil (by simp)
  | html => exact h
  | other => exact h

/-- **Every event keeps texts apart**, also the ones that are ignored in a description. -/
theorem seamless_step {b : Builder} (h : Seamless b) (e : Markup.Event) : Seamless (b.step e) := by
  unfold step
  split
  · exact seamless_stepContent h e
  · split
    · exact ⟨h.root, h.frames⟩
    · exact ⟨h.root, h.frames⟩
    · exact seamless_stepContent h _
    · exact h

theorem seamless_foldl_step (es : List Markup.Event) {b : Builder} (h : Seamless b) :
    Seamless (es.foldl step b) := by
  induction es generalizing b with
  | nil => exact h
  | cons e es ih => exact ih (seamless_step h e)

end Builder

/-- At every level of a finished tree the children are kept, and no two texts stand next to each
other. -/
theorem seamless_ofEvents (es : List Markup.Event) : Seamless (ofEvents es) := by
  obtain ⟨hRoot, -⟩ := Builder.seamless_foldl_step es Builder.seamless_start
  intro n hMem
  rcases List.mem_cons.1 hMem with rfl | hBelow
  · exact hRoot.siblings.reverse
  · obtain ⟨t, hChild, hNode⟩ := mem_nodesAll.1 hBelow
    exact hRoot.inside t (List.mem_reverse.1 hChild) n hNode

/-! ## Stretches of text -/

/-- Whether an event is shown by no tree. -/
def isSilent : Markup.Event → Bool
  | .html => true
  | .other => true
  | _ => false

/-- Whether an event does not break a text off: it is a text itself, a line break that does not
count as one, or shown by no tree. -/
def isProse : Markup.Event → Bool
  | .text _ => true
  | .softBreak => true
  | e => isSilent e

namespace Builder

theorem joinChild_joinChild_text (s u : String) (before : List Tree) :
    joinChild (.text u) (joinChild (.text s) before) = joinChild (.text (s ++ u)) before := by
  cases before with
  | nil => rfl
  | cons t rest => cases t <;> simp [joinChild, String.append_assoc]

/-- Two texts one after the other are one text. -/
theorem add_add_text (b : Builder) (s u : String) :
    (b.add (.text s)).add (.text u) = b.add (.text (s ++ u)) := by
  obtain ⟨root, frames, alt⟩ := b
  cases frames <;> simp [add, joinChild_joinChild_text]

/-- What no tree shows changes nothing. -/
theorem step_silent {e : Markup.Event} (hSilent : isSilent e = true) {b : Builder}
    (h : b.alt = none) : b.step e = b := by
  rw [step_of_no_alt h]
  cases e <;> first | rfl | cases hSilent

/-- What no tree shows says nothing. -/
theorem script_silent {e : Markup.Event} (hSilent : isSilent e = true) (es : List Markup.Event) :
    script false (e :: es) = script false es := by
  cases e <;> first | exact String.empty_append | cases hSilent

theorem script_prose {e : Markup.Event} (hProse : isProse e = true) (es : List Markup.Event) :
    script false (e :: es) = saying false e ++ script false es := by
  cases e <;> first | rfl | cases hProse

theorem step_prose {e : Markup.Event} (hProse : isProse e = true) (hSome : ¬ isSilent e = true)
    {b : Builder} (h : b.alt = none) : b.step e = b.add (.text (saying false e)) := by
  rw [step_of_no_alt h]
  cases e with
  | text s => rfl
  | softBreak => rfl
  | html => exact absurd rfl hSome
  | other => exact absurd rfl hSome
  | _ => cases hProse

/-- Behind a text the stretch goes on. -/
theorem foldl_step_behind_text {run : List Markup.Event} (hRun : ∀ e ∈ run, isProse e = true)
    {b : Builder} (h : b.alt = none) (s : String) :
    run.foldl step (b.add (.text s)) = b.add (.text (s ++ script false run)) := by
  have hAlt : ∀ u : String, (b.add (.text u)).alt = none := fun u => (add_alt b _).trans h
  induction run generalizing s with
  | nil => rw [List.foldl_nil, script, String.append_empty]
  | cons e run ih =>
      obtain ⟨hProse, hRest⟩ := List.forall_mem_cons.1 hRun
      by_cases hSilent : isSilent e = true
      · rw [List.foldl_cons, step_silent hSilent (hAlt s), script_silent hSilent, ih hRest]
      · rw [List.foldl_cons, step_prose hProse hSilent (hAlt s), add_add_text, ih hRest,
          script_prose hProse, String.append_assoc]

/-- **A stretch of text is added as one text**, if there is anything in it that a tree shows. -/
theorem foldl_step_prose {run : List Markup.Event} (hRun : ∀ e ∈ run, isProse e = true)
    (hSome : ∃ e ∈ run, isSilent e = false) {b : Builder} (h : b.alt = none) :
    run.foldl step b = b.add (.text (script false run)) := by
  induction run with
  | nil => simp at hSome
  | cons e run ih =>
      obtain ⟨hProse, hRest⟩ := List.forall_mem_cons.1 hRun
      by_cases hSilent : isSilent e = true
      · have hRestSome : ∃ e ∈ run, isSilent e = false := by simpa [hSilent] using hSome
        rw [List.foldl_cons, step_silent hSilent h, script_silent hSilent, ih hRest hRestSome]
      · rw [List.foldl_cons, step_prose hProse hSilent h, foldl_step_behind_text hRest h,
          script_prose hProse]

end Builder

/-- **Finished trees have no neighbouring texts.**  Whatever the events are, at every level of the
tree no two texts stand next to each other among the children, and all children are kept when they
are compiled, so the same holds of what a list item sees of its children.  Wherever no image is
being described, a stretch of texts, line breaks that do not count as one, HTML and whatever else no
tree shows, in whatever pieces it comes, gives the same tree as a single text with all that it
says. -/
theorem texts_joined (es : List Markup.Event) :
    (∀ t ∈ nodes (ofEvents es), t.children.IsChain Apart) ∧
    (∀ t ∈ nodes (ofEvents es), t.children.filter Pane.isKept = t.children) ∧
    ∀ before stretch behind, es = before ++ stretch ++ behind →
      before.foldl describes false = false → (∀ e ∈ stretch, isProse e = true) →
      (∃ e ∈ stretch, isSilent e = false) →
      ofEvents es = ofEvents (before ++ .text (script false stretch) :: behind) := by
  refine ⟨?_, ?_, ?_⟩
  · intro t hMem
    exact (seamless_ofEvents es t hMem).apart
  · intro t hMem
    exact List.filter_eq_self.2 (seamless_ofEvents es t hMem).kept
  · rintro before stretch behind rfl hOutside hProse hSome
    have hSays := Builder.says_foldl_step before Builder.sound_start
    have hAlt : (before.foldl Builder.step .start).alt = none :=
      Option.isSome_eq_false_iff.1 (hSays.described.trans hOutside) |> Option.isNone_iff_eq_none.1
    have hStretch : stretch.foldl Builder.step (before.foldl Builder.step .start) =
        (before.foldl Builder.step .start).step (.text (script false stretch)) := by
      rw [Builder.foldl_step_prose hProse hSome hAlt, Builder.step_of_no_alt hAlt]
      rfl
    rw [ofEvents, ofEvents, List.foldl_append, List.foldl_append, hStretch, List.foldl_append,
      List.foldl_cons]

/-- A list item whose text comes in pieces: an entity splits it, and a line break and HTML stand in
the middle of it. -/
def brokenItem : List Markup.Event :=
  [.enter (.list false), .enter .item, .text "AT", .text "&", .text "T", .softBreak, .html,
    .text "Bell", .leave .item, .leave (.list false)]

/-- The item has a single text and is rendered as one. -/
theorem texts_joined_brokenItem :
    ofEvents brokenItem = ofEvents [.enter (.list false), .enter .item, .text "AT&T\nBell",
        .leave .item, .leave (.list false)] ∧
      ofEvents brokenItem = root [named "ul" [] [named "li" [] [.text "AT&T\nBell"]]] ∧
      Pane.listItemHint [.text "AT&T\nBell"] = some "h3" := by
  have hJoined := (texts_joined brokenItem).2.2 [.enter (.list false), .enter .item]
    [.text "AT", .text "&", .text "T", .softBreak, .html, .text "Bell"]
    [.leave .item, .leave (.list false)] rfl rfl (by decide) ⟨.softBreak, by decide, rfl⟩
  exact ⟨hJoined, hJoined.trans rfl, by decide⟩

end PaneEngine.Tree
