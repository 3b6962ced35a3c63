import PaneEngine.Proofs.Dict
import PaneEngine.Proofs.Tree.Nesting

/-!
# The wording of a document

What a document says is the sequence of its texts, wherever constructs begin and
end between them.  While a tree is built, its wording lies in the children of the
root, in the elements that are still open and in a description that is not
complete yet, in this order.  Every event puts what it says behind all of that,
and closing an element only moves wording from one place to the next; this holds
even where an image inside a description closes elements that it did not open.

## Main definitions

* `wording` — the texts of a tree and the alternative texts of its images, in document order;
* `script` — what events say, in the order of the stream;
* `Builder.wording` — the wording of a tree that is being built;
* `Builder.Sound` — where alternative texts may stand while a tree is built;
* `Builder.Says`, `Grows` — between two moments words have been said and nothing has been lost.

## Main results

* `says_step` — an event puts what it says behind the wording so far;
* `says_foldl_step` — whatever the events, the wording so far is what they have said;
* `wording_preserved` — well-nested events leave their wording in the tree.
-/

namespace PaneEngine.Tree

open Markup (Tag)

/-! ## The wording of a tree -/

/-- The alternative text of an image; other elements have none. -/
def caption (t : Tree) : String :=
  if t.tag? = some "img" then (t.property? "alt").getD "" else ""

mutual

/-- The texts of a tree in document order, an alternative text at the place of its image. -/
def wording : Tree → String
  | .root children => wordings children
  | .element tag properties children =>
    caption (.element tag properties []) ++ wordings children
  | .text s => s
  | .other => ""

/-- The texts of trees one after the other. -/
def wordings : List Tree → String
  | [] => ""
  | t :: rest => wording t ++ wordings rest

end

theorem wordings_append (ts us : List Tree) :
    wordings (ts ++ us) = wordings ts ++ wordings us := by
  induction ts with
  | nil => exact String.empty_append.symm
  | cons t ts ih => rw [List.cons_append, wordings, wordings, ih, String.append_assoc]

theorem wordings_concat (ts : List Tree) (t : Tree) :
    wordings (ts ++ [t]) = wordings ts ++ wording t := by
  rw [wordings_append, wordings, wordings, String.append_empty]

/-- Joining two texts does not change what they say. -/
theorem wordings_joinChild (t : Tree) (before : List Tree) :
    wordings (Builder.joinChild t before).reverse = wordings before.reverse ++ wording t := by
  have hApart : wordings (t :: before).reverse = wordings before.reverse ++ wording t := by
    rw [List.reverse_cons, wordings_concat]
  unfold Builder.joinChild
  split
  · next s u rest =>
    simp only [List.reverse_cons, wordings_concat, wording, String.append_assoc]
  · exact hApart

/-! ## The wording of events -/

/-- Whether a description is in progress behind an event: one begins with an image, and the first
image that is left ends it. -/
def describes (before : Bool) : Markup.Event → Bool
  | .enter (.image ..) => true
  | .leave (.image ..) => false
  | _ => before

/-- What an event says; line breaks count outside of descriptions. -/
def saying (described : Bool) : Markup.Event → String
  | .text s => s
  | .code s => s
  | .softBreak => if described then "" else "\n"
  | _ => ""

/-- What events say one after the other. -/
def script : Bool → List Markup.Event → String
  | _, [] => ""
  | described, e :: es => saying described e ++ script (describes described e) es

/-! ## The wording while a tree is built -/

/-- The wording of open elements that are listed innermost first. -/
def frameWordings : List Frame → String
  | [] => ""
  | f :: rest => frameWordings rest ++ wordings f.children.reverse

/-- Children, latest first, to which others may have been added but from which none is gone. -/
def Grows (before after : List Tree) : Prop :=
  ∃ ts : List Tree, after = ts.foldl (fun us t => Builder.joinChild t us) before

theorem Grows.refl (ts : List Tree) : Grows ts ts := ⟨[], rfl⟩

theorem Grows.trans {ts us vs : List Tree} (h : Grows ts us) (h' : Grows us vs) :
    Grows ts vs := by
  obtain ⟨added, rfl⟩ := h
  obtain ⟨more, rfl⟩ := h'
  exact ⟨added ++ more, List.foldl_append.symm⟩

namespace Builder

/-- The wording so far. -/
def wording (b : Builder) : String :=
  wordings b.root.reverse ++ frameWordings b.frames ++ b.alt.getD ""

/-- No open element has an alternative text yet, and a description is in progress only in an image
without children. -/
structure Sound (b : Builder) : Prop where
  no_alt : ∀ f ∈ b.frames, f.properties.get? "alt" = none
  in_image : ∀ alt, b.alt = some alt →
    ∃ f rest, b.frames = f :: rest ∧ f.tag = "img" ∧ f.children = []

theorem sound_start : Sound start :=
  ⟨fun _ hMem => (List.not_mem_nil hMem).elim, fun _ hAlt => by cases hAlt⟩

theorem sound_of_no_alt {b : Builder} (h : b.alt = none)
    (hFrames : ∀ f ∈ b.frames, f.properties.get? "alt" = none) : Sound b :=
  ⟨hFrames, fun _ hAlt => by cases h.symm.trans hAlt⟩

/-- From `b` to `b'` these words have been said and nothing has been lost. -/
structure Says (b b' : Builder) (words : String) (described : Bool) : Prop where
  wording : b'.wording = b.wording ++ words
  described : b'.alt.isSome = described
  sound : Sound b'
  root : Grows b.root b'.root

theorem Says.alt {b b' : Builder} {words : String} (h : Says b b' words false) :
    b'.alt = none := Option.isSome_eq_false_iff.1 h.described |> Option.isNone_iff_eq_none.1

theorem Says.refl {b : Builder} (hSound : Sound b) : Says b b "" b.alt.isSome :=
  ⟨String.append_empty.symm, rfl, hSound, .refl _⟩

theorem Says.trans {b b' b'' : Builder} {words words' : String} {d d' : Bool}
    (h : Says b b' words d) (h' : Says b' b'' words' d') : Says b b'' (words ++ words') d' :=
  ⟨by rw [h'.wording, h.wording, String.append_assoc], h'.described, h'.sound,
    h.root.trans h'.root⟩

/-! ### Adding and opening -/

theorem says_add {b : Builder} (hSound : Sound b) (h : b.alt = none) (t : Tree) :
    Says b (b.add t) (Tree.wording t) false := by
  obtain ⟨root, frames, alt⟩ := b
  have hNone : alt = none := h
  subst hNone
  cases frames with
  | nil =>
      refine ⟨?_, rfl, sound_of_no_alt rfl hSound.no_alt, [t], rfl⟩
      simp only [add, wording, frameWordings, wordings_joinChild, Option.getD_none,
        String.append_empty]
  | cons f rest =>
      refine ⟨?_, rfl, sound_of_no_alt rfl ?_, .refl _⟩
      · simp only [add, wording, frameWordings, wordings_joinChild, Option.getD_none,
          String.append_empty, String.append_assoc]
      · intro g hMem
        rcases List.mem_cons.1 hMem with rfl | hRest
        · exact hSound.no_alt f List.mem_cons_self
        · exact hSound.no_alt g (List.mem_cons_of_mem _ hRest)

/-- A frame without children and without an alternative text. -/
structure Bare (f : Frame) : Prop where
  children : f.children = []
  no_alt : f.properties.get? "alt" = none

theorem bare_start (tag : String) {properties : List (String × Json)}
    (h : ∀ p ∈ properties, p.1 ≠ "alt") : Bare (.start tag properties) := by
  refine ⟨rfl, (Dict.get?_ofList _ _).trans (List.lookup_eq_none_iff.2 ?_)⟩
  intro p hMem
  simpa using (h p (List.mem_reverse.1 hMem)).symm

theorem bare_framesOf (tag : Tag) : ∀ f ∈ framesOf tag, Bare f := by
  intro f hMem
  cases tag with
  | codeBlock info =>
      rcases List.mem_cons.1 hMem with rfl | hCode
      · exact bare_start _ (by simp)
      · rw [List.mem_singleton.1 hCode]
        refine bare_start _ ?_
        cases info with
        | none => simp
        | some info => by_cases hEmpty : info.isEmpty = true <;> simp [hEmpty]
  | link destination title =>
      rw [List.mem_singleton.1 hMem]
      refine bare_start _ ?_
      by_cases hEmpty : title.isEmpty = true <;> simp [hEmpty]
  | image destination title =>
      rw [List.mem_singleton.1 hMem]
      exact bare_start _ (by simp)
  | _ =>
      rw [List.mem_singleton.1 hMem]
      exact bare_start _ (by simp)

/-- An element without children has nothing to say. -/
theorem says_push {b : Builder} (hSound : Sound b) (h : b.alt = none) {f : Frame} (hBare : Bare f) :
    Says b (b.push f) "" false := by
  refine ⟨?_, by rw [push, h]; rfl, sound_of_no_alt h ?_, .refl _⟩
  · simp only [push, wording, frameWordings, h, hBare.children, List.reverse_nil, wordings,
      Option.getD_none, String.append_empty]
  · intro g hMem
    rcases List.mem_cons.1 hMem with rfl | hRest
    · exact hBare.no_alt
    · exact hSound.no_alt g hRest

theorem says_pushes {fs : List Frame} (hBare : ∀ f ∈ fs, Bare f) {b : Builder} (hSound : Sound b)
    (h : b.alt = none) : Says b (fs.foldl (fun b f => b.push f) b) "" false := by
  induction fs generalizing b with
  | nil =>
      have hRefl := Says.refl hSound
      rw [h] at hRefl
      exact hRefl
  | cons f fs ih =>
      have hPush := says_push hSound h (hBare f List.mem_cons_self)
      exact hPush.trans (ih (fun g hMem => hBare g (List.mem_cons_of_mem _ hMem)) hPush.sound
        hPush.alt)

theorem says_enter {b : Builder} (hSound : Sound b) (h : b.alt = none) (tag : Tag) :
    Says b (b.enter tag) "" (isImage tag) := by
  have hPushes := says_pushes (bare_framesOf tag) hSound h
  cases tag with
  | image destination title =>
      refine ⟨?_, rfl, ⟨hPushes.sound.no_alt, ?_⟩, hPushes.root⟩
      · refine Eq.trans ?_ hPushes.wording
        simp [wording, enter, framesOf, push, h]
      · intro alt _
        exact ⟨_, _, rfl, rfl, rfl⟩
  | _ => exact hPushes

/-! ### Closing -/

/-- An element that is closed says what its children say, and its alternative text before. -/
theorem wording_finish (f : Frame) :
    Tree.wording f.finish =
      caption (.element (some f.tag) f.properties []) ++ wordings f.children.reverse := rfl

theorem caption_of_no_alt {tag : Option String} {properties : Dict Json}
    (h : properties.get? "alt" = none) : caption (.element tag properties []) = "" := by
  simp [caption, property?, h]

theorem says_pop {b : Builder} (hSound : Sound b) (h : b.alt = none) : Says b b.pop "" false := by
  obtain ⟨root, frames, alt⟩ := b
  have hNone : alt = none := h
  subst hNone
  cases frames with
  | nil => exact Says.refl hSound
  | cons f rest =>
      have hRest : Sound ⟨root, rest, none⟩ :=
        sound_of_no_alt rfl fun g hMem => hSound.no_alt g (List.mem_cons_of_mem _ hMem)
      have hAdd := says_add hRest rfl f.finish
      refine ⟨hAdd.wording.trans ?_, hAdd.described, hAdd.sound, hAdd.root⟩
      rw [wording_finish, caption_of_no_alt (hSound.no_alt f List.mem_cons_self)]
      simp only [wording, frameWordings, Option.getD_none, String.append_empty,
        String.empty_append, String.append_assoc]

/-- An image takes its description over as its alternative text, an empty one by having none. -/
theorem wording_described {f : Frame} (hTag : f.tag = "img") (hChildren : f.children = [])
    (hNone : f.properties.get? "alt" = none) (alt : String) :
    Tree.wording (Frame.finish (if alt.isEmpty then f
      else { f with properties := f.properties.insert "alt" (.string alt) })) = alt := by
  by_cases hEmpty : alt.isEmpty = true
  · rw [if_pos hEmpty, wording_finish, caption_of_no_alt hNone, hChildren,
      String.isEmpty_iff.1 hEmpty]
    rfl
  · rw [if_neg hEmpty, wording_finish, hChildren]
    simp [caption, tag?, property?, hTag, Dict.get?_insert, wordings]

/-- What a description has said moves from the description to the image. -/
theorem says_closeAlt_pop {b : Builder} (hSound : Sound b) : Says b b.closeAlt.pop "" false := by
  obtain ⟨root, frames, alt⟩ := b
  cases alt with
  | none =>
      have hClose : closeAlt ⟨root, frames, none⟩ = ⟨root, frames, none⟩ := rfl
      rw [hClose]
      exact says_pop hSound rfl
  | some alt =>
      obtain ⟨f, rest, hFrames, hTag, hChildren⟩ := hSound.in_image alt rfl
      have hOpen : frames = f :: rest := hFrames
      subst hOpen
      have hRest : Sound ⟨root, rest, none⟩ :=
        sound_of_no_alt rfl fun g hMem => hSound.no_alt g (List.mem_cons_of_mem _ hMem)
      have hAdd := says_add hRest rfl (Frame.finish (if alt.isEmpty then f
        else { f with properties := f.properties.insert "alt" (.string alt) }))
      refine ⟨hAdd.wording.trans ?_, hAdd.described, hAdd.sound, hAdd.root⟩
      rw [wording_described hTag hChildren (hSound.no_alt f List.mem_cons_self)]
      simp only [wording, frameWordings, hChildren, List.reverse_nil, wordings, Option.getD_none,
        Option.getD_some, String.append_empty]

theorem says_leave {b : Builder} (hSound : Sound b) (h : b.alt = none) (tag : Tag) :
    Says b (b.leave tag) "" false := by
  cases tag with
  | image destination title => exact says_closeAlt_pop hSound
  | codeBlock info =>
      have hInner := says_pop hSound h
      exact hInner.trans (says_pop hInner.sound hInner.alt)
  | _ => exact says_pop hSound h

/-! ### Events -/

theorem says_leaf {b : Builder} (hSound : Sound b) (h : b.alt = none) (l : Leaf) :
    Says b (b.step l.event) (saying false l.event) false := by
  have hAdd := says_add hSound h
  rw [step_of_no_alt h]
  cases l with
  | text s => exact hAdd (text s)
  | code s =>
      have hCode := hAdd (element (some "code") .empty [text s])
      have hWords : Tree.wording (element (some "code") .empty [text s]) = s := by
        simp [Tree.wording, caption, tag?, wordings]
      rw [hWords] at hCode
      exact hCode
  | softBreak => exact hAdd (text "\n")
  | hardBreak => exact hAdd (element (some "br") .empty [])
  | rule => exact hAdd (element (some "hr") .empty [])
  | _ =>
      have hRefl := Says.refl hSound
      rw [h] at hRefl
      exact hRefl

/-- In a description words are kept aside. -/
theorem says_described {b : Builder} (hSound : Sound b) {alt : String} (h : b.alt = some alt)
    (words : String) : Says b { b with alt := some (alt ++ words) } words true := by
  refine ⟨?_, rfl, ⟨hSound.no_alt, fun _ _ => hSound.in_image alt h⟩, .refl _⟩
  simp only [wording, h, Option.getD_some, String.append_assoc]

theorem says_step_outside {b : Builder} (hSound : Sound b) (h : b.alt = none)
    (e : Markup.Event) : Says b (b.step e) (saying false e) (describes false e) := by
  cases e with
  | enter tag =>
      have hEnter := says_enter hSound h tag
      rw [step_of_no_alt h]
      cases tag <;> exact hEnter
  | leave tag =>
      have hLeave := says_leave hSound h tag
      rw [step_of_no_alt h]
      cases tag <;> exact hLeave
  | text s => exact says_leaf hSound h (.text s)
  | code s => exact says_leaf hSound h (.code s)
  | softBreak => exact says_leaf hSound h .softBreak
  | hardBreak => exact says_leaf hSound h .hardBreak
  | rule => exact says_leaf hSound h .rule
  | html => exact says_leaf hSound h .html
  | other => exact says_leaf hSound h .other

theorem says_step_inside {b : Builder} (hSound : Sound b) {alt : String} (h : b.alt = some alt)
    (e : Markup.Event) : Says b (b.step e) (saying true e) (describes true e) := by
  have hKeeps : Says b b "" true := by
    have hRefl := Says.refl hSound
    rw [h] at hRefl
    exact hRefl
  have hLeaf : ∀ l : Leaf, Says b (b.step l.event) l.words true := by
    intro l
    rw [step_leaf_described h]
    exact says_described hSound h l.words
  cases e with
  | enter tag =>
      rw [step_enter_described h]
      cases tag <;> exact hKeeps
  | leave tag =>
      cases tag with
      | image destination title =>
          rw [step_leave_image]
          exact says_closeAlt_pop hSound
      | _ =>
          rw [step_leave_described h rfl]
          exact hKeeps
  | text s => exact hLeaf (.text s)
  | code s => exact hLeaf (.code s)
  | softBreak => exact hLeaf .softBreak
  | hardBreak => exact hLeaf .hardBreak
  | rule => exact hLeaf .rule
  | html => exact hLeaf .html
  | other => exact hLeaf .other

/-- **An event puts what it says behind the wording so far.** -/
theorem says_step {b : Builder} (hSound : Sound b) (e : Markup.Event) :
    Says b (b.step e) (saying b.alt.isSome e) (describes b.alt.isSome e) := by
  cases h : b.alt with
  | none => exact says_step_outside hSound h e
  | some alt => exact says_step_inside hSound h e

/-- **Whatever the events are, the wording so far is what they have said.** -/
theorem says_foldl_step (es : List Markup.Event) {b : Builder} (hSound : Sound b) :
    Says b (es.foldl step b) (script b.alt.isSome es) (es.foldl describes b.alt.isSome) := by
  induction es generalizing b with
  | nil => exact Says.refl hSound
  | cons e es ih =>
      have hStep := says_step hSound e
      have hRest := ih hStep.sound
      rw [hStep.described] at hRest
      exact hStep.trans hRest

end Builder

/-! ## Well-nested events -/

/-- **Wording is preserved.**  For every sequence of events that leaves what it enters, innermost
first: the texts of the finished tree, with the alternative text of an image at its place, are the
texts and codes of the events in their order, with a line break for every one outside of a
description.  At the end no element is open and no description is pending.  At every moment the
root, the open elements and the description hold just what has been said so far, and what the root
has got is never taken away from it. -/
theorem wording_preserved {es : List Markup.Event} (h : closes [] es = true) :
    wording (ofEvents es) = script false es ∧
    (es.foldl Builder.step .start).frames = [] ∧
    (es.foldl Builder.step .start).alt = none ∧
    ∀ said rest, es = said ++ rest →
      (said.foldl Builder.step .start).wording = script false said ∧
      Grows (said.foldl Builder.step .start).root (es.foldl Builder.step .start).root := by
  obtain ⟨c, rfl⟩ := (closes_iff_passage es).1 h
  have hSays : ∀ said : List Markup.Event,
      (said.foldl Builder.step .start).wording = script false said := by
    intro said
    rw [(Builder.says_foldl_step said Builder.sound_start).wording]
    exact String.empty_append
  have hSettled := (Builder.settles_and_spills c).1 .start rfl
  have hFrames : (c.events.foldl Builder.step .start).frames = [] :=
    List.eq_nil_of_length_eq_zero (Nat.le_zero.1 (Nat.le_trans hSettled.frames (Nat.sub_le _ _)))
  refine ⟨?_, hFrames, hSettled.alt, ?_⟩
  · rw [← hSays, Builder.wording, hFrames, hSettled.alt]
    simp only [ofEvents, wording, frameWordings, Option.getD_none, String.append_empty]
  · intro said rest hEvents
    refine ⟨hSays said, ?_⟩
    rw [hEvents, List.foldl_append]
    exact (Builder.says_foldl_step rest
      (Builder.says_foldl_step said Builder.sound_start).sound).root

/-- A paragraph with an image that is described by text, a line break, an image and code. -/
def pictureInPicture : List Markup.Event :=
  [.enter .paragraph, .enter (.image "outer" ""), .text "a", .softBreak,
    .enter (.image "inner" ""), .text "b", .leave (.image "inner" ""), .softBreak, .code "c",
    .leave (.image "outer" ""), .text " d", .leave .paragraph]

/-- The inner image ends the description, so that the line break behind it counts; the paragraph is
closed too early, but its text stays in order. -/
theorem wording_preserved_pictureInPicture :
    closes [] pictureInPicture = true ∧ wording (ofEvents pictureInPicture) = "ab\nc d" ∧
      ofEvents pictureInPicture =
        root [named "p" [] [named "img" [("src", .string "outer"), ("alt", .string "ab")] [],
          .text "\n", element (some "code") .empty [.text "c"]], .text " d"] := by
  have hCloses : closes [] pictureInPicture = true := by decide
  exact ⟨hCloses, (wording_preserved hCloses).1.trans (by decide), rfl⟩

end PaneEngine.Tree
