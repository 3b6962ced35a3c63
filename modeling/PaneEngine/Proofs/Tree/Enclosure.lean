import PaneEngine.Proofs.Tree.OpenElements

/-!
# What follows a passage

Whether a passage closes elements that it did not open can be seen in the
finished tree as soon as something follows it.  A text behind a passage should
end up below all constructs that enclose it.  The number of elements around the
last text of a tree is counted here, in the tree that is built and in the tree
that should be built.

## Main definitions

* `reach` — the number of elements around the last leaf of a tree;
* `Opening`, `enclose` — a passage inside constructs, with something before it in each.

## Main results

* `slips_enclose` — behind a passage that is not plain a text ends up too high;
* `nesting_iff_plain` — nesting is preserved exactly by the plain passages.
-/

namespace PaneEngine.Tree

open Markup (Tag)

/-! ## The last leaf -/

mutual

/-- How many elements there are around the last leaf of a tree. -/
def reach : Tree → Nat
  | .root children => reachAll children
  | .element _ _ children => reachAll children + 1
  | .text _ => 0
  | .other => 0

/-- How many elements there are around the last leaf of the last tree. -/
def reachAll : List Tree → Nat
  | [] => 0
  | t :: rest => if rest.isEmpty then reach t else reachAll rest

end

theorem reachAll_concat (ts : List Tree) (t : Tree) : reachAll (ts ++ [t]) = reach t := by
  induction ts with
  | nil => rfl
  | cons a ts ih =>
      rw [List.cons_append, reachAll, if_neg (by simp), ih]

/-- Among children that are listed latest first, the first one counts. -/
theorem reachAll_reverse {ts : List Tree} {n : Nat} (h : ts.head?.map reach = some n) :
    reachAll ts.reverse = n := by
  cases ts with
  | nil => cases h
  | cons t ts =>
      rw [List.reverse_cons, reachAll_concat]
      exact Option.some.inj h

theorem head?_joinChild (t : Tree) (before : List Tree) :
    (Builder.joinChild t before).head?.map reach = some (reach t) := by
  cases t with
  | text s =>
      cases before with
      | nil => rfl
      | cons u rest => cases u <;> rfl
  | _ => rfl

theorem reachAll_joined_concat (ts : List Tree) (t : Tree) :
    reachAll (joined (ts ++ [t])) = reach t := by
  rw [joined_concat]
  exact reachAll_reverse (head?_joinChild t _)

theorem reach_construct {tag : Tag} (h : isImage tag = false) (words : String)
    (ts : List Tree) :
    reach (construct tag words ts) = (Builder.framesOf tag).length + reachAll ts := by
  cases tag with
  | image destination title => cases h
  | codeBlock info =>
      show reachAll ts + 1 + 1 = 2 + reachAll ts
      omega
  | _ => exact Nat.add_comm _ 1

/-! ## Passages one after the other -/

namespace Passage

theorem events_append (c d : Passage) : (c.append d).events = c.events ++ d.events := by
  induction c with
  | nil => rfl
  | leaf l behind ihBehind => simp only [append, events, ihBehind, List.cons_append]
  | pair tag inside behind _ ihBehind =>
      simp only [append, events, ihBehind, List.cons_append, List.append_assoc]

theorem pieces_append (c d : Passage) : (c.append d).pieces = c.pieces ++ d.pieces := by
  induction c with
  | nil => rfl
  | leaf l behind ihBehind => simp only [append, pieces, ihBehind, List.append_assoc]
  | pair tag inside behind _ ihBehind => simp only [append, pieces, ihBehind, List.cons_append]

theorem isPlain_append (c d : Passage) : (c.append d).isPlain = (c.isPlain && d.isPlain) := by
  induction c with
  | nil => rfl
  | leaf l behind ihBehind => simp only [append, isPlain, ihBehind]
  | pair tag inside behind _ ihBehind => simp only [append, isPlain, ihBehind, Bool.and_assoc]

end Passage

/-! ## Enclosing constructs -/

/-- A construct that is still open, and what stands before it in the one around it. -/
structure Opening where
  before : Passage
  tag : Tag
  plain : before.isPlain = true
  not_image : isImage tag = false

/-- A passage at the end of constructs, the outermost first. -/
def enclose : List Opening → Passage → Passage
  | [], c => c
  | o :: context, c => o.before.append (.pair o.tag (enclose context c) .nil)

/-- How many elements constructs open. -/
def depth : List Opening → Nat
  | [] => 0
  | o :: context => (Builder.framesOf o.tag).length + depth context

/-- A passage with a text behind it. -/
def followed (c : Passage) (s : String) : Passage := c.append (.leaf (.text s) .nil)

theorem isPlain_enclose (context : List Opening) (c : Passage) :
    (enclose context c).isPlain = c.isPlain := by
  induction context with
  | nil => rfl
  | cons o context ih =>
      rw [enclose, Passage.isPlain_append, o.plain, Passage.isPlain, if_neg (by simp [o.not_image]),
        ih]
      simp [Passage.isPlain]

theorem isPlain_followed (c : Passage) (s : String) : (followed c s).isPlain = c.isPlain := by
  rw [followed, Passage.isPlain_append]
  exact Bool.and_true _

/-- The text behind an enclosed passage belongs below all the elements that are opened. -/
theorem reachAll_trees_enclose (context : List Opening) (c : Passage) (s : String) :
    reachAll (enclose context (followed c s)).trees = depth context := by
  induction context with
  | nil =>
      rw [enclose, followed, Passage.trees, Passage.pieces_append]
      exact reachAll_joined_concat c.pieces (.text s)
  | cons o context ih =>
      rw [enclose, Passage.trees, Passage.pieces_append, Passage.pieces, Passage.pieces,
        reachAll_joined_concat, reach_construct o.not_image]
      show _ + reachAll (enclose context (followed c s)).trees = _
      rw [ih]
      rfl

namespace Builder

/-! ## The last leaf while a tree is built -/

/-- The children of the innermost open element, latest first. -/
def latest (b : Builder) : List Tree :=
  match b.frames with
  | [] => b.root
  | f :: _ => f.children

/-- The last leaf has `n` elements around it below the innermost open element. -/
def Ends (b : Builder) (n : Nat) : Prop := b.latest.head?.map reach = some n

theorem ends_add (b : Builder) (t : Tree) : Ends (b.add t) (reach t) := by
  obtain ⟨root, frames, alt⟩ := b
  cases frames with
  | nil => exact head?_joinChild t root
  | cons f rest => exact head?_joinChild t f.children

/-- Closing an element moves one element from around the last leaf to below. -/
theorem ends_pop {b : Builder} {n : Nat} (h : Ends b n) :
    ∃ m, Ends b.pop m ∧ m + b.pop.frames.length = n + b.frames.length := by
  obtain ⟨root, frames, alt⟩ := b
  cases frames with
  | nil => exact ⟨n, h, rfl⟩
  | cons f rest =>
      have hLast : reachAll f.children.reverse = n := reachAll_reverse h
      have hReach : reach f.finish = n + 1 := congrArg (· + 1) hLast
      have hEnds := ends_add ⟨root, rest, alt⟩ f.finish
      rw [hReach] at hEnds
      refine ⟨n + 1, hEnds, ?_⟩
      rw [pop_frames_length, List.length_cons]
      omega

theorem ends_leave {tag : Tag} (hTag : isImage tag = false) {b : Builder} {n : Nat}
    (h : Ends b n) :
    ∃ m, Ends (b.leave tag) m ∧ m + (b.leave tag).frames.length = n + b.frames.length := by
  cases tag with
  | image destination title => cases hTag
  | codeBlock info =>
      obtain ⟨m, hInner, hInnerSum⟩ := ends_pop h
      obtain ⟨m', hOuter, hOuterSum⟩ := ends_pop hInner
      exact ⟨m', hOuter, hOuterSum.trans hInnerSum⟩
  | _ => exact ends_pop h

/-- From `b` to `b'` the last leaf has come to lie below fewer than `r` elements of its own. -/
structure Slips (b b' : Builder) (r : Nat) : Prop where
  alt : b'.alt = none
  frames : b'.frames.length ≤ b.frames.length
  ends : ∃ n, Ends b' n ∧ n + b'.frames.length < r + b.frames.length

theorem slips_followed {c : Passage} (hPlain : c.isPlain = false) {b : Builder}
    (h : b.alt = none) (hOpen : b.frames ≠ []) (s : String) :
    Slips b ((followed c s).events.foldl step b) 0 := by
  have hAlt := ((settles_and_spills c).1 b h).alt
  have hLt := frames_lt_of_not_plain hPlain h hOpen
  have hStep : (followed c s).events.foldl step b = (c.events.foldl step b).add (.text s) := by
    rw [followed, Passage.events_append, List.foldl_append]
    exact step_leaf hAlt (.text s)
  have hLength := add_frames_length (c.events.foldl step b) (.text s)
  rw [hStep]
  refine ⟨by rw [add_alt, hAlt], by omega, 0, ends_add _ (.text s), by omega⟩

theorem framesOf_length_pos (tag : Tag) : 0 < (framesOf tag).length := by
  cases tag <;> exact Nat.zero_lt_succ _

/-- **Behind a passage that is not plain a text ends up too high**, whatever constructs enclose
the two. -/
theorem slips_enclose {c : Passage} (hPlain : c.isPlain = false) (s : String)
    (context : List Opening) {b : Builder} (h : b.alt = none)
    (hOpen : context = [] → b.frames ≠ []) :
    Slips b ((enclose context (followed c s)).events.foldl step b) (depth context) := by
  induction context generalizing b with
  | nil => exact slips_followed hPlain h (hOpen rfl) s
  | cons o context ih =>
      let entered := (b.addAll o.before.pieces).enter o.tag
      have hBefore : (b.addAll o.before.pieces).alt = none := by rw [addAll_alt, h]
      have hEntered : entered.frames.length = b.frames.length + (framesOf o.tag).length := by
        rw [enter_frames_length, addAll_frames_length]
      have hPos := framesOf_length_pos o.tag
      have hInside := ih (b := entered) (enter_alt hBefore o.not_image) fun _ hNil => by
        rw [hNil, List.length_nil] at hEntered
        omega
      have hEvents : (enclose (o :: context) (followed c s)).events.foldl step b =
          ((enclose context (followed c s)).events.foldl step entered).leave o.tag := by
        rw [enclose, Passage.events_append, List.foldl_append, foldl_step_plain o.plain h,
          foldl_step_pair, step_of_no_alt hBefore]
        exact step_of_no_alt hInside.alt (.leave o.tag)
      obtain ⟨n, hEnds, hSum⟩ := hInside.ends
      obtain ⟨m, hLeave, hLeaveSum⟩ := ends_leave o.not_image hEnds
      have hLength := leave_frames_length
        ((enclose context (followed c s)).events.foldl step entered) o.tag
      have hFrames := hInside.frames
      have hDepth : depth (o :: context) = (framesOf o.tag).length + depth context := rfl
      rw [hEvents]
      exact ⟨leave_alt hInside.alt o.tag, by omega, m, hLeave, by omega⟩

end Builder

/-! ## Finished trees -/

theorem ofEvents_plain {c : Passage} (hPlain : c.isPlain = true) :
    ofEvents c.events = root c.trees := by
  rw [ofEvents, Builder.foldl_step_plain hPlain rfl, Builder.addAll_start_root,
    List.reverse_reverse]
  rfl

/-- A finished tree shows that a text behind the passage ended up too high. -/
theorem ofEvents_enclose_ne {c : Passage} (hPlain : c.isPlain = false) (o : Opening)
    (context : List Opening) (s : String) :
    ofEvents (enclose (o :: context) (followed c s)).events ≠
      root (enclose (o :: context) (followed c s)).trees := by
  intro hEq
  have hSlips := Builder.slips_enclose hPlain s (o :: context) (b := .start) rfl
    fun hNil => by cases hNil
  obtain ⟨n, hEnds, hSum⟩ := hSlips.ends
  have hClosed : ((enclose (o :: context) (followed c s)).events.foldl Builder.step
      .start).frames = [] := List.eq_nil_of_length_eq_zero (Nat.le_zero.1 hSlips.frames)
  rw [Builder.Ends, Builder.latest, hClosed] at hEnds
  have hReach := congrArg reach hEq
  rw [ofEvents, reach, reach, reachAll_reverse hEnds, reachAll_trees_enclose] at hReach
  rw [hClosed] at hSum
  simp only [List.length_nil, Builder.start] at hSum
  omega

/-- **Nesting is preserved exactly by the plain passages.**  Well-nested events are those of
passages.  A passage in which no image is described by means of another image becomes the trees
that it stands for.  For such a passage, and for no other, the open elements are at every moment
those of the enclosing constructs.  Wherever an element is open and nothing is being described,
such a passage adds its trees to that element and does nothing else, and no other passage does so;
and whatever constructs enclose a passage and a text behind it, the tree is right for such a
passage and wrong for every other one. -/
theorem nesting_iff_plain (c : Passage) :
    (∀ es, closes [] es = true ↔ ∃ d : Passage, es = d.events) ∧
      (c.isPlain = true → ofEvents c.events = root c.trees) ∧
      ((∀ pre, pre <+: c.events →
        (pre.foldl Builder.step .start).InStep (pre.foldl shift [])) ↔ c.isPlain = true) ∧
      (∀ b : Builder, b.alt = none → b.frames ≠ [] →
        (c.events.foldl Builder.step b = b.addAll c.pieces ↔ c.isPlain = true)) ∧
      ∀ (o : Opening) (context : List Opening) (s : String),
        let d := enclose (o :: context) (followed c s)
        ofEvents d.events = root d.trees ↔ c.isPlain = true := by
  refine ⟨closes_iff_passage, ofEvents_plain, ?_, ?_, ?_⟩
  · rw [← Builder.along_iff_prefix]
    exact Builder.along_iff_plain c
  · intro b h hOpen
    exact Builder.foldl_step_iff_plain c h hOpen
  · intro o context s d
    constructor
    · intro hEq
      by_cases hPlain : c.isPlain = true
      · exact hPlain
      · exact absurd hEq (ofEvents_enclose_ne (by simpa using hPlain) o context s)
    · intro hPlain
      refine ofEvents_plain ?_
      rw [isPlain_enclose, isPlain_followed]
      exact hPlain

/-- An image described as "a b c", where "b" is the description of another image. -/
def nestedImage : Passage :=
  .pair (.image "y" "") (.leaf (.text "a ") (.pair (.image "x" "") (.leaf (.text "b") .nil)
    (.leaf (.text " c") .nil))) .nil

/-- A paragraph with nothing before it. -/
def inParagraph : Opening := ⟨.nil, .paragraph, rfl, rfl⟩

/-- In a paragraph with that image the inner image ends the description, and the text behind the
outer one ends up outside of the paragraph. -/
theorem nesting_iff_plain_nestedImage :
    ofEvents (enclose [inParagraph] (followed nestedImage " d")).events =
        root [named "p" [] [named "img" [("src", .string "y"), ("alt", .string "a b")] [],
          .text " c"], .text " d"] ∧
      (enclose [inParagraph] (followed nestedImage " d")).trees =
        [named "p" [] [named "img" [("src", .string "y"), ("alt", .string "a b c")] [],
          .text " d"]] ∧
      ofEvents (enclose [inParagraph] (followed nestedImage " d")).events ≠
        root (enclose [inParagraph] (followed nestedImage " d")).trees := by
  refine ⟨rfl, rfl, ?_⟩
  intro hEq
  have hPlain := ((nesting_iff_plain nestedImage).2.2.2.2 inParagraph [] " d").1 hEq
  cases hPlain

end PaneEngine.Tree
