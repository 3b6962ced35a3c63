import PaneEngine.Proofs.Tree.Nesting

/-!
# Open elements and enclosing constructs

At every moment the constructs that have been entered and not left enclose what
comes next.  The open elements should be those of the enclosing constructs, where
nothing inside an image counts, and a description should be in progress exactly
inside of images.  Over a plain passage this is so after every single event, and
over any other passage it fails after some event.

## Main definitions

* `shift` — what an event does to the enclosing constructs;
* `openElements` — the elements of enclosing constructs;
* `InStep` — the builder has the right elements open;
* `Along` — the builder is in step before and after every event.

## Main results

* `along_iff_prefix` — being in step along events means after each of their prefixes;
* `along_iff_plain` — the builder stays in step along a passage exactly if it is plain.
-/

namespace PaneEngine.Tree

open Markup (Tag)

/-! ## Enclosing constructs -/

/-- What an event does to the enclosing constructs, innermost first. -/
def shift (enclosing : List Tag) : Markup.Event → List Tag
  | .enter tag => tag :: enclosing
  | .leave _ => enclosing.tail
  | _ => enclosing

/-- The names of the elements of a construct, innermost first. -/
def elementNames : Tag → List String
  | .paragraph => ["p"]
  | .heading level => ["h" ++ toString level]
  | .quote => ["blockquote"]
  | .codeBlock _ => ["code", "pre"]
  | .list ordered => [if ordered then "ol" else "ul"]
  | .item => ["li"]
  | .emphasis => ["em"]
  | .strong => ["strong"]
  | .strikethrough => ["del"]
  | .link .. => ["a"]
  | .image .. => ["img"]
  | .other => ["div"]

/-- The names of the elements of enclosing constructs; what an image encloses has none. -/
def openElements : List Tag → List String
  | [] => []
  | tag :: enclosing =>
    if enclosing.any isImage then openElements enclosing
    else elementNames tag ++ openElements enclosing

theorem shift_leaf (l : Leaf) (enclosing : List Tag) : shift enclosing l.event = enclosing := by
  cases l <;> rfl

/-- A passage leaves the enclosing constructs as they are. -/
theorem foldl_shift_events (c : Passage) (enclosing : List Tag) :
    c.events.foldl shift enclosing = enclosing := by
  induction c generalizing enclosing with
  | nil => rfl
  | leaf l behind ihBehind => rw [Passage.events, List.foldl_cons, shift_leaf, ihBehind]
  | pair tag inside behind ihInside ihBehind =>
      rw [Passage.events, List.foldl_cons, List.foldl_append, List.foldl_cons, ihInside]
      exact ihBehind enclosing

namespace Builder

/-! ## Builders in step -/

/-- The names of the open elements, innermost first. -/
def openNames (b : Builder) : List String := b.frames.map (·.tag)

/-- The open elements are those of the enclosing constructs, and an image is being described
exactly if one of them is an image. -/
structure InStep (b : Builder) (enclosing : List Tag) : Prop where
  names : b.openNames = openElements enclosing
  alt : b.alt.isSome = enclosing.any isImage

/-- The builder is in step before and after every event. -/
def Along (b : Builder) (enclosing : List Tag) : List Markup.Event → Prop
  | [] => InStep b enclosing
  | e :: es => InStep b enclosing ∧ Along (b.step e) (shift enclosing e) es

theorem along_start {b : Builder} {enclosing : List Tag} {es : List Markup.Event}
    (h : Along b enclosing es) : InStep b enclosing := by
  cases es with
  | nil => exact h
  | cons e es => exact h.1

theorem along_append {b : Builder} {enclosing : List Tag} {es fs : List Markup.Event} :
    Along b enclosing (es ++ fs) ↔
      Along b enclosing es ∧ Along (es.foldl step b) (es.foldl shift enclosing) fs := by
  induction es generalizing b enclosing with
  | nil =>
      constructor
      · intro h
        exact ⟨along_start h, h⟩
      · intro h
        exact h.2
  | cons e es ih =>
      simp only [List.cons_append, Along, List.foldl_cons, ih, and_assoc]

theorem along_iff_prefix {b : Builder} {enclosing : List Tag} {es : List Markup.Event} :
    Along b enclosing es ↔
      ∀ pre, pre <+: es → InStep (pre.foldl step b) (pre.foldl shift enclosing) := by
  constructor
  · rintro h pre ⟨post, rfl⟩
    exact along_start (along_append.1 h).2
  · intro h
    induction es generalizing b enclosing with
    | nil => exact h [] List.nil_prefix
    | cons e es ih =>
        refine ⟨h [] List.nil_prefix, ih ?_⟩
        intro pre hPrefix
        exact h (e :: pre) (List.cons_prefix_cons.2 ⟨rfl, hPrefix⟩)

/-- Being in step along a construct is being so before it, inside it and behind it. -/
theorem along_pair {b : Builder} {enclosing : List Tag} {tag : Tag} {inside behind : Passage} :
    Along b enclosing (Passage.pair tag inside behind).events ↔
      InStep b enclosing ∧
      Along (b.step (.enter tag)) (tag :: enclosing) inside.events ∧
      Along ((inside.events.foldl step (b.step (.enter tag))).step (.leave tag)) enclosing
        behind.events := by
  rw [Passage.events, Along, along_append, Along, foldl_shift_events]
  constructor
  · rintro ⟨hStart, hInside, _, hBehind⟩
    exact ⟨hStart, hInside, hBehind⟩
  · rintro ⟨hStart, hInside, hBehind⟩
    have hEnd := (along_append.1 (by rw [List.append_nil]; exact hInside)).2
    rw [foldl_shift_events] at hEnd
    exact ⟨hStart, hInside, hEnd, hBehind⟩

/-! ## Names of open elements -/

theorem openNames_add (b : Builder) (t : Tree) : (b.add t).openNames = b.openNames := by
  obtain ⟨root, frames, alt⟩ := b
  cases frames <;> rfl

theorem openNames_addAll (b : Builder) (ts : List Tree) :
    (b.addAll ts).openNames = b.openNames := by
  induction ts generalizing b with
  | nil => rfl
  | cons t ts ih => exact (ih (b.add t)).trans (openNames_add b t)

theorem openNames_enter (b : Builder) (tag : Tag) :
    (b.enter tag).openNames = elementNames tag ++ b.openNames := by
  cases tag <;> rfl

theorem inStep_addAll {b : Builder} {enclosing : List Tag} (h : InStep b enclosing)
    (ts : List Tree) : InStep (b.addAll ts) enclosing :=
  ⟨(openNames_addAll b ts).trans h.names, (congrArg Option.isSome (addAll_alt b ts)).trans h.alt⟩

theorem alt_none_of_inStep {b : Builder} {enclosing : List Tag} (h : InStep b enclosing)
    (hOutside : enclosing.any isImage = false) : b.alt = none := by
  have hSome := h.alt.trans hOutside
  cases hAlt : b.alt with
  | none => rfl
  | some alt =>
      rw [hAlt] at hSome
      cases hSome

theorem alt_some_of_inStep {b : Builder} {enclosing : List Tag} (h : InStep b enclosing)
    (hInside : enclosing.any isImage = true) : ∃ alt, b.alt = some alt :=
  Option.isSome_iff_exists.1 (h.alt.trans hInside)

/-- Outside of images an element is opened for the construct that is entered. -/
theorem inStep_enter {b : Builder} {enclosing : List Tag} (h : InStep b enclosing)
    (hOutside : enclosing.any isImage = false) (tag : Tag) :
    InStep (b.enter tag) (tag :: enclosing) := by
  have hAlt := alt_none_of_inStep h hOutside
  constructor
  · rw [openNames_enter, h.names, openElements, if_neg (by simp [hOutside])]
  · rw [List.any_cons, hOutside, Bool.or_false]
    cases tag with
    | image destination title => rfl
    | _ => exact congrArg Option.isSome hAlt

/-- Inside of images entering a construct changes nothing. -/
theorem inStep_described {b : Builder} {enclosing : List Tag} (h : InStep b enclosing)
    (hInside : enclosing.any isImage = true) (tag : Tag) : InStep b (tag :: enclosing) := by
  constructor
  · rw [h.names, openElements, if_pos hInside]
  · rw [h.alt, List.any_cons, hInside, Bool.or_true]

theorem inStep_alt {b : Builder} {enclosing : List Tag} (h : InStep b enclosing)
    (hInside : enclosing.any isImage = true) (alt : String) :
    InStep { b with alt := some alt } enclosing :=
  ⟨h.names, hInside.symm⟩

/-! ## Inside of images -/

theorem along_described {c : Passage} (hNone : c.hasImage = false) {b : Builder}
    {enclosing : List Tag} (h : InStep b enclosing) (hInside : enclosing.any isImage = true) :
    Along b enclosing c.events := by
  induction c generalizing b enclosing with
  | nil => exact h
  | leaf l behind ihBehind =>
      obtain ⟨alt, hAlt⟩ := alt_some_of_inStep h hInside
      rw [Passage.events, Along, shift_leaf, step_leaf_described hAlt]
      exact ⟨h, ihBehind hNone (inStep_alt h hInside _) hInside⟩
  | pair tag inside behind ihInside ihBehind =>
      obtain ⟨alt, hAlt⟩ := alt_some_of_inStep h hInside
      simp only [Passage.hasImage, Bool.or_eq_false_iff] at hNone
      obtain ⟨⟨hTag, hNoneInside⟩, hNoneBehind⟩ := hNone
      have hTagged : (tag :: enclosing).any isImage = true := by
        rw [List.any_cons, hInside, Bool.or_true]
      rw [along_pair, step_enter_described hAlt, foldl_step_described hNoneInside hAlt,
        step_leave_described rfl hTag]
      exact ⟨h, ihInside hNoneInside (inStep_described h hInside tag) hTagged,
        ihBehind hNoneBehind (inStep_alt h hInside _) hInside⟩

/-- A builder that stays in step inside of an image has met no other image: leaving that one would
have closed the element of the outer one. -/
theorem not_hasImage_of_along {c : Passage} {b : Builder} {enclosing : List Tag}
    (h : Along b enclosing c.events) (hInside : enclosing.any isImage = true)
    (hOpen : b.frames ≠ []) : c.hasImage = false := by
  induction c generalizing b enclosing with
  | nil => rfl
  | leaf l behind ihBehind =>
      obtain ⟨alt, hAlt⟩ := alt_some_of_inStep (along_start h) hInside
      rw [Passage.events, Along, shift_leaf, step_leaf_described hAlt] at h
      exact ihBehind h.2 hInside hOpen
  | pair tag inside behind ihInside ihBehind =>
      obtain ⟨alt, hAlt⟩ := alt_some_of_inStep (along_start h) hInside
      have hTagged : (tag :: enclosing).any isImage = true := by
        rw [List.any_cons, hInside, Bool.or_true]
      rw [along_pair, step_enter_described hAlt] at h
      obtain ⟨hStart, hAlong, hBehind⟩ := h
      have hNoneInside := ihInside hAlong hTagged hOpen
      rw [foldl_step_described hNoneInside hAlt] at hBehind
      by_cases hTag : isImage tag = true
      · cases tag with
        | image destination title =>
            have hNames := (along_start hBehind).names
            rw [step_leave_image, ← hStart.names] at hNames
            have hLength := congrArg List.length hNames
            have hPos := List.length_pos_iff.2 hOpen
            simp only [openNames, List.length_map, leave_frames_length, framesOf,
              List.length_singleton] at hLength
            omega
        | _ => cases hTag
      · have hTag : isImage tag = false := by simpa using hTag
        rw [step_leave_described rfl hTag] at hBehind
        have hNoneBehind := ihBehind hBehind hInside hOpen
        rw [Passage.hasImage, hTag, hNoneInside, hNoneBehind]
        rfl

/-! ## Outside of images -/

/-- Behind a plain construct its element has been added. -/
theorem foldl_step_pair_plain {tag : Tag} {inside : Passage}
    (hPlain : (if isImage tag then !inside.hasImage else inside.isPlain) = true) {b : Builder}
    (h : b.alt = none) :
    (inside.events.foldl step (b.step (.enter tag))).step (.leave tag) =
      b.addAll (Passage.pair tag inside .nil).pieces := by
  have hAll : (Passage.pair tag inside .nil).isPlain = true := by
    rw [Passage.isPlain, hPlain]
    rfl
  have hRun := foldl_step_plain hAll h
  rw [foldl_step_pair] at hRun
  exact hRun

theorem along_of_plain {c : Passage} (hPlain : c.isPlain = true) {b : Builder}
    {enclosing : List Tag} (h : InStep b enclosing) (hOutside : enclosing.any isImage = false) :
    Along b enclosing c.events := by
  induction c generalizing b enclosing with
  | nil => exact h
  | leaf l behind ihBehind =>
      rw [Passage.events, Along, shift_leaf, step_leaf (alt_none_of_inStep h hOutside)]
      exact ⟨h, ihBehind hPlain (inStep_addAll h _) hOutside⟩
  | pair tag inside behind ihInside ihBehind =>
      have hAlt := alt_none_of_inStep h hOutside
      have hEnter := inStep_enter h hOutside tag
      simp only [Passage.isPlain, Bool.and_eq_true] at hPlain
      obtain ⟨hPair, hBehind⟩ := hPlain
      rw [along_pair, foldl_step_pair_plain hPair hAlt, step_of_no_alt hAlt]
      refine ⟨h, ?_, ihBehind hBehind (inStep_addAll h _) hOutside⟩
      by_cases hTag : isImage tag = true
      · rw [if_pos hTag] at hPair
        exact along_described (by simpa using hPair) hEnter (by simp [hTag])
      · rw [if_neg hTag] at hPair
        exact ihInside hPair hEnter (by simp [hTag, hOutside])

theorem isPlain_of_along {c : Passage} {b : Builder} {enclosing : List Tag}
    (h : Along b enclosing c.events) (hOutside : enclosing.any isImage = false) :
    c.isPlain = true := by
  induction c generalizing b enclosing with
  | nil => rfl
  | leaf l behind ihBehind =>
      have hAlt := alt_none_of_inStep (along_start h) hOutside
      rw [Passage.events, Along, shift_leaf] at h
      exact ihBehind h.2 hOutside
  | pair tag inside behind ihInside ihBehind =>
      have hAlt := alt_none_of_inStep (along_start h) hOutside
      rw [along_pair] at h
      obtain ⟨_, hInside, hBehind⟩ := h
      have hPair : (if isImage tag then !inside.hasImage else inside.isPlain) = true := by
        by_cases hTag : isImage tag = true
        · rw [if_pos hTag]
          have hOpen : (b.step (.enter tag)).frames ≠ [] := by
            rw [step_of_no_alt hAlt]
            cases tag <;> exact List.cons_ne_nil _ _
          rw [not_hasImage_of_along hInside (by simp [hTag]) hOpen]
          rfl
        · rw [if_neg hTag]
          exact ihInside hInside (by simp [hTag, hOutside])
      rw [Passage.isPlain, hPair, ihBehind hBehind hOutside]
      rfl

/-- **The builder stays in step along a passage exactly if the passage is plain.** -/
theorem along_iff_plain (c : Passage) : Along start [] c.events ↔ c.isPlain = true := by
  constructor
  · intro h
    exact isPlain_of_along h rfl
  · intro hPlain
    exact along_of_plain hPlain ⟨rfl, rfl⟩ rfl

end Builder

end PaneEngine.Tree
