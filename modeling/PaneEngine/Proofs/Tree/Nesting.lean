import PaneEngine.Proofs.Tree.Passage

/-!
# Nesting

The builder keeps a stack of open elements and, while an image is described, the
words of the description.  Outside of descriptions a passage only adds its trees
to the innermost element.  Inside a description it only adds its words, unless
it holds an image: leaving that image ends the description of the outer one and
closes the outer one, and whatever the passage leaves after that closes an
element that it did not open.

## Main definitions

* `Builder.addAll` — adds trees one after the other.

## Main results

* `foldl_joinChild` — joining texts from the front or as they come is the same;
* `foldl_step_plain` — a plain passage adds its trees and changes nothing else;
* `frames_lt_of_not_plain` — any other passage closes an element that it did not open;
* `foldl_step_iff_plain` — so in an open element the plain passages are the ones that nest.
-/

namespace PaneEngine.Tree

open Markup (Tag)

/-! ## Joining texts -/

theorem joinFront_cons (a x : Tree) (ts : List Tree) :
    joinFront a (x :: ts) = joinFront a [x] ++ ts := by
  cases a <;> cases x <;> rfl

theorem joinChild_cons (t y : Tree) (ts : List Tree) :
    Builder.joinChild t (y :: ts) = Builder.joinChild t [y] ++ ts := by
  cases t <;> cases y <;> rfl

/-- Joining at the front and joining at the back do not disturb each other: with a single tree
between the two it is associativity, and otherwise they join different trees. -/
theorem joinFront_joinChild (a t : Tree) (ts : List Tree) :
    joinFront a (Builder.joinChild t ts.reverse).reverse =
      (Builder.joinChild t (joinFront a ts).reverse).reverse := by
  cases ts with
  | nil => cases a <;> cases t <;> rfl
  | cons x rest =>
      rcases List.eq_nil_or_concat rest with rfl | ⟨mid, y, rfl⟩
      · cases a <;> cases x <;> cases t <;>
          simp [joinFront, Builder.joinChild, String.append_assoc]
      · have hBack : ∀ us : List Tree, Builder.joinChild t (us ++ (mid ++ [y])).reverse =
            Builder.joinChild t [y] ++ (us ++ mid).reverse := by
          intro us
          rw [← List.append_assoc, List.reverse_append, List.reverse_singleton,
            List.singleton_append, joinChild_cons]
        rw [List.concat_eq_append, joinFront_cons, hBack, ← List.singleton_append, hBack]
        simp only [List.reverse_append, List.reverse_reverse, List.append_assoc,
          List.singleton_append]
        exact joinFront_cons a x _

theorem joined_concat (ts : List Tree) (t : Tree) :
    joined (ts ++ [t]) = (Builder.joinChild t (joined ts).reverse).reverse := by
  induction ts with
  | nil => cases t <;> rfl
  | cons a ts ih =>
      show joinFront a (joined (ts ++ [t])) = _
      rw [ih, joinFront_joinChild]
      rfl

theorem foldl_joinChild_joined (us ts : List Tree) :
    ts.foldl (fun before t => Builder.joinChild t before) (joined us).reverse =
      (joined (us ++ ts)).reverse := by
  induction ts generalizing us with
  | nil => rw [List.append_nil]; rfl
  | cons t ts ih =>
      have hJoin : Builder.joinChild t (joined us).reverse = (joined (us ++ [t])).reverse := by
        rw [joined_concat, List.reverse_reverse]
      rw [List.foldl_cons, hJoin, ih, List.append_assoc, List.singleton_append]

/-- Trees that are added one by one to an element without children end up joined. -/
theorem foldl_joinChild (ts : List Tree) :
    ts.foldl (fun before t => Builder.joinChild t before) [] = (joined ts).reverse :=
  foldl_joinChild_joined [] ts

namespace Builder

/-! ## Adding trees -/

/-- Adds trees one after the other. -/
def addAll (b : Builder) (ts : List Tree) : Builder := ts.foldl (fun b t => b.add t) b

theorem addAll_append (b : Builder) (ts us : List Tree) :
    b.addAll (ts ++ us) = (b.addAll ts).addAll us := List.foldl_append

@[simp] theorem add_alt (b : Builder) (t : Tree) : (b.add t).alt = b.alt := by
  unfold add
  split <;> rfl

@[simp] theorem add_frames_length (b : Builder) (t : Tree) :
    (b.add t).frames.length = b.frames.length := by
  unfold add
  split
  · rfl
  · next f rest hFrames => simp [hFrames]

@[simp] theorem addAll_alt (b : Builder) (ts : List Tree) : (b.addAll ts).alt = b.alt := by
  induction ts generalizing b with
  | nil => rfl
  | cons t ts ih => exact (ih (b.add t)).trans (add_alt b t)

@[simp] theorem addAll_frames_length (b : Builder) (ts : List Tree) :
    (b.addAll ts).frames.length = b.frames.length := by
  induction ts generalizing b with
  | nil => rfl
  | cons t ts ih => exact (ih (b.add t)).trans (add_frames_length b t)

theorem addAll_push (b : Builder) (f : Frame) (ts : List Tree) :
    (b.push f).addAll ts =
      b.push { f with children := ts.foldl (fun before t => joinChild t before) f.children } := by
  induction ts generalizing f with
  | nil => rfl
  | cons t ts ih => exact ih { f with children := joinChild t f.children }

/-- Closing an element puts it with all that was added to it into the one around it. -/
theorem pop_addAll_push (b : Builder) (tag : String) (properties : List (String × Json))
    (ts : List Tree) :
    ((b.push (.start tag properties)).addAll ts).pop =
      b.add (named tag properties (joined ts)) := by
  rw [addAll_push]
  show b.add (Frame.finish _) = _
  simp only [Frame.start, Frame.finish, foldl_joinChild, List.reverse_reverse, named]

theorem addAll_start_root (ts : List Tree) : (start.addAll ts).root = (joined ts).reverse := by
  have hRoot : ∀ (before : List Tree), (addAll ⟨before, [], none⟩ ts).root =
      ts.foldl (fun before t => joinChild t before) before := by
    induction ts with
    | nil => intro before; rfl
    | cons t ts ih => intro before; exact ih (joinChild t before)
  exact (hRoot []).trans (foldl_joinChild ts)

/-! ## Plain passages -/

theorem enter_alt {b : Builder} (h : b.alt = none) {tag : Tag} (hTag : isImage tag = false) :
    (b.enter tag).alt = none := by
  cases tag with
  | image destination title => cases hTag
  | _ => exact h

/-- Leaving a construct that was entered outside of descriptions adds its element. -/
theorem leave_addAll_enter {tag : Tag} (h : isImage tag = false) (b : Builder) (words : String)
    (ts : List Tree) :
    ((b.enter tag).addAll ts).leave tag = b.add (construct tag words (joined ts)) := by
  cases tag with
  | image destination title => cases h
  | codeBlock info =>
      have hInner : (((b.push (.start "pre" [])).push
          (.start "code" (codeProperties info))).addAll ts).pop =
            (b.push (.start "pre" [])).addAll [named "code" (codeProperties info) (joined ts)] :=
        pop_addAll_push _ _ _ ts
      have hOuter := pop_addAll_push b "pre" [] [named "code" (codeProperties info) (joined ts)]
      rw [← hInner] at hOuter
      cases info with
      | none => exact hOuter
      | some info => exact hOuter
  | paragraph => exact pop_addAll_push b _ _ ts
  | heading level => exact pop_addAll_push b _ _ ts
  | quote => exact pop_addAll_push b _ _ ts
  | list ordered => exact pop_addAll_push b _ _ ts
  | item => exact pop_addAll_push b _ _ ts
  | emphasis => exact pop_addAll_push b _ _ ts
  | strong => exact pop_addAll_push b _ _ ts
  | strikethrough => exact pop_addAll_push b _ _ ts
  | link destination title => exact pop_addAll_push b _ _ ts
  | other => exact pop_addAll_push b _ _ ts

/-- Leaving an image whose description is complete adds its element. -/
theorem leave_enter_image {b : Builder} (h : b.alt = none) (destination title words : String)
    (ts : List Tree) :
    leave (.image destination title)
        { b.enter (.image destination title) with alt := some words } =
      b.add (construct (.image destination title) words ts) := by
  obtain ⟨root, frames, alt⟩ := b
  have hNone : alt = none := h
  subst hNone
  simp only [leave, closeAlt, enter, framesOf, List.foldl_cons, List.foldl_nil, push, construct]
  by_cases hEmpty : words.isEmpty = true
  · rw [if_pos hEmpty, if_pos hEmpty]
    rfl
  · rw [if_neg hEmpty, if_neg hEmpty]
    rfl

theorem step_of_no_alt {b : Builder} (h : b.alt = none) (e : Markup.Event) :
    b.step e = b.stepContent e := by
  simp only [step, h]

theorem step_leaf {b : Builder} (h : b.alt = none) (l : Leaf) :
    b.step l.event = b.addAll l.tree?.toList := by
  rw [step_of_no_alt h]
  cases l <;> rfl

/-- Inside a description nothing but words counts. -/
theorem step_leaf_described {b : Builder} {alt : String} (h : b.alt = some alt) (l : Leaf) :
    b.step l.event = { b with alt := some (alt ++ l.words) } := by
  obtain ⟨root, frames, _⟩ := b
  cases h
  cases l <;> simp [step, Leaf.event, Leaf.words]

theorem step_enter_described {b : Builder} {alt : String} (h : b.alt = some alt) (tag : Tag) :
    b.step (.enter tag) = b := by
  simp only [step, h]

theorem step_leave_described {b : Builder} {alt : String} (h : b.alt = some alt) {tag : Tag}
    (hTag : isImage tag = false) : b.step (.leave tag) = b := by
  cases tag with
  | image destination title => cases hTag
  | _ => simp only [step, h]

theorem step_leave_image (b : Builder) (destination title : String) :
    b.step (.leave (.image destination title)) = b.leave (.image destination title) := by
  unfold step
  split <;> rfl

theorem foldl_step_pair (tag : Tag) (inside behind : Passage) (b : Builder) :
    (Passage.pair tag inside behind).events.foldl step b =
      behind.events.foldl step
        ((inside.events.foldl step (b.step (.enter tag))).step (.leave tag)) := by
  rw [Passage.events, List.foldl_cons, List.foldl_append, List.foldl_cons]

/-- A passage without images inside a description adds its words to it. -/
theorem foldl_step_described {c : Passage} (hNone : c.hasImage = false) {b : Builder}
    {alt : String} (h : b.alt = some alt) :
    c.events.foldl step b = { b with alt := some (alt ++ c.words) } := by
  induction c generalizing b alt with
  | nil =>
      obtain ⟨root, frames, _⟩ := b
      cases h
      simp [Passage.events, Passage.words]
  | leaf l behind ihBehind =>
      rw [Passage.events, List.foldl_cons, step_leaf_described h, ihBehind hNone rfl,
        Passage.words, String.append_assoc]
  | pair tag inside behind ihInside ihBehind =>
      simp only [Passage.hasImage, Bool.or_eq_false_iff] at hNone
      obtain ⟨⟨hTag, hInside⟩, hBehind⟩ := hNone
      rw [foldl_step_pair, step_enter_described h, ihInside hInside h,
        step_leave_described rfl hTag, ihBehind hBehind rfl, Passage.words, String.append_assoc]

/-- **A plain passage adds its trees and changes nothing else.** -/
theorem foldl_step_plain {c : Passage} (hPlain : c.isPlain = true) {b : Builder}
    (h : b.alt = none) : c.events.foldl step b = b.addAll c.pieces := by
  induction c generalizing b with
  | nil => rfl
  | leaf l behind ihBehind =>
      have hAlt : (b.addAll l.tree?.toList).alt = none := by rw [addAll_alt, h]
      rw [Passage.events, List.foldl_cons, step_leaf h, ihBehind hPlain hAlt, Passage.pieces,
        addAll_append]
  | pair tag inside behind ihInside ihBehind =>
      simp only [Passage.isPlain, Bool.and_eq_true] at hPlain
      obtain ⟨hInside, hBehind⟩ := hPlain
      let tree := construct tag inside.words (joined inside.pieces)
      have hPair : (inside.events.foldl step (b.step (.enter tag))).step (.leave tag) =
          b.add tree := by
        rw [step_of_no_alt h]
        by_cases hTag : isImage tag = true
        · rw [if_pos hTag] at hInside
          cases tag with
          | image destination title =>
              have hDescribed := foldl_step_described (by simpa using hInside)
                (b := b.enter (.image destination title)) rfl
              rw [stepContent, hDescribed, step_leave_image]
              rw [String.empty_append]
              exact leave_enter_image h destination title inside.words (joined inside.pieces)
          | _ => cases hTag
        · have hTag : isImage tag = false := by simpa using hTag
          have hAlt := enter_alt h hTag
          rw [if_neg (by simp [hTag])] at hInside
          rw [stepContent, ihInside hInside hAlt, step_of_no_alt (by rw [addAll_alt, hAlt])]
          exact leave_addAll_enter hTag b inside.words inside.pieces
      have hAlt : (b.add tree).alt = none := by rw [add_alt, h]
      rw [foldl_step_pair, hPair, ihBehind hBehind hAlt]
      rfl

/-! ## Images inside descriptions -/

@[simp] theorem pop_alt (b : Builder) : b.pop.alt = b.alt := by
  unfold pop
  split
  · rfl
  · rw [add_alt]

@[simp] theorem pop_frames_length (b : Builder) :
    b.pop.frames.length = b.frames.length - 1 := by
  unfold pop
  split
  · next hFrames => simp [hFrames]
  · next f rest hFrames =>
      rw [add_frames_length, hFrames]
      rfl

@[simp] theorem closeAlt_alt (b : Builder) : b.closeAlt.alt = none := by
  unfold closeAlt
  split <;> rfl

@[simp] theorem closeAlt_frames_length (b : Builder) :
    b.closeAlt.frames.length = b.frames.length := by
  unfold closeAlt
  split
  · next hFrames => simp [hFrames]
  · rfl

theorem enter_frames_length (b : Builder) (tag : Tag) :
    (b.enter tag).frames.length = b.frames.length + (framesOf tag).length := by
  cases tag <;> rfl

theorem leave_frames_length (b : Builder) (tag : Tag) :
    (b.leave tag).frames.length = b.frames.length - (framesOf tag).length := by
  cases tag with
  | codeBlock info =>
      show b.pop.pop.frames.length = b.frames.length - 2
      rw [pop_frames_length, pop_frames_length]
      omega
  | image destination title =>
      show b.closeAlt.pop.frames.length = b.frames.length - 1
      rw [pop_frames_length, closeAlt_frames_length]
  | _ => exact pop_frames_length b

theorem leave_alt {b : Builder} (h : b.alt = none) (tag : Tag) : (b.leave tag).alt = none := by
  cases tag with
  | codeBlock info => exact (pop_alt _).trans ((pop_alt b).trans h)
  | image destination title => exact (pop_alt _).trans (closeAlt_alt b)
  | _ => exact (pop_alt b).trans h

/-- Outside of descriptions, with no element open that was not open before and `n` less. -/
structure Settled (b b' : Builder) (n : Nat) : Prop where
  alt : b'.alt = none
  frames : b'.frames.length ≤ b.frames.length - n

theorem Settled.trans {b b' b'' : Builder} {m n : Nat} (h : Settled b b' m)
    (h' : Settled b' b'' n) : Settled b b'' (m + n) := by
  have hFirst := h.frames
  have hSecond := h'.frames
  exact ⟨h'.alt, by omega⟩

theorem Settled.mono {b b' : Builder} {m n : Nat} (h : Settled b b' m) (hLe : n ≤ m) :
    Settled b b' n := by
  have hFrames := h.frames
  exact ⟨h.alt, by omega⟩

theorem settled_leave {b : Builder} (h : b.alt = none) (tag : Tag) :
    Settled b (b.step (.leave tag)) (framesOf tag).length := by
  rw [step_of_no_alt h]
  exact ⟨leave_alt h tag, Nat.le_of_eq (leave_frames_length b tag)⟩

theorem settled_leave_image (b : Builder) (destination title : String) :
    Settled b (b.step (.leave (.image destination title))) 1 := by
  rw [step_leave_image]
  refine ⟨?_, Nat.le_of_eq (leave_frames_length b _)⟩
  exact (pop_alt _).trans (closeAlt_alt b)

/-- What a passage does outside of descriptions. -/
def Settles (c : Passage) : Prop :=
  ∀ b : Builder, b.alt = none → Settled b (c.events.foldl step b) (!c.isPlain).toNat

/-- What a passage with an image does inside the description of another. -/
def Spills (c : Passage) : Prop :=
  c.hasImage = true → ∀ (b : Builder) (alt : String), b.alt = some alt →
    Settled b (c.events.foldl step b) 1

/-- An image that holds an image closes the element around it. -/
theorem settled_image {inside : Passage} (hSpills : Spills inside) (b : Builder)
    (destination title : String) :
    Settled b ((inside.events.foldl step (b.enter (.image destination title))).step
      (.leave (.image destination title))) inside.hasImage.toNat := by
  have hEnter := enter_frames_length b (.image destination title)
  by_cases hImage : inside.hasImage = true
  · have hInside := hSpills hImage (b.enter (.image destination title)) "" rfl
    have hTwice := hInside.trans (settled_leave_image _ destination title)
    have hFrames := hTwice.frames
    rw [hEnter] at hFrames
    rw [hImage]
    exact ⟨hTwice.alt, hFrames⟩
  · have hNone : inside.hasImage = false := by simpa using hImage
    rw [foldl_step_described hNone (b := b.enter (.image destination title)) rfl, hNone]
    have hLeave := settled_leave_image
      { b.enter (.image destination title) with alt := some ("" ++ inside.words) }
      destination title
    have hFrames := hLeave.frames
    exact ⟨hLeave.alt, by rw [hEnter] at hFrames; exact hFrames⟩

theorem settled_pair {inside : Passage} (hSettles : Settles inside) (hSpills : Spills inside)
    {b : Builder} (h : b.alt = none) (tag : Tag) :
    Settled b ((inside.events.foldl step (b.step (.enter tag))).step (.leave tag))
      (!(if isImage tag then !inside.hasImage else inside.isPlain)).toNat := by
  rw [step_of_no_alt h, stepContent]
  by_cases hTag : isImage tag = true
  · cases tag with
    | image destination title =>
        rw [if_pos hTag, Bool.not_not]
        exact settled_image hSpills b destination title
    | _ => cases hTag
  · have hTag : isImage tag = false := by simpa using hTag
    have hInside := hSettles (b.enter tag) (enter_alt h hTag)
    have hAll := hInside.trans (settled_leave hInside.alt tag)
    have hFrames := hAll.frames
    have hEnter := enter_frames_length b tag
    rw [if_neg (by simp [hTag])]
    exact ⟨hAll.alt, by omega⟩

/-- A construct in a description that is or holds an image ends the description. -/
theorem settled_pair_described {inside : Passage} (hSpills : Spills inside) {b : Builder}
    {alt : String} (h : b.alt = some alt) {tag : Tag}
    (hImage : (isImage tag || inside.hasImage) = true) :
    Settled b ((inside.events.foldl step (b.step (.enter tag))).step (.leave tag)) 1 := by
  rw [step_enter_described h]
  by_cases hInside : inside.hasImage = true
  · have hSettled := hSpills hInside b alt h
    exact (hSettled.trans (settled_leave hSettled.alt tag)).mono (Nat.le_add_right _ _)
  · have hNone : inside.hasImage = false := by simpa using hInside
    cases tag with
    | image destination title =>
        rw [foldl_step_described hNone h]
        have hLeave := settled_leave_image { b with alt := some (alt ++ inside.words) }
          destination title
        exact ⟨hLeave.alt, hLeave.frames⟩
    | _ => simp [hNone, isImage] at hImage

/-- A passage that is not plain leaves an image twice, once for itself and once for the image
that it describes. -/
theorem settles_and_spills (c : Passage) : Settles c ∧ Spills c := by
  induction c with
  | nil =>
      constructor
      · intro b h
        exact ⟨h, Nat.le_refl _⟩
      · intro hImage
        cases hImage
  | leaf l behind ihBehind =>
      obtain ⟨hSettles, hSpills⟩ := ihBehind
      constructor
      · intro b h
        have hAlt : (b.addAll l.tree?.toList).alt = none := by rw [addAll_alt, h]
        have hNext := hSettles _ hAlt
        have hFrames := hNext.frames
        rw [addAll_frames_length] at hFrames
        rw [Passage.events, List.foldl_cons, step_leaf h]
        exact ⟨hNext.alt, hFrames⟩
      · intro hImage b alt h
        have hNext := hSpills hImage { b with alt := some (alt ++ l.words) } _ rfl
        rw [Passage.events, List.foldl_cons, step_leaf_described h]
        exact ⟨hNext.alt, hNext.frames⟩
  | pair tag inside behind ihInside ihBehind =>
      obtain ⟨hSettles, hSpills⟩ := ihInside
      obtain ⟨hSettlesBehind, hSpillsBehind⟩ := ihBehind
      constructor
      · intro b h
        rw [foldl_step_pair]
        have hPair := settled_pair hSettles hSpills h tag
        refine (hPair.trans (hSettlesBehind _ hPair.alt)).mono ?_
        rw [Passage.isPlain, Bool.not_and]
        generalize (!(if isImage tag then !inside.hasImage else inside.isPlain)) = x
        generalize (!behind.isPlain) = y
        cases x <;> cases y <;> decide
      · intro hImage b alt h
        rw [foldl_step_pair]
        by_cases hPairImage : (isImage tag || inside.hasImage) = true
        · have hPair := settled_pair_described hSpills h hPairImage
          exact (hPair.trans (hSettlesBehind _ hPair.alt)).mono (Nat.le_add_right _ _)
        · have hNone : (isImage tag || inside.hasImage) = false := by simpa using hPairImage
          obtain ⟨hTag, hInside⟩ := Bool.or_eq_false_iff.1 hNone
          have hBehind : behind.hasImage = true := by
            rw [Passage.hasImage, hNone, Bool.false_or] at hImage
            exact hImage
          have hNext := hSpillsBehind hBehind { b with alt := some (alt ++ inside.words) } _ rfl
          rw [step_enter_described h, foldl_step_described hInside h,
            step_leave_described rfl hTag]
          exact ⟨hNext.alt, hNext.frames⟩

/-- A passage that is not plain closes an element that it did not open. -/
theorem frames_lt_of_not_plain {c : Passage} (hPlain : c.isPlain = false) {b : Builder}
    (h : b.alt = none) (hOpen : b.frames ≠ []) :
    (c.events.foldl step b).frames.length < b.frames.length := by
  have hFrames := ((settles_and_spills c).1 b h).frames
  have hPos := List.length_pos_iff.2 hOpen
  rw [hPlain] at hFrames
  simp only [Bool.not_false, Bool.toNat_true] at hFrames
  omega

/-- **In an open element exactly the plain passages add their trees and nothing else.** -/
theorem foldl_step_iff_plain (c : Passage) {b : Builder} (h : b.alt = none)
    (hOpen : b.frames ≠ []) :
    c.events.foldl step b = b.addAll c.pieces ↔ c.isPlain = true := by
  constructor
  · intro hEq
    by_cases hPlain : c.isPlain = true
    · exact hPlain
    · have hLt := frames_lt_of_not_plain (by simpa using hPlain) h hOpen
      rw [hEq, addAll_frames_length] at hLt
      exact absurd hLt (Nat.lt_irrefl _)
  · intro hPlain
    exact foldl_step_plain hPlain h

end Builder

end PaneEngine.Tree
