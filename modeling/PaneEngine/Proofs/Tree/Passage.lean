import PaneEngine.Tree.Build

/-!
# Well-nested event sequences

A document enters and leaves constructs like brackets.  A `Passage` is a
well-nested stretch of events: it is empty, or it begins with an event that
stands by itself, or with a construct that is entered and left again around a
passage of its own.  What a passage should become is said here by recursion over
this nesting, without frames or modes.

## Main definitions

* `Passage`, `Passage.events` — well-nested passages and their events;
* `Passage.trees` — the trees that a passage stands for;
* `Passage.isPlain` — no image is described by means of another image;
* `closes` — whether events leave what they enter, innermost first.

## Main results

* `closes_iff_passage` — the events that leave what they enter are those of passages.
-/

namespace PaneEngine.Tree

open Markup (Tag)

/-! ## Passages -/

/-- An event that neither enters nor leaves a construct. -/
inductive Leaf where
  | text (content : String)
  | code (content : String)
  | softBreak
  | hardBreak
  | rule
  | html
  | other
deriving DecidableEq

namespace Leaf

/-- The event itself. -/
def event : Leaf → Markup.Event
  | text s => .text s
  | code s => .code s
  | softBreak => .softBreak
  | hardBreak => .hardBreak
  | rule => .rule
  | html => .html
  | other => .other

/-- What it contributes to the description of an image. -/
def words : Leaf → String
  | text s => s
  | code s => s
  | _ => ""

/-- What it contributes outside of descriptions. -/
def tree? : Leaf → Option Tree
  | text s => some (.text s)
  | code s => some (.element (some "code") .empty [.text s])
  | softBreak => some (.text "\n")
  | hardBreak => some (.element (some "br") .empty [])
  | rule => some (.element (some "hr") .empty [])
  | html => none
  | other => none

end Leaf

/-- A well-nested stretch of events. -/
inductive Passage where
  | nil
  /-- An event by itself, and what stands behind it. -/
  | leaf (l : Leaf) (behind : Passage)
  /-- A construct with what it holds, and what stands behind it. -/
  | pair (tag : Tag) (inside behind : Passage)
deriving DecidableEq

/-- Whether a construct is an image. -/
def isImage : Tag → Bool
  | .image .. => true
  | _ => false

namespace Passage

/-- The events of a passage. -/
def events : Passage → List Markup.Event
  | nil => []
  | leaf l behind => l.event :: behind.events
  | pair tag inside behind => .enter tag :: (inside.events ++ .leave tag :: behind.events)

/-- One passage after the other. -/
def append : Passage → Passage → Passage
  | nil, d => d
  | leaf l behind, d => leaf l (behind.append d)
  | pair tag inside behind, d => pair tag inside (behind.append d)

/-- All text and code in a passage, however deep. -/
def words : Passage → String
  | nil => ""
  | leaf l behind => l.words ++ behind.words
  | pair _ inside behind => inside.words ++ behind.words

/-- Whether there is an image, however deep. -/
def hasImage : Passage → Bool
  | nil => false
  | leaf _ behind => behind.hasImage
  | pair tag inside behind => isImage tag || inside.hasImage || behind.hasImage

/-- Whether no image lies inside the description of another one. -/
def isPlain : Passage → Bool
  | nil => true
  | leaf _ behind => behind.isPlain
  | pair tag inside behind =>
    (if isImage tag then !inside.hasImage else inside.isPlain) && behind.isPlain

end Passage

/-! ## What a passage stands for -/

/-- Puts a tree before others, joining it to a text behind it if it is a text. -/
def joinFront : Tree → List Tree → List Tree
  | text s, text t :: rest => text (s ++ t) :: rest
  | t, rest => t :: rest

/-- Trees with neighbouring texts joined. -/
def joined (ts : List Tree) : List Tree := ts.foldr joinFront []

/-- An element by its tag and properties. -/
def named (tag : String) (properties : List (String × Json)) (children : List Tree) : Tree :=
  element (some tag) (.ofList properties) children

/-- The properties of code in a block with that info text. -/
def codeProperties : Option String → List (String × Json)
  | none => []
  | some info => if info.isEmpty then [] else [("className", .strings ["language-" ++ info])]

/-- The element of a construct that holds these words and these trees. -/
def construct (tag : Tag) (words : String) (children : List Tree) : Tree :=
  match tag with
  | .paragraph => named "p" [] children
  | .heading level => named ("h" ++ toString level) [] children
  | .quote => named "blockquote" [] children
  | .codeBlock info => named "pre" [] [named "code" (codeProperties info) children]
  | .list ordered => named (if ordered then "ol" else "ul") [] children
  | .item => named "li" [] children
  | .emphasis => named "em" [] children
  | .strong => named "strong" [] children
  | .strikethrough => named "del" [] children
  | .link destination title =>
    named "a" (("href", .string destination) ::
      if title.isEmpty then [] else [("title", .string title)]) children
  | .image destination _ =>
    named "img" (("src", .string destination) ::
      if words.isEmpty then [] else [("alt", .string words)]) []
  | .other => named "div" [] children

namespace Passage

/-- The trees of a passage, its texts not yet joined. -/
def pieces : Passage → List Tree
  | nil => []
  | leaf l behind => l.tree?.toList ++ behind.pieces
  | pair tag inside behind =>
    construct tag inside.words (joined inside.pieces) :: behind.pieces

/-- The trees that a passage stands for. -/
def trees (c : Passage) : List Tree := joined c.pieces

end Passage

/-! ## Passages and event sequences -/

/-- Whether events leave what is pending and what they enter, innermost first. -/
def closes : List Tag → List Markup.Event → Bool
  | [], [] => true
  | _ :: _, [] => false
  | pending, .enter tag :: es => closes (tag :: pending) es
  | [], .leave _ :: _ => false
  | tag :: pending, .leave tag' :: es => tag = tag' && closes pending es
  | pending, .text _ :: es => closes pending es
  | pending, .code _ :: es => closes pending es
  | pending, .softBreak :: es => closes pending es
  | pending, .hardBreak :: es => closes pending es
  | pending, .rule :: es => closes pending es
  | pending, .html :: es => closes pending es
  | pending, .other :: es => closes pending es

/-- Events that are a passage, leave the first pending construct, and so on to the last. -/
def Splits : List Tag → List Markup.Event → Prop
  | [], es => ∃ c : Passage, es = c.events
  | tag :: pending, es =>
    ∃ (c : Passage) (rest : List Markup.Event),
      es = c.events ++ .leave tag :: rest ∧ Splits pending rest

theorem closes_leaf (pending : List Tag) (l : Leaf) (es : List Markup.Event) :
    closes pending (l.event :: es) = closes pending es := by
  cases l <;> cases pending <;> rfl

/-- An event that enters or leaves nothing lengthens the passage behind it. -/
theorem splits_leaf {pending : List Tag} {es : List Markup.Event} (h : Splits pending es)
    (l : Leaf) : Splits pending (l.event :: es) := by
  cases pending with
  | nil =>
      obtain ⟨c, hEvents⟩ := h
      exact ⟨.leaf l c, by rw [hEvents, Passage.events]⟩
  | cons tag pending =>
      obtain ⟨c, rest, hEvents, hRest⟩ := h
      exact ⟨.leaf l c, rest, by rw [hEvents, Passage.events, List.cons_append], hRest⟩

/-- A construct that is left goes before the passage behind it. -/
theorem splits_enter {pending : List Tag} {tag : Tag} {es : List Markup.Event}
    (h : Splits (tag :: pending) es) : Splits pending (.enter tag :: es) := by
  obtain ⟨inside, rest, hEvents, hRest⟩ := h
  cases pending with
  | nil =>
      obtain ⟨c, hBehind⟩ := hRest
      exact ⟨.pair tag inside c, by rw [hEvents, hBehind, Passage.events]⟩
  | cons tag' pending =>
      obtain ⟨c, rest', hBehind, hRest'⟩ := hRest
      refine ⟨.pair tag inside c, rest', ?_, hRest'⟩
      rw [hEvents, hBehind, Passage.events]
      simp only [List.cons_append, List.append_assoc]

theorem splits_of_closes {pending : List Tag} {es : List Markup.Event}
    (h : closes pending es = true) : Splits pending es := by
  induction es generalizing pending with
  | nil =>
      cases pending with
      | nil => exact ⟨.nil, rfl⟩
      | cons tag pending => cases h
  | cons e es ih =>
      have hLeaf : ∀ l : Leaf, e = l.event → Splits pending (e :: es) := by
        intro l hl
        subst hl
        rw [closes_leaf] at h
        exact splits_leaf (ih h) l
      cases e with
      | enter tag =>
          refine splits_enter (ih ?_)
          cases pending <;> exact h
      | leave tag =>
          cases pending with
          | nil => cases h
          | cons tag' pending =>
              simp only [closes, Bool.and_eq_true, decide_eq_true_eq] at h
              obtain ⟨rfl, hRest⟩ := h
              exact ⟨.nil, es, rfl, ih hRest⟩
      | text s => exact hLeaf (.text s) rfl
      | code s => exact hLeaf (.code s) rfl
      | softBreak => exact hLeaf .softBreak rfl
      | hardBreak => exact hLeaf .hardBreak rfl
      | rule => exact hLeaf .rule rfl
      | html => exact hLeaf .html rfl
      | other => exact hLeaf .other rfl

/-- A passage leaves pending what was pending. -/
theorem closes_events (c : Passage) (pending : List Tag) (es : List Markup.Event) :
    closes pending (c.events ++ es) = closes pending es := by
  induction c generalizing pending es with
  | nil => rfl
  | leaf l behind ihBehind => rw [Passage.events, List.cons_append, closes_leaf, ihBehind]
  | pair tag inside behind ihInside ihBehind =>
      have hEnter : ∀ es', closes pending (.enter tag :: es') = closes (tag :: pending) es' := by
        intro es'
        cases pending <;> rfl
      simp only [Passage.events, List.cons_append, List.append_assoc]
      rw [hEnter, ihInside, closes, ihBehind, decide_eq_true rfl, Bool.true_and]

/-- **Events leave what they enter exactly when they are the events of a passage.** -/
theorem closes_iff_passage (es : List Markup.Event) :
    closes [] es = true ↔ ∃ c : Passage, es = c.events := by
  constructor
  · intro h
    exact splits_of_closes h
  · rintro ⟨c, rfl⟩
    have hEnd := closes_events c [] []
    rw [List.append_nil] at hEnd
    exact hEnd

end PaneEngine.Tree
