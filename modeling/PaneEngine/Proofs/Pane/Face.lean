import PaneEngine.Proofs.Pane.Outline

/-!
# What a node sees of its children

The node of an element is made before its children are flattened.  All it sees
of them are faces: of a text what it says, of an element its tag.  Inner roots,
ignored nodes and elements without a tag have no face.  A list item and a code
element look at their children each in a way of its own, but both look at no
more than the faces.

## Main definitions

* `face?`, `faces` — the face of a node and of children;
* `hintOf` — how a list item is to be rendered, by the faces of its children.

## Main results

* `listItemHint_eq`, `firstText?_eq` — both looks at children are looks at faces;
* `elementNode_congr` — children with the same faces make the same node.
-/

namespace PaneEngine.Pane

/-- What a node sees of a child. -/
inductive Face where
  | text (value : String)
  | element (tag : String)
deriving DecidableEq

/-- The text that a face says. -/
def Face.text? : Face → Option String
  | text value => some value
  | element _ => none

/-- The face of a node. -/
def face? : Tree → Option Face
  | .text value => some (.text value)
  | t => t.tag?.map .element

/-- The faces of children in order. -/
def faces (children : List Tree) : List Face := children.filterMap face?

/-- How a list item is to be rendered whose children have these faces. -/
def hintOf : List Face → Option String
  | [] => none
  | .element tag :: _ =>
    if tag = "img" then some "img" else if tag = "code" then some "widget" else none
  | [.text value] => some (if longItem < (Text.collapse value).length then "p" else "h3")
  | .text _ :: _ :: _ => some "p"

/-! ## Faces of children -/

@[simp] theorem faces_append (xs ys : List Tree) : faces (xs ++ ys) = faces xs ++ faces ys :=
  List.filterMap_append

theorem faces_cons (t : Tree) (rest : List Tree) :
    faces (t :: rest) = (face? t).toList ++ faces rest := by
  rw [faces, List.filterMap_cons]
  cases face? t <;> rfl

/-- A list item drops exactly the children without a face. -/
theorem isKept_eq_isSome_face? (t : Tree) : isKept t = (face? t).isSome := by
  rcases t with children | ⟨_ | tag, properties, children⟩ | value | _ <;> rfl

theorem faces_filter_isKept (children : List Tree) :
    faces (children.filter isKept) = faces children := by
  rw [faces, List.filterMap_filter]
  refine congrArg (List.filterMap · children) (funext fun t => ?_)
  rw [isKept_eq_isSome_face?]
  cases face? t <;> rfl

/-! ## Looks at children -/

/-- A list item looks at the faces of its children. -/
theorem listItemHint_eq (children : List Tree) :
    listItemHint children = hintOf (faces children) := by
  have hFaces : ∀ t ∈ children.filter isKept, ∃ face, face? t = some face := by
    intro t hMem
    have hKept := (List.mem_filter.1 hMem).2
    rw [isKept_eq_isSome_face?] at hKept
    exact Option.isSome_iff_exists.1 hKept
  rw [← faces_filter_isKept]
  unfold listItemHint
  cases hChildren : children.filter isKept with
  | nil => rfl
  | cons first rest =>
      rw [hChildren] at hFaces
      obtain ⟨face, hFirst⟩ := hFaces first List.mem_cons_self
      rw [faces_cons, hFirst, Option.toList_some, List.singleton_append]
      rcases first with cs | ⟨_ | tag, properties, cs⟩ | value | _
      · cases hFirst
      · cases hFirst
      · cases hFirst
        simp [hintOf, Tree.tag?]
      · cases hFirst
        cases rest with
        | nil => rfl
        | cons second behind =>
            obtain ⟨face, hSecond⟩ := hFaces second (List.mem_cons_of_mem _ List.mem_cons_self)
            rw [faces_cons, hSecond]
            rfl
      · cases hFirst

/-- A code element looks for the first face that says something. -/
theorem firstText?_eq (children : List Tree) :
    firstText? children = (faces children).findSome? Face.text? := by
  induction children with
  | nil => rfl
  | cons t rest ih =>
      rw [faces_cons]
      rcases t with cs | ⟨_ | tag, properties, cs⟩ | value | _
      · exact ih
      · exact ih
      · exact ih
      · rfl
      · exact ih

/-- Children with the same faces make the same node. -/
theorem elementNode_congr {children children' : List Tree}
    (h : faces children' = faces children) (s : Settings) (id p tag : String)
    (style : Style.Resolved) (properties : Dict Json) :
    elementNode s id p tag style (.element (some tag) properties children') =
      elementNode s id p tag style (.element (some tag) properties children) := by
  have hText : firstText? children' = firstText? children := by
    rw [firstText?_eq, firstText?_eq, h]
  have hHint : listItemHint children' = listItemHint children := by
    rw [listItemHint_eq, listItemHint_eq, h]
  simp only [elementNode, withCode, Tree.children, Tree.property?, hText, hHint]

end PaneEngine.Pane
