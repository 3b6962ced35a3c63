import Mathlib.Logic.Relation
import PaneEngine.Pane.Index
import PaneEngine.Proofs.Pane.Face
import PaneEngine.Proofs.Pane.Parenthood

/-!
# Invisible nodes

An ignored node or an element without a tag may stand anywhere in a tree and
hold anything.  It is met in three places, where a tree is flattened and where a
list item and a code element look at their children, and each of them passes it
over by a rule of its own.  It has no face and flattening it changes nothing, so
neither the node above it nor those behind it are made any differently.

## Main definitions

* `Invisible` — ignored nodes and elements without a tag;
* `Gains` — a tree gains an invisible node at some place.

## Main results

* `visit_gains` — an invisible node does not show in the flattening;
* `invisible_irrelevant` — nor in compiled content and its index.
-/

namespace PaneEngine.Pane

/-- A node that leaves nothing in compiled content, whatever it holds. -/
inductive Invisible : Tree → Prop where
  | other : Invisible .other
  | untagged (properties : Dict Json) (children : List Tree) :
      Invisible (.element none properties children)

/-- The second tree is the first with an invisible node inserted among the children of some node.
The node with the new child is the root of the trees or lies below one of its children. -/
inductive Gains : Tree → Tree → Prop where
  | root {u : Tree} (hInvisible : Invisible u) (before behind : List Tree) :
      Gains (.root (before ++ behind)) (.root (before ++ u :: behind))
  | element {u : Tree} (hInvisible : Invisible u) (tag : Option String) (properties : Dict Json)
      (before behind : List Tree) :
      Gains (.element tag properties (before ++ behind))
        (.element tag properties (before ++ u :: behind))
  | belowRoot {t t' : Tree} (hBelow : Gains t t') (before behind : List Tree) :
      Gains (.root (before ++ t :: behind)) (.root (before ++ t' :: behind))
  | belowElement {t t' : Tree} (hBelow : Gains t t') (tag : Option String)
      (properties : Dict Json) (before behind : List Tree) :
      Gains (.element tag properties (before ++ t :: behind))
        (.element tag properties (before ++ t' :: behind))

variable {s : Settings} {ids : Nat → String} {t t' u : Tree}

/-! ## Faces -/

theorem face?_of_invisible (h : Invisible u) : face? u = none := by
  cases h <;> rfl

/-- A node does not change its face with what it holds. -/
theorem face?_of_gains (h : Gains t t') : face? t' = face? t := by
  cases h <;> rfl

theorem faces_insert_invisible (h : Invisible u) (before behind : List Tree) :
    faces (before ++ u :: behind) = faces (before ++ behind) := by
  rw [faces_append, faces_append, faces_cons, face?_of_invisible h]
  rfl

theorem faces_replace (h : face? t' = face? t) (before behind : List Tree) :
    faces (before ++ t' :: behind) = faces (before ++ t :: behind) := by
  rw [faces_append, faces_append, faces_cons, faces_cons, h]

/-! ## Flattening -/

namespace Flattening

theorem visitAll_append (p : String) (f : Flattening) (xs ys : List Tree) :
    visitAll s ids p f (xs ++ ys) = visitAll s ids p (visitAll s ids p f xs) ys := by
  induction xs generalizing f with
  | nil => rw [List.nil_append, visitAll]
  | cons t xs ih => rw [List.cons_append, visitAll, visitAll, ih]

theorem visit_invisible (h : Invisible u) (p : String) (f : Flattening) :
    visit s ids p f u = f := by
  cases h <;> rw [visit]

theorem visitAll_insert_invisible (h : Invisible u) (p : String) (f : Flattening)
    (before behind : List Tree) :
    visitAll s ids p f (before ++ u :: behind) = visitAll s ids p f (before ++ behind) := by
  rw [visitAll_append, visitAll_append, visitAll, visit_invisible h]

theorem visitAll_replace (h : ∀ p f, visit s ids p f t' = visit s ids p f t) (p : String)
    (f : Flattening) (before behind : List Tree) :
    visitAll s ids p f (before ++ t' :: behind) = visitAll s ids p f (before ++ t :: behind) := by
  rw [visitAll_append, visitAll_append, visitAll, visitAll, h]

/-- An element is flattened by the faces of its children and by how they are flattened. -/
theorem visit_element_congr {children children' : List Tree}
    (hFaces : faces children' = faces children)
    (hAll : ∀ p f, visitAll s ids p f children' = visitAll s ids p f children)
    (tag : Option String) (properties : Dict Json) (p : String) (f : Flattening) :
    visit s ids p f (.element tag properties children') =
      visit s ids p f (.element tag properties children) := by
  cases tag with
  | none => rw [visit, visit]
  | some tag => simp only [visit, elementNode_congr hFaces, hAll]

/-- An invisible node does not show in the flattening, wherever it stands. -/
theorem visit_gains (h : Gains t t') (p : String) (f : Flattening) :
    visit s ids p f t' = visit s ids p f t := by
  induction h generalizing p f with
  | root hInvisible before behind =>
      rw [visit, visit, visitAll_insert_invisible hInvisible]
  | element hInvisible tag properties before behind =>
      refine visit_element_congr (faces_insert_invisible hInvisible before behind) ?_ _ _ p f
      intro p f
      exact visitAll_insert_invisible hInvisible p f before behind
  | belowRoot _ before behind ih =>
      rw [visit, visit, visitAll_replace ih]
  | belowElement hBelow tag properties before behind ih =>
      refine visit_element_congr (faces_replace (face?_of_gains hBelow) before behind) ?_ _ _ p f
      intro p f
      exact visitAll_replace ih p f before behind

/-- Trees that differ in invisible nodes alone are flattened alike. -/
theorem visit_eqvGen (h : Relation.EqvGen Gains t t') (p : String) (f : Flattening) :
    visit s ids p f t' = visit s ids p f t := by
  induction h generalizing p f with
  | rel _ _ hGains => exact visit_gains hGains p f
  | refl _ => rfl
  | symm _ _ _ ih => exact (ih p f).symm
  | trans _ _ _ _ _ ih ih' => exact (ih' p f).trans (ih p f)

end Flattening

/-- **Unsupported nodes are invisible.**  Let one tree come from another by inserting or removing
ignored nodes and elements without a tag, one after the other and each among the children of any
node.  Then both have the same nodes, with all their fields, and the same index, and draw the same
ids. -/
theorem invisible_irrelevant (s : Settings) (ids : Nat → String)
    (h : Relation.EqvGen Gains t t') :
    compile s ids t' = compile s ids t ∧ idsDrawn s ids t' = idsDrawn s ids t ∧
      Index.ofGraph (compile s ids t') = Index.ofGraph (compile s ids t) := by
  have hVisit : Flattening.visit s ids s.containerId .start t' =
      Flattening.visit s ids s.containerId .start t := Flattening.visit_eqvGen h _ _
  have hGraph : compile s ids t' = compile s ids t := by rw [compile, compile, hVisit]
  refine ⟨hGraph, ?_, by rw [hGraph]⟩
  rw [idsDrawn, idsDrawn, hVisit]

/-- A list item with code in it. -/
def codeItem (before inCode : List Tree) : Tree :=
  .root [.element (some "li") .empty (before ++ [.element (some "code") .empty inCode])]

/-- An element without a tag that holds a paragraph and a link. -/
def lostParagraph : Tree :=
  .element none .empty [.element (some "p") .empty [.element (some "a") .empty [.text "lost"]]]

/-- A lost paragraph before the code and a comment in it change neither the hint of the list item
nor the text of the code. -/
theorem invisible_irrelevant_codeItem :
    let g :=
      compile plainSettings (sequentialIds "n") (codeItem [lostParagraph] [.other, .text "y"])
    Relation.EqvGen Gains (codeItem [] [.text "y"]) (codeItem [lostParagraph] [.other, .text "y"]) ∧
      g = compile plainSettings (sequentialIds "n") (codeItem [] [.text "y"]) ∧
      g.nodes.map (fun n => (n.tag, n.hint, n.copy)) =
        [("li", some "widget", none), ("code", none, some "y")] := by
  intro g
  have hComment : Gains (codeItem [] [.text "y"]) (codeItem [] [.other, .text "y"]) :=
    .belowRoot (.belowElement (.element .other (some "code") .empty [] [.text "y"]) _ _ [] []) [] []
  have hLost : Gains (codeItem [] [.other, .text "y"])
      (codeItem [lostParagraph] [.other, .text "y"]) :=
    .belowRoot (.element (.untagged _ _) (some "li") .empty [] _) [] []
  have hBoth := (Relation.EqvGen.rel _ _ hComment).trans _ _ _ (.rel _ _ hLost)
  have hGraph := (invisible_irrelevant plainSettings (sequentialIds "n") hBoth).1
  exact ⟨hBoth, hGraph, by decide +kernel⟩

end PaneEngine.Pane
