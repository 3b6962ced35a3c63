import PaneEngine.Json.Basic

/-!
# Element trees

The content of a pane is a tree of elements and texts.  It is read from JSON or
built from the events of a Markdown document.

## Main definitions

* `Tree` — the trees;
* `Tree.children`, `Tree.tag?`, `Tree.property?` — what later stages ask of a node.
-/

namespace PaneEngine

/-- A tree of elements and texts. -/
inductive Tree where
  | root (children : List Tree)
  /-- An element without a tag name is kept, though nothing comes of it. -/
  | element (tag : Option String) (properties : Dict Json) (children : List Tree)
  | text (value : String)
  /-- A comment, a document type or anything else that is ignored. -/
  | other

namespace Tree

instance : Inhabited Tree := ⟨other⟩

/-- The children of a node. -/
def children : Tree → List Tree
  | root cs => cs
  | element _ _ cs => cs
  | text _ => []
  | other => []

/-- The tag name of an element. -/
def tag? : Tree → Option String
  | element tag _ _ => tag
  | _ => none

/-- A property of an element that is a string. -/
def property? (name : String) : Tree → Option String
  | element _ properties _ =>
    match properties.get? name with
    | some (.string s) => some s
    | _ => none
  | _ => none

end Tree

end PaneEngine
