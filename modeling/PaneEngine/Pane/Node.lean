import PaneEngine.Button
import PaneEngine.Hook.Basic
import PaneEngine.Style.Responsive

/-!
# Nodes

Compiled content is a flat list of nodes in reading order, each naming its
parent.

## Main definitions

* `Pane.Node` — one element or text;
* `Pane.Node.toJson` — nodes as JSON.
-/

namespace PaneEngine.Pane

/-- An element or a text. -/
structure Node where
  id : String
  parentId : String
  /-- The tag of an element; a text has the tag `text`. -/
  tag : String
  /-- How a list item is to be rendered. -/
  hint : Option String
  /-- The text of a text or code node. -/
  copy : Option String
  src : Option String
  srcSet : Option String
  fileId : Option String
  alt : Option String
  href : Option String
  hookParams : Option (List Hook.Param)
  overrides : Option Style.Responsive
  css : Option String
  button : Option Button
deriving DecidableEq

namespace Node

/-- A node without content. -/
def bare (id parentId tag : String) : Node :=
  { id, parentId, tag, hint := none, copy := none, src := none, srcSet := none, fileId := none,
    alt := none, href := none, hookParams := none, overrides := none, css := none, button := none }

/-- The document of a node. -/
def toJson (n : Node) : Json :=
  .objectOf [("id", some (.string n.id)), ("nodeType", some (.string "TagElement")),
    ("parentId", some (.string n.parentId)), ("tagName", some (.string n.tag)),
    ("tagNameCustom", n.hint.map .string), ("copy", n.copy.map .string),
    ("src", n.src.map .string), ("srcSet", n.srcSet.map .string),
    ("fileId", n.fileId.map .string), ("alt", n.alt.map .string), ("href", n.href.map .string),
    ("codeHookParams", n.hookParams.map fun ps => .array (ps.map Hook.Param.toJson)),
    ("overrideClasses", n.overrides.map Style.Responsive.toJson),
    ("elementCss", n.css.map .string), ("buttonPayload", n.button.map Button.toJson)]

end Node

end PaneEngine.Pane
