import PaneEngine.Pane.File
import PaneEngine.Pane.Node
import PaneEngine.Style.Resolve
import PaneEngine.Tree.Basic

/-!
# Compiling a tree

A tree is flattened in reading order.  Each element with a tag and each text
becomes a node and takes the next id; ignored nodes and elements without a tag
vanish with all they hold, inner roots leave only their children, and a code
element keeps only the first text in it.  Occurrences of the tracked tags are
counted on the way, a link counts by the tag it has in the tree.

## Main definitions

* `Pane.Settings` — what the compilation of a pane depends on;
* `Pane.listItemHint` — how a list item is to be rendered;
* `Pane.Flattening.visit` — the nodes of a tree;
* `Pane.Graph`, `Pane.compile` — the compiled content of a pane.
-/

namespace PaneEngine.Pane

/-- What the compilation of a pane depends on besides its content. -/
structure Settings where
  options : Options
  files : List File
  page : Action.Page
  /-- The parent of the nodes at the top. -/
  containerId : String
  fallbackAlt : String

/-! ## List items -/

/-- The most characters of a list item that renders as a heading. -/
def longItem : Nat := 80

/-- Whether a node leaves something when it is compiled. -/
def isKept : Tree → Bool
  | .text _ => true
  | t => t.tag?.isSome

/-- How a list item with these children is to be rendered. -/
def listItemHint (children : List Tree) : Option String :=
  match children.filter isKept with
  | [] => none
  | first :: rest =>
    if first.tag? = some "img" then some "img"
    else if first.tag? = some "code" then some "widget"
    else match first, rest with
      | .text value, [] =>
        some (if longItem < (Text.collapse value).length then "p" else "h3")
      | .text _, _ :: _ => some "p"
      | _, _ => none

/-! ## Single nodes -/

/-- The node of a text: its copy is cleaned, its hook is read from the text as it stands. -/
def textNode (id parentId value : String) : Node :=
  { Node.bare id parentId "text" with
    copy := some (Text.collapse value), hookParams := (Hook.find? value).map Hook.params }

/-- The first text among children. -/
def firstText? : List Tree → Option String
  | [] => none
  | .text value :: _ => some value
  | _ :: rest => firstText? rest

/-- Gives the text in a code element to its node. -/
def withCode (children : List Tree) (n : Node) : Node :=
  match firstText? children with
  | some text =>
    { n with copy := some text, hookParams := (Hook.find? text).map Hook.params }
  | none => n

/-- A text that is there and not empty. -/
def nonEmpty (s : Option String) : Option String := s.filter fun s => !s.isEmpty

/-- Gives source and description of an image to its node; a known file replaces its own name. -/
def withImage (s : Settings) (src alt : Option String) (n : Node) : Node :=
  match src.bind fun name => s.files.find? fun f => f.filename = name with
  | some file =>
    { n with
      src := some file.src, srcSet := file.srcSet, fileId := some file.id
      alt := some (((nonEmpty alt).or (nonEmpty file.altDescription)).getD s.fallbackAlt) }
  | none => { n with src := src, alt := nonEmpty alt }

/-- Gives the address of a link to its node, or what its button makes of it. -/
def withLink (s : Settings) (href : Option String) (n : Node) : Node :=
  match href with
  | none => n
  | some address =>
    match s.options.buttons.get? address with
    | none => { n with href := some address }
    | some button =>
      let r := button.rendering s.page
      { n with tag := r.tag, href := r.href, button := some r.button }

/-- The node of an element with its styles. -/
def elementNode (s : Settings) (id parentId tag : String) (style : Style.Resolved)
    (t : Tree) : Node :=
  let n := { Node.bare id parentId tag with css := style.css, overrides := style.overrides }
  if tag = "code" then withCode t.children n
  else if tag = "img" then withImage s (t.property? "src") (t.property? "alt") n
  else if tag = "a" then withLink s (t.property? "href") n
  else if tag = "li" then { n with hint := listItemHint t.children }
  else n

/-! ## Flattening -/

/-- How far a tree has been flattened. -/
structure Flattening where
  /-- How many ids have been drawn. -/
  drawn : Nat
  /-- How often each tracked tag has occurred. -/
  counts : Dict Nat
  /-- The nodes, latest first. -/
  nodes : List Node

namespace Flattening

/-- Nothing has been flattened. -/
def start : Flattening := ⟨0, .empty, []⟩

/-- How often a tag has occurred. -/
def count (f : Flattening) (tag : String) : Nat := (f.counts.get? tag).getD 0

/-- Adds a node that has taken the next id. -/
def emit (n : Node) (f : Flattening) : Flattening :=
  { f with drawn := f.drawn + 1, nodes := n :: f.nodes }

/-- Counts an occurrence of a tag, if it is tracked. -/
def countTag (tag : String) (f : Flattening) : Flattening :=
  if Style.isTracked tag then { f with counts := f.counts.insert tag (f.count tag + 1) } else f

/-- The styles of the next occurrence of a tag. -/
def nextStyle (s : Settings) (tag : String) (f : Flattening) : Style.Resolved :=
  if Style.isTracked tag then Style.resolve s.options tag (f.count tag) else .none

mutual

/-- Flattens a tree below a parent, drawing ids from `ids`. -/
def visit (s : Settings) (ids : Nat → String) (parentId : String) (f : Flattening) :
    Tree → Flattening
  | .root children => visitAll s ids parentId f children
  | .text value => f.emit (textNode (ids f.drawn) parentId value)
  | .element (some tag) properties children =>
    let id := ids f.drawn
    let node := elementNode s id parentId tag (f.nextStyle s tag)
      (.element (some tag) properties children)
    let f := (f.countTag tag).emit node
    if tag = "code" then f else visitAll s ids id f children
  | .element none _ _ => f
  | .other => f

/-- Flattens trees one after the other. -/
def visitAll (s : Settings) (ids : Nat → String) (parentId : String) (f : Flattening) :
    List Tree → Flattening
  | [] => f
  | t :: rest => visitAll s ids parentId (visit s ids parentId f t) rest

end

end Flattening

/-! ## Graphs -/

/-- The compiled content of a pane. -/
structure Graph where
  containerId : String
  /-- The nodes in reading order. -/
  nodes : List Node
deriving DecidableEq

namespace Graph

/-- The node with that id. -/
def get? (g : Graph) (id : String) : Option Node := g.nodes.find? fun n => n.id = id

/-- The children of a node in reading order. -/
def childrenOf (g : Graph) (id : String) : List Node := g.nodes.filter fun n => n.parentId = id

/-- The nodes at the top. -/
def roots (g : Graph) : List Node := g.childrenOf g.containerId

end Graph

/-- The content of a pane, its node ids drawn from `ids`. -/
def compile (s : Settings) (ids : Nat → String) (t : Tree) : Graph :=
  ⟨s.containerId, (Flattening.visit s ids s.containerId .start t).nodes.reverse⟩

/-- The ids `prefix-0`, `prefix-1` and so on. -/
def sequentialIds (start : String) (n : Nat) : String := start ++ "-" ++ toString n

end PaneEngine.Pane
