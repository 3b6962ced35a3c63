import PaneEngine.Markup.Event
import PaneEngine.Markup.Source

/-!
# Nodes

A document is first read into a tree of nodes, each with the span of the text
that it covers.  What a bracket, a grave accent or a run of asterisks means is
only known when the whole document has been read, for definitions may stand
anywhere; until then it is a `Mark`.

A paragraph in a tight list is dissolved: its content takes its place, and the
node stays behind without any content.

## Main definitions

* `Markup.Mark`, `Markup.Kind`, `Markup.Node` — the tree;
* `Markup.Node.events` — its events in reading order.
-/

namespace PaneEngine.Markup

/-- Where a link leads, and its title. -/
structure Target where
  destination : String
  title : String
deriving DecidableEq

/-- A mark whose meaning is not decided yet. -/
inductive Mark where
  /-- A run of one delimiter, and whether it can open and close emphasis. -/
  | run (char : Char) (count : Nat) (canOpen canClose : Bool)
  /-- A run of grave accents; a backslash may take away the meaning of the first. -/
  | accents (count : Nat) (escaped : Bool)
  /-- An opening angle bracket. -/
  | angle
  /-- The bracket that opens a link or an image. -/
  | opening (image : Bool)
  /-- A closing bracket; whether it may refer to a definition by its own text. -/
  | closing (mayRefer : Bool)
deriving DecidableEq

/-- What a node is. -/
inductive Kind where
  /-- A construct around other nodes. -/
  | enclose (tag : Tag)
  /-- An item of a list, its content indented by `indent` columns. -/
  | item (indent : Nat)
  /-- A paragraph whose content has taken its place. -/
  | dissolved
  /-- The text of the span. -/
  | text
  /-- A text that differs from the span. -/
  | value (cs : List Char)
  | code (cs : List Char)
  | softBreak
  | hardBreak
  | rule
  | html
  | mark (m : Mark)
deriving DecidableEq

/-- A node with its span. -/
inductive Node where
  | mk (start stop : Nat) (kind : Kind) (children : List Node)

namespace Node

/-- Where the span begins. -/
def start : Node → Nat
  | mk s _ _ _ => s

/-- Where the span ends. -/
def stop : Node → Nat
  | mk _ e _ _ => e

/-- What the node is. -/
def kind : Node → Kind
  | mk _ _ k _ => k

/-- The nodes inside. -/
def children : Node → List Node
  | mk _ _ _ ns => ns

/-- A node without nodes inside. -/
def leaf (start stop : Nat) (kind : Kind) : Node := mk start stop kind []

/-- The node with another end. -/
def withStop (stop : Nat) : Node → Node
  | mk s _ k ns => mk s stop k ns

/-- The node as far as it lies behind a position. -/
def behind (position : Nat) : Node → Node
  | mk s e k ns => mk (max s position) e k ns

/-- A break between two lines. -/
def isBreak (n : Node) : Bool := n.kind = .softBreak || n.kind = .hardBreak

/-- Adds a text to nodes, latest first, joining it to a text that it follows. -/
def addText (start stop : Nat) (nodes : List Node) : List Node :=
  if stop ≤ start then nodes
  else match nodes with
    | mk s e .text ns :: before =>
      if e = start then mk s stop .text ns :: before
      else leaf start stop .text :: mk s e .text ns :: before
    | nodes => leaf start stop .text :: nodes

/-! ## Tight lists -/

/-- Dissolves a paragraph, unless it is empty. -/
def dissolve : Node → List Node
  | mk s e (.enclose .paragraph) (n :: ns) => leaf s e .dissolved :: n :: ns
  | n => [n]

/-- The content of an item with its paragraphs dissolved.  An empty paragraph in front hides all
that follows. -/
def dissolveAll (nodes : List Node) : List Node :=
  match nodes with
  | mk _ _ (.enclose .paragraph) [] :: _ => []
  | nodes => nodes.flatMap dissolve

/-- The item with its paragraphs dissolved. -/
def tighten : Node → Node
  | mk s e k ns => mk s e k (dissolveAll ns)

/-! ## Events -/

mutual

/-- The events of a node. -/
def events (src : Source) : Node → List Event
  | mk s e kind ns =>
    match kind with
    | .enclose tag => .enter tag :: eventsOf src ns ++ [.leave tag]
    | .item _ => .enter .item :: eventsOf src ns ++ [.leave .item]
    | .dissolved => []
    | .text | .mark _ => [.text (String.ofList (src.slice s e))]
    | .value cs => [.text (String.ofList cs)]
    | .code cs => [.code (String.ofList cs)]
    | .softBreak => [.softBreak]
    | .hardBreak => [.hardBreak]
    | .rule => [.rule]
    | .html => [.html]

/-- The events of nodes in sequence. -/
def eventsOf (src : Source) : List Node → List Event
  | [] => []
  | n :: rest => events src n ++ eventsOf src rest

end

end Node

end PaneEngine.Markup
