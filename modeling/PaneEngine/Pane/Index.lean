import PaneEngine.Pane.Compile

/-!
# The positional index

Images, list items, code items and links are numbered in reading order, each
kind by itself, and located by the block at the top that they lie in and their
number within it.  An editor finds by it which part of the source a click on
the rendered content means.

## Main definitions

* `Pane.IndexKind`, `Pane.Position` — what is indexed and where it lies;
* `Pane.Index.ofGraph` — the index of compiled content;
* `Pane.Index.get?`, `Pane.Index.find?`, `Pane.Index.occurrence?` — look-ups;
* `Pane.Index.linksTo` — the links with a target.
-/

namespace PaneEngine.Pane

/-- A kind of node that is indexed. -/
inductive IndexKind where
  | image
  | listItem
  | codeItem
  | link
deriving DecidableEq

/-- The kind of a node; a link that renders as a button is a link still. -/
def IndexKind.of? (n : Node) : Option IndexKind :=
  if n.tag = "img" then some .image
  else if n.tag = "li" then some .listItem
  else if n.tag = "code" then some .codeItem
  else if n.tag = "a" then some .link
  else if n.tag = "button" && n.button.isSome then some .link
  else none

/-- Where a node lies. -/
structure Position where
  nodeId : String
  /-- The number of the block at the top. -/
  parentNth : Nat
  /-- The number among the nodes of its kind in that block. -/
  childNth : Nat
deriving DecidableEq

/-- The positions of each kind in reading order, and the numbers of the links by target. -/
structure Index where
  images : List Position
  listItems : List Position
  codeItems : List Position
  links : List Position
  linksByTarget : Dict (List Nat)
deriving DecidableEq

namespace Index

/-- An index of nothing. -/
def empty : Index := ⟨[], [], [], [], .empty⟩

/-- The positions of a kind. -/
def table (x : Index) : IndexKind → List Position
  | .image => x.images
  | .listItem => x.listItems
  | .codeItem => x.codeItems
  | .link => x.links

/-- Adds a position to a kind. -/
def push (x : Index) (k : IndexKind) (p : Position) : Index :=
  match k with
  | .image => { x with images := x.images ++ [p] }
  | .listItem => { x with listItems := x.listItems ++ [p] }
  | .codeItem => { x with codeItems := x.codeItems ++ [p] }
  | .link => { x with links := x.links ++ [p] }

/-- Notes the target of the link with that number. -/
def addTarget (x : Index) (target : String) (index : Nat) : Index :=
  let before := (x.linksByTarget.get? target).getD []
  { x with linksByTarget := x.linksByTarget.insert target (before ++ [index]) }

/-- The target of a link: the action of its button, or its address. -/
def linkTarget? (n : Node) : Option String := (n.button.map Button.callback).or n.href

/-- Adds a node that lies in a block. -/
def addNode (x : Index) (block : Nat) (n : Node) : Index :=
  match IndexKind.of? n with
  | none => x
  | some kind =>
    let table := x.table kind
    let nth := (table.filter fun p => p.parentNth = block).length
    let y := x.push kind ⟨n.id, block, nth⟩
    if kind = .link then
      match linkTarget? n with
      | some target => y.addTarget target table.length
      | none => y
    else y

/-! ## Building -/

/-- How far an index has been built. -/
structure Building where
  index : Index
  /-- How many blocks at the top have been met. -/
  blocks : Nat
  /-- The block of each node, latest node first. -/
  blockOf : List (String × Nat)

/-- The effect of a node; one below an unknown parent is passed over. -/
def Building.step (containerId : String) (b : Building) (n : Node) : Building :=
  let place : Option (Nat × Nat) :=
    if n.parentId = containerId then some (b.blocks, b.blocks + 1)
    else (b.blockOf.lookup n.parentId).map fun block => (block, b.blocks)
  match place with
  | none => b
  | some (block, blocks) => ⟨b.index.addNode block n, blocks, (n.id, block) :: b.blockOf⟩

/-- The index of compiled content. -/
def ofGraph (g : Graph) : Index :=
  (g.nodes.foldl (Building.step g.containerId) ⟨empty, 0, []⟩).index

/-! ## Look-ups -/

/-- The position of the occurrence with that number. -/
def get? (x : Index) (k : IndexKind) (index : Nat) : Option Position := (x.table k)[index]?

/-- The number of the occurrence at a place. -/
def find? (x : Index) (k : IndexKind) (parentNth childNth : Nat) : Option Nat :=
  (x.table k).findIdx? fun p => p.parentNth = parentNth && p.childNth = childNth

/-- The number of a node. -/
def occurrence? (x : Index) (k : IndexKind) (nodeId : String) : Option Nat :=
  (x.table k).findIdx? fun p => p.nodeId = nodeId

/-- The numbers of the links with a target. -/
def linksTo (x : Index) (target : String) : List Nat := (x.linksByTarget.get? target).getD []

/-! ## JSON -/

/-- The document of a position. -/
def positionJson (p : Position) : Json :=
  .object [("nodeId", .string p.nodeId), ("parentNth", .nat p.parentNth),
    ("childNth", .nat p.childNth)]

/-- The document of the positions of a kind, by their numbers. -/
def tableJson (ps : List Position) : Json :=
  .object (ps.zipIdx.map fun (p, i) => (toString i, positionJson p))

/-- The document of an index. -/
def toJson (x : Index) : Json :=
  .object [("images", tableJson x.images), ("listItems", tableJson x.listItems),
    ("codeItems", tableJson x.codeItems), ("links", tableJson x.links),
    ("linksByTarget", .ofDict (x.linksByTarget.map fun _ l => .array (l.map Json.nat)))]

end Index

end PaneEngine.Pane
