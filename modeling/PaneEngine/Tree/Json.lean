import PaneEngine.Json.Decode
import PaneEngine.Json.Reader
import PaneEngine.Tree.Basic

/-!
# Trees as JSON

A node is an object whose member `type` tells its kind, or an array of the kind
and the fields in order.  At the root the kind has to be a name; below it may
also be the number of the kind.  Whatever kind is not known stands for a node
that is ignored.

## Main definitions

* `Tree.Kind` — the kinds of nodes and their fields;
* `Tree.ofJson?`, `Tree.read?` — the tree of a document and of its text;
* `Tree.toJson` — the document of a tree.
-/

namespace PaneEngine.Tree

open Json

/-! ## Kinds -/

/-- The kinds of nodes. -/
inductive Kind where
  | root
  | element
  | text
  | other
deriving DecidableEq

/-- The kind with that name. -/
def Kind.ofName : String → Kind
  | "root" => .root
  | "element" => .element
  | "text" => .text
  | _ => .other

/-- The kind with that number. -/
def Kind.ofNumber : Nat → Kind
  | 0 => .root
  | 1 => .element
  | 2 => .text
  | _ => .other

/-- The kind that a member `type` tells; numbers only below the root. -/
def Kind.ofJson? (below : Bool) : Json → Option Kind
  | .string name => some (.ofName name)
  | .number (.int i) => if below && 0 ≤ i then some (.ofNumber i.toNat) else none
  | _ => none

/-- The fields of a kind. -/
def Kind.fields : Kind → List String
  | .root => ["children"]
  | .element => ["tagName", "properties", "children"]
  | .text => ["value"]
  | .other => []

/-! ## Reading -/

/-- The node of a kind with these fields; `lists` holds what each field is as a list of nodes. -/
def ofFields? (k : Kind) (fields : List (String × Json))
    (lists : List (String × Option (List Tree))) : Option Tree :=
  let children : Option (List Tree) := (lists.lookup "children").getD (some [])
  match k with
  | .root => children.map Tree.root
  | .element => do
    let tag ← optional fields "tagName" string?
    let properties ← defaulted fields "properties" (dictOf? canonical?) .empty
    let cs ← children
    return .element tag properties cs
  | .text => (defaulted fields "value" string? "").map Tree.text
  | .other => some .other

/-- The node of an object: its kind is told once; a node that is ignored may hold anything. -/
def ofMembers? (below : Bool) (members : List (String × Json))
    (lists : List (String × Option (List Tree))) : Option Tree :=
  match members.filter (·.1 = "type") with
  | [(_, tag)] => do
    let k ← Kind.ofJson? below tag
    if k = .other then return .other
    let fields ← (Json.object members).record? k.fields
    ofFields? k fields lists
  | _ => none

/-- The node of an array: its kind and then its fields in order. -/
def ofItems? (below : Bool) (items : List Json) (lists : List (Option (List Tree))) :
    Option Tree :=
  match items with
  | [] => none
  | tag :: rest => do
    let k ← Kind.ofJson? below tag
    let fields ← (Json.array rest).record? k.fields
    ofFields? k fields (k.fields.zip (lists.drop 1))

mutual

/-- The tree of a document all parts of which have a value. -/
def ofValue? (below : Bool) : Json → Option Tree
  | .object members => ofMembers? below members (memberLists members)
  | .array items => ofItems? below items (itemLists items)
  | _ => none

/-- The trees of an array. -/
def listOf? : Json → Option (List Tree)
  | .array items => ofValues? items
  | _ => none

/-- The trees of the items of an array. -/
def ofValues? : List Json → Option (List Tree)
  | [] => some []
  | j :: rest => do
    let t ← ofValue? true j
    let ts ← ofValues? rest
    return t :: ts

/-- What each member is as a list of nodes. -/
def memberLists : List (String × Json) → List (String × Option (List Tree))
  | [] => []
  | (k, j) :: rest => (k, listOf? j) :: memberLists rest

/-- What each item is as a list of nodes. -/
def itemLists : List Json → List (Option (List Tree))
  | [] => []
  | j :: rest => listOf? j :: itemLists rest

end

/-- The tree of a document. -/
def ofJson? (j : Json) : Option Tree := if j.isReadable then ofValue? false j else none

/-- The tree of a text. -/
def read? (s : String) : Option Tree := (Json.read? s).bind ofJson?

/-! ## Writing -/

mutual

/-- The document of a tree. -/
def toJson : Tree → Json
  | .root children => .object [("type", .string "root"), ("children", .array (toJsons children))]
  | .element tag properties children =>
    .object (("type", .string "element") ::
      (tag.map fun t => ("tagName", Json.string t)).toList ++
      [("properties", Json.ofDict properties), ("children", .array (toJsons children))])
  | .text value => .object [("type", .string "text"), ("value", .string value)]
  | .other => .object [("type", .string "other")]

/-- The documents of trees. -/
def toJsons : List Tree → List Json
  | [] => []
  | t :: rest => toJson t :: toJsons rest

end

end PaneEngine.Tree
