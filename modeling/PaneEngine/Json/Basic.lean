import PaneEngine.Dict
import PaneEngine.Decimal.Shortest

/-!
# JSON documents

A document as it stands: members in the order written, repeated keys kept.  A
part that has no value — a number beyond the range of a double, a lone
surrogate, nesting past the limit — stands in the tree as `unreadable`, so that
a decoder that skips over it is not disturbed and any other fails there.

The *canonical* form of a document lists the members of every object by
ascending key, each key once, the last member of a key winning.

## Main definitions

* `Json`, `Json.Number` — documents and their numbers;
* `Json.canonical?` — the canonical form, if every part has a value;
* `Json.get?`, `Json.dict?` — access to members.
-/

namespace PaneEngine

/-- A number: integers of 64 bits are exact, all others are doubles. -/
inductive Json.Number where
  | int (value : Int)
  | double (value : Binary64)
deriving DecidableEq

/-- A JSON document. -/
inductive Json where
  | null
  | bool (value : Bool)
  | number (value : Json.Number)
  | string (value : String)
  | array (items : List Json)
  | object (members : List (String × Json))
  /-- A part that is well formed but has no value. -/
  | unreadable

namespace Json

instance : Inhabited Json := ⟨null⟩

/-- The text of a number in a document. -/
def Number.text : Number → String
  | .int i => toString i
  | .double x => x.text

/-- Equality of numbers; an integer never equals a double. -/
def Number.sameValue : Number → Number → Bool
  | .int i, .int j => i = j
  | .double x, .double y => x.sameValue y
  | _, _ => false

/-- The document of an integer. -/
def int (i : Int) : Json := number (.int i)

/-- The document of a natural number. -/
def nat (n : Nat) : Json := int n

/-! ## Canonical form -/

mutual

/-- The document with sorted members, the last of a key winning; none if a part has no value. -/
def canonical? : Json → Option Json
  | null => some null
  | bool b => some (bool b)
  | number n => some (number n)
  | string s => some (string s)
  | array items => (canonicalItems? items).map array
  | object members =>
    (canonicalMembers? members).map fun ms => object (Dict.ofList ms).entries
  | unreadable => none

/-- `canonical?` on each item. -/
def canonicalItems? : List Json → Option (List Json)
  | [] => some []
  | j :: rest => do
    let j ← canonical? j
    let rest ← canonicalItems? rest
    return j :: rest

/-- `canonical?` on the value of each member. -/
def canonicalMembers? : List (String × Json) → Option (List (String × Json))
  | [] => some []
  | (k, j) :: rest => do
    let j ← canonical? j
    let rest ← canonicalMembers? rest
    return (k, j) :: rest

end

/-- Whether every part of the document has a value. -/
def isReadable (j : Json) : Bool := (canonical? j).isSome

/-! ## Members -/

/-- The members of an object as a dictionary. -/
def dict? : Json → Option (Dict Json)
  | object members => some (Dict.ofList members)
  | _ => none

/-- The value of the last member with that key. -/
def get? (key : String) : Json → Option Json
  | object members => members.reverse.lookup key
  | _ => none

/-- Whether the document is `null`. -/
def isNull : Json → Bool
  | null => true
  | _ => false

/-- The document of a dictionary. -/
def ofDict (d : Dict Json) : Json := object d.entries

/-- An object that leaves out the members without a value. -/
def objectOf (members : List (String × Option Json)) : Json :=
  object (members.filterMap fun m => m.2.map fun j => (m.1, j))

/-- The document of an optional value, `null` without one. -/
def ofOption : Option Json → Json
  | some j => j
  | none => null

/-- The document of a list of strings. -/
def strings (l : List String) : Json := array (l.map string)

end Json

end PaneEngine
