import PaneEngine.Json.Basic

/-!
# Decoding values

A *decoder* for `α` is a function `Json → Option α`.  A record is decoded from
an object by the names of its fields or from an array by their positions; a
field that the record does not know is skipped, whatever it holds, and a known
one that is repeated is an error.

## Main definitions

* `Json.string?`, `Json.natBelow?`, `Json.list?`, `Json.dictOf?` — plain values;
* `Json.record?` — the known fields of a record;
* `Json.required`, `Json.defaulted`, `Json.optional` — one field of it.
-/

namespace PaneEngine.Json

variable {α : Type}

/-- A string. -/
def string? : Json → Option String
  | string s => some s
  | _ => none

/-- A truth value. -/
def bool? : Json → Option Bool
  | bool b => some b
  | _ => none

/-- A natural number of the given number of bits. -/
def natBelow? (bits : Nat) : Json → Option Nat
  | number (.int i) => if 0 ≤ i ∧ i.toNat < Nat.pow 2 bits then some i.toNat else none
  | _ => none

/-- An optional value: `null` or what `decode` accepts. -/
def nullable (decode : Json → Option α) : Json → Option (Option α)
  | null => some none
  | j => (decode j).map some

/-- A list. -/
def list? (decode : Json → Option α) : Json → Option (List α)
  | array items => items.mapM decode
  | _ => none

/-- An object with arbitrary keys; the last member of a key wins, but all have to be decodable. -/
def dictOf? (decode : Json → Option α) : Json → Option (Dict α)
  | object members =>
    (members.mapM fun m => (decode m.2).map fun a => (m.1, a)).map Dict.ofList
  | _ => none

/-! ## Records -/

/-- The known fields of a record, from an object by name or from an array by position. -/
def record? (names : List String) : Json → Option (List (String × Json))
  | object members =>
    let known := members.filter fun m => names.contains m.1
    if (known.map (·.1)).Nodup then some known else none
  | array items => if items.length ≤ names.length then some (names.zip items) else none
  | _ => none

/-- A field that has to be there. -/
def required (fields : List (String × Json)) (name : String) (decode : Json → Option α) :
    Option α :=
  (fields.lookup name).bind decode

/-- A field with a value of its own when it is missing. -/
def defaulted (fields : List (String × Json)) (name : String) (decode : Json → Option α)
    (missing : α) : Option α :=
  match fields.lookup name with
  | none => some missing
  | some j => decode j

/-- A field that may be missing or `null`. -/
def optional (fields : List (String × Json)) (name : String) (decode : Json → Option α) :
    Option (Option α) :=
  defaulted fields name (nullable decode) none

end PaneEngine.Json
