import PaneEngine.Style.Responsive

/-!
# Overrides

A property can be overridden for single occurrences of a tag by a tuple of
values, one per breakpoint.  A value that equals the one before it in the tuple
is left out of the resulting styles.

## Main definitions

* `Style.Value`, `Style.Tuple`, `Style.Overrides` — the overrides of a tag;
* `Style.Tuple.entries` — what a tuple contributes;
* `Style.Overrides.stylesAt` — the styles of an occurrence.
-/

namespace PaneEngine.Style

/-- A value in a tuple. -/
inductive Value where
  | text (s : String)
  | number (n : Json.Number)
  | bool (b : Bool)
deriving DecidableEq

namespace Value

/-- The text of a value. -/
def toText : Value → String
  | text s => s
  | number n => n.text
  | bool b => if b then "true" else "false"

/-- Whether two values are equal; the two zeros among the doubles are. -/
def same : Value → Value → Bool
  | text s, text t => s = t
  | number n, number m => n.sameValue m
  | bool b, bool c => b = c
  | _, _ => false

/-- The value of a document. -/
def ofJson? : Json → Option Value
  | .string s => some (text s)
  | .number n => some (number n)
  | .bool b => some (bool b)
  | _ => none

/-- The document of a value. -/
def toJson : Value → Json
  | text s => .string s
  | number n => .number n
  | bool b => .bool b

end Value

/-- Values per breakpoint, the smallest first; more than there are breakpoints do not count. -/
abbrev Tuple := List (Option Value)

namespace Tuple

/-- The tuple of a document. -/
def ofJson? : Json → Option Tuple := Json.list? (Json.nullable Value.ofJson?)

/-- The document of a tuple. -/
def toJson (t : Tuple) : Json := .array (t.map fun v => .ofOption (v.map Value.toJson))

/-- Whether a value repeats the one before it. -/
def repeats (before : Option Value) (v : Value) : Bool := before.any fun w => w.same v

/-- The values that are not left out, with their breakpoints. -/
def entriesFrom (before : Option Value) : List Breakpoint → Tuple → List (Breakpoint × String)
  | b :: bs, v :: rest =>
    let here := match v with
      | some v => if repeats before v then [] else [(b, v.toText)]
      | none => []
    here ++ entriesFrom v bs rest
  | _, _ => []

/-- The values that are not left out, with their breakpoints. -/
def entries (t : Tuple) : List (Breakpoint × String) := entriesFrom none Breakpoint.all t

end Tuple

/-- The overrides of a tag: for each property a tuple per occurrence. -/
abbrev Overrides := Dict (List (Option Tuple))

namespace Overrides

/-- The tuples of one property from a document. -/
def tuples? : Json → Option (List (Option Tuple)) := Json.list? (Json.nullable Tuple.ofJson?)

/-- The document of the tuples of one property. -/
def tuplesJson (ts : List (Option Tuple)) : Json :=
  .array (ts.map fun t => .ofOption (t.map Tuple.toJson))

/-- Adds what a tuple contributes for a property. -/
def insertTuple (property : String) (t : Tuple) (r : Responsive) : Responsive :=
  t.entries.foldl (fun r e => r.insert e.1 property e.2) r

/-- The styles of the occurrence with that number. -/
def stylesAt (o : Overrides) (index : Nat) : Responsive :=
  o.entries.foldl (fun r (property, tuples) =>
    match tuples[index]? with
    | some (some t) => insertTuple property t r
    | _ => r) .empty

end Overrides

end PaneEngine.Style
