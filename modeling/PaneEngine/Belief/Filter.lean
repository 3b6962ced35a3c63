import PaneEngine.Belief.Basic

/-!
# Filters

A filter requires values of beliefs by slug.  Two keys are reserved: under one
stand the slugs of which any one suffices, under the other further slugs that
are given up together with those that the filter names.

## Main definitions

* `Belief.Filter`, `Belief.Filter.Accepted` — filters and the values they accept;
* `Belief.Filter.predicates` — what a filter requires;
* `Belief.Gate` — the two filters of a pane.
-/

namespace PaneEngine.Belief

/-- The values that are accepted for a slug. -/
inductive Filter.Accepted where
  | one (value : String)
  | anyOf (values : List String)
deriving DecidableEq

/-- The accepted values by slug, and what stands under the reserved keys. -/
abbrev Filter := Dict Filter.Accepted

namespace Filter

/-- The accepted values. -/
def Accepted.values : Accepted → List String
  | one v => [v]
  | anyOf vs => vs

/-- The key of the slugs of which any one suffices. -/
def matchAcrossKey : String := "MATCH-ACROSS"

/-- The key of the slugs that are given up together with those named. -/
def linkedKey : String := "LINKED-BELIEFS"

/-- The keys that name no belief. -/
def reservedKeys : List String := [matchAcrossKey, linkedKey]

/-- Whether a key names no belief. -/
def isReserved (key : String) : Bool := reservedKeys.contains key

/-- What the filter requires, by ascending slug. -/
def predicates (f : Filter) : List (String × Accepted) :=
  f.entries.filter fun e => !isReserved e.1

/-- Whether the filter requires nothing. -/
def isVacuous (f : Filter) : Bool := f.predicates.isEmpty

/-- The values under a key. -/
def valuesAt (f : Filter) (key : String) : List String :=
  ((f.get? key).map Accepted.values).getD []

/-- The slugs of which any one suffices. -/
def matchAcross (f : Filter) : List String := f.valuesAt matchAcrossKey

/-- The slugs that are given up together with those named. -/
def linked (f : Filter) : List String := f.valuesAt linkedKey

/-! ## JSON -/

/-- The document of accepted values. -/
def Accepted.toJson : Accepted → Json
  | one v => .string v
  | anyOf vs => .strings vs

/-- The accepted values of a document. -/
def Accepted.ofJson? (j : Json) : Option Accepted :=
  (j.string?.map one).or ((j.list? Json.string?).map anyOf)

/-- The document of a filter. -/
def toJson (f : Filter) : Json := .ofDict (f.map fun _ a => a.toJson)

/-- The filter of a document. -/
def ofJson? : Json → Option Filter := Json.dictOf? Accepted.ofJson?

end Filter

/-- The two filters of a pane: what has to be held and what must not be. -/
structure Gate where
  held : Option Filter
  withheld : Option Filter
deriving DecidableEq

namespace Gate

/-- No filters. -/
def none : Gate := ⟨.none, .none⟩

/-- The document of a gate. -/
def toJson (g : Gate) : Json :=
  .objectOf [("heldBeliefs", g.held.map Filter.toJson),
    ("withheldBeliefs", g.withheld.map Filter.toJson)]

/-- The gate of a document. -/
def ofJson? (j : Json) : Option Gate := do
  let fields ← j.record? ["heldBeliefs", "withheldBeliefs"]
  return {
    held := ← Json.optional fields "heldBeliefs" Filter.ofJson?
    withheld := ← Json.optional fields "withheldBeliefs" Filter.ofJson? }

end Gate

end PaneEngine.Belief
