import PaneEngine.Json.Decode

/-!
# Beliefs

A visitor holds beliefs: about each slug at most one, with a verb and possibly
an object.

## Main definitions

* `Belief` — a belief;
* `Beliefs`, `Beliefs.ofList` — what a visitor holds;
* `Belief.toJson`, `Belief.ofJson?` — beliefs as JSON.
-/

namespace PaneEngine

/-- A belief that a visitor holds. -/
structure Belief where
  slug : String
  verb : String
  object : Option String
deriving DecidableEq

namespace Belief

/-- The document of a belief. -/
def toJson (b : Belief) : Json :=
  .objectOf [("slug", some (.string b.slug)), ("verb", some (.string b.verb)),
    ("object", b.object.map .string)]

/-- The belief of a document. -/
def ofJson? (j : Json) : Option Belief := do
  let fields ← j.record? ["slug", "verb", "object"]
  return {
    slug := ← Json.required fields "slug" Json.string?
    verb := ← Json.required fields "verb" Json.string?
    object := ← Json.optional fields "object" Json.string? }

end Belief

/-- The beliefs of a visitor by their slugs. -/
abbrev Beliefs := Dict Belief

namespace Beliefs

/-- The beliefs of a list; of two about one slug the later one is held. -/
def ofList (bs : List Belief) : Beliefs := Dict.ofList (bs.map fun b => (b.slug, b))

/-- The beliefs in order of their slugs. -/
def toList (bs : Beliefs) : List Belief := bs.entries.map (·.2)

/-- The document of beliefs. -/
def toJson (bs : Beliefs) : Json := .array (bs.toList.map Belief.toJson)

end Beliefs

end PaneEngine
