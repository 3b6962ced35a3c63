/-!
# Places

The places that a `goto` can lead to, and what has to follow their names.

## Main definitions

* `Action.Place` — the places;
* `Action.Place.arity`, `Action.Place.isComplete` — the arguments they need.
-/

namespace PaneEngine.Action

/-- A place that `goto` leads to. -/
inductive Place where
  | storykeep
  | home
  | concierge
  | context
  | product
  | storyFragment
  | storyFragmentPane
  | bunny
  | bunnyContext
  | url
deriving DecidableEq

/-- What has to follow the name of a place. -/
inductive Arity where
  | none
  /-- One of these words. -/
  | oneOf (words : List String)
  | one
  | two
deriving DecidableEq

namespace Place

/-- All places. -/
def all : List Place :=
  [storykeep, home, concierge, context, product, storyFragment, storyFragmentPane, bunny,
   bunnyContext, url]

/-- The name of a place. -/
def name : Place → String
  | storykeep => "storykeep"
  | home => "home"
  | concierge => "concierge"
  | context => "context"
  | product => "product"
  | storyFragment => "storyFragment"
  | storyFragmentPane => "storyFragmentPane"
  | bunny => "bunny"
  | bunnyContext => "bunnyContext"
  | url => "url"

/-- The place with that name. -/
def ofName? (s : String) : Option Place := all.find? fun p => p.name = s

/-- The rooms of the storykeep. -/
def rooms : List String := ["dashboard", "settings", "login", "logout"]

/-- What has to follow the name of a place. -/
def arity : Place → Arity
  | home => .none
  | storykeep => .oneOf rooms
  | concierge | context | product | storyFragment | url => .one
  | storyFragmentPane | bunny | bunnyContext => .two

/-- Whether the arguments fill every slot of the place; further ones do not matter. -/
def isComplete (p : Place) (args : List String) : Bool :=
  match p.arity with
  | .none => true
  | .oneOf words => args.head?.any fun a => words.contains a
  | .one => 1 ≤ args.length
  | .two => 2 ≤ args.length

end Place

end PaneEngine.Action
