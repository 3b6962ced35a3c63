import PaneEngine.Belief.Filter

/-!
# Visibility

A pane is visible when the beliefs of the visitor satisfy its held filter and
do not trigger its withheld filter.  A filter that is missing or requires
nothing is satisfied and never triggered.

## Main definitions

* `Belief.matchesValue` — when a belief has a required value;
* `Belief.reveals`, `Belief.withholds` — the decisions of the two filters;
* `Belief.Gate.isOpen`, `Belief.visibility` — whether panes are visible.
-/

namespace PaneEngine.Belief

/-- The value that every belief has. -/
def anyValue : String := "*"

/-- Whether a belief has a value: it is the verb, or the object. -/
def matchesValue (b : Belief) (value : String) : Bool :=
  value = anyValue || b.verb = value || b.object = some value

/-- Whether a belief about the slug is held that has one of the accepted values. -/
def satisfies (bs : Beliefs) (predicate : String × Filter.Accepted) : Bool :=
  match bs.get? predicate.1 with
  | some b => predicate.2.values.any b.matchesValue
  | none => false

/-- Whether a held filter is satisfied: every predicate is, but of those that match across one
is enough. -/
def revealsBy (f : Filter) (bs : Beliefs) : Bool :=
  let (across, single) := f.predicates.partition fun p => f.matchAcross.contains p.1
  single.all (satisfies bs) && (across.isEmpty || across.any (satisfies bs))

/-- Whether a withheld filter is triggered: a single predicate is enough. -/
def withholdsBy (f : Filter) (bs : Beliefs) : Bool := f.predicates.any (satisfies bs)

/-- Whether a held filter lets the pane be seen. -/
def reveals (f : Option Filter) (bs : Beliefs) : Bool := f.all fun f => revealsBy f bs

/-- Whether a withheld filter keeps the pane from being seen. -/
def withholds (f : Option Filter) (bs : Beliefs) : Bool := f.any fun f => withholdsBy f bs

/-- Whether the pane behind a gate is visible. -/
def Gate.isOpen (g : Gate) (bs : Beliefs) : Bool := reveals g.held bs && !withholds g.withheld bs

/-- Which panes are visible. -/
def visibility (panes : Dict Gate) (bs : Beliefs) : Dict Bool := panes.map fun _ g => g.isOpen bs

end PaneEngine.Belief
