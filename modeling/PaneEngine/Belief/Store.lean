import PaneEngine.Belief.Filter
import PaneEngine.Event

/-!
# Changing beliefs

The beliefs of a visitor change by four operations.  Each tells whether the
subscribers are notified and which events record what it did; taking on a
belief always notifies, the others only when they change something.

## Main definitions

* `Beliefs.hold`, `Beliefs.release`, `Beliefs.apply`, `Beliefs.goBack` — the operations;
* `Beliefs.Change` — what an operation does;
* `Beliefs.Operation.step` — operations as data.
-/

namespace PaneEngine.Beliefs

/-- What an operation does. -/
structure Change where
  /-- The beliefs afterwards. -/
  beliefs : Beliefs
  /-- Whether the subscribers are notified. -/
  notified : Bool
  /-- The events that record it. -/
  events : List Event
deriving DecidableEq

/-- The event of a belief that is taken on. -/
def holdEvent (b : Belief) : Event := .belief b.slug b.verb b.object

/-- The event of a belief that is given up. -/
def releaseEvent (slug : String) : Event := .belief slug Event.unsetVerb (some "true")

/-- The belief that an event sets. -/
def beliefOf (e : Event) : Belief := ⟨e.id, e.verb, e.object⟩

/-- Takes on a belief in place of any other about its slug. -/
def hold (bs : Beliefs) (b : Belief) : Change := ⟨bs.insert b.slug b, true, [holdEvent b]⟩

/-- Gives up the belief about a slug. -/
def release (bs : Beliefs) (slug : String) : Change :=
  if bs.contains slug then ⟨bs.erase slug, true, [releaseEvent slug]⟩ else ⟨bs, false, []⟩

/-- Does what an event says.  Events that are not about beliefs say nothing. -/
def apply (bs : Beliefs) (e : Event) : Change :=
  if e.kind ≠ .belief then ⟨bs, false, []⟩
  else if e.isUnset then { bs.release e.id with events := if bs.contains e.id then [e] else [] }
  else if bs.get? e.id = some (beliefOf e) then ⟨bs, false, []⟩
  else ⟨bs.insert e.id (beliefOf e), true, [e]⟩

/-- The slugs that are given up on the way back: those that the filter requires, and behind them
the linked ones in order of their first mention. -/
def backSlugs (held : Belief.Filter) : List String :=
  (held.predicates.map (·.1) ++ held.linked).eraseDups

/-- Gives up the beliefs that a held filter requires and those linked to them. -/
def goBack (bs : Beliefs) (held : Belief.Filter) : Change :=
  let slugs := backSlugs held
  let rest := bs.filter fun slug _ => !slugs.contains slug
  ⟨rest, rest.entries.length ≠ bs.entries.length, slugs.map releaseEvent⟩

/-! ## Operations as data -/

/-- An operation on beliefs. -/
inductive Operation where
  | hold (b : Belief)
  | release (slug : String)
  | apply (e : Event)
  | goBack (held : Belief.Filter)
deriving DecidableEq

/-- What an operation does to beliefs. -/
def Operation.step (bs : Beliefs) : Operation → Change
  | .hold b => bs.hold b
  | .release slug => bs.release slug
  | .apply e => bs.apply e
  | .goBack held => bs.goBack held

end PaneEngine.Beliefs
