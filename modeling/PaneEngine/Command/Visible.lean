import PaneEngine.Command.Input
import PaneEngine.Config.Basic
import PaneEngine.Reveal.Replay

/-!
# The command `visible`

The command decides which panes are visible, for a set of beliefs as it stands
or while events are replayed on it.

## Main definitions

* `Command.Visible`, `Command.Visible.run` — its arguments and its answer.
-/

namespace PaneEngine.Command

open Belief (Filter Gate)
open Reveal (Scene)

/-- The arguments of the command `visible`; the options name files. -/
structure Visible where
  beliefs : Option String
  held : Option String
  withheld : Option String
  panes : Option String
  /-- Whether the beliefs that the held filter names are given up first. -/
  goBack : Bool
  replay : Option String
deriving DecidableEq

namespace Visible

/-- The document of events. -/
def eventsJson (events : List Event) : Json := .array (events.map Event.toJson)

/-- The document of the visibility of panes. -/
def visibilityJson (v : Dict Bool) : Json := .ofDict (v.map fun _ b => .bool b)

/-- The document of a replay. -/
def replayJson (panes : Dict Gate) (s : Scene) : Json :=
  .object [("visibility", visibilityJson (Belief.visibility panes s.beliefs)),
    ("surfaceOps", .ofDict (s.drivers.map fun _ d => .strings (d.acts.map Reveal.Act.name))),
    ("beliefs", s.beliefs.toJson), ("events", eventsJson s.events)]

/-- The document of a decision. -/
def decisionJson (gate : Gate) (panes : Option (Dict Gate)) (bs : Beliefs) (events : List Event) :
    Json :=
  let decision := match panes with
    | some panes => ("visibility", visibilityJson (Belief.visibility panes bs))
    | none => ("visible", Json.bool (gate.isOpen bs))
  .object [decision, ("beliefs", bs.toJson), ("events", eventsJson events)]

/-- The beliefs after going back, if that is asked for, and the events of it. -/
def start (v : Visible) (bs : Beliefs) (held : Option Filter) :
    Except Error (Beliefs × List Event) :=
  match v.goBack, held with
  | false, _ => .ok (bs, [])
  | true, none => .error .goBackWithoutHeld
  | true, some held =>
    let change := bs.goBack held
    .ok (change.beliefs, change.events)

/-- The answer of the command `visible`. -/
def run (config : Config) (files : Files) (v : Visible) : Except Error Json := do
  let bs ← ifGiven (readBeliefs files (Json.list? Belief.ofJson?)) v.beliefs
  let held ← ifGiven (readBeliefs files Filter.ofJson?) v.held
  let withheld ← ifGiven (readBeliefs files Filter.ofJson?) v.withheld
  let panes ← ifGiven (readBeliefs files (Json.dictOf? Gate.ofJson?)) v.panes
  let steps ← ifGiven (readBeliefs files (Json.list? Reveal.Step.ofJson?)) v.replay
  let bs := Beliefs.ofList (bs.getD [])
  match steps with
  | some steps =>
    let panes := panes.getD .empty
    return replayJson panes (Reveal.replay bs panes config.timing steps)
  | none =>
    let (bs, events) ← v.start bs held
    return decisionJson ⟨held, withheld⟩ panes bs events

end Visible

end PaneEngine.Command
