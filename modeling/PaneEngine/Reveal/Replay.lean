import PaneEngine.Belief.Store
import PaneEngine.Reveal.Driver

/-!
# Replays

A replay plays timed events against the panes of a page.  The events of one
millisecond all take effect before any pane is evaluated; the panes are
evaluated at the start and then once in every millisecond in which an event
changes the beliefs.  At the end the clock runs on until the last scroll has
been done.

## Main definitions

* `Reveal.Step`, `Reveal.moments` — timed events, and those of each millisecond;
* `Reveal.Scene` — a page with its panes, the beliefs and the events so far;
* `Reveal.replay` — the page after all events.
-/

namespace PaneEngine.Reveal

open Belief (Gate)

/-- An event at a time in milliseconds. -/
structure Step where
  time : Nat
  event : Event
deriving DecidableEq

/-- The timed event of a document. -/
def Step.ofJson? (j : Json) : Option Step := do
  let fields ← j.record? ["atMs", "event"]
  return {
    time := ← Json.required fields "atMs" (Json.natBelow? 64)
    event := ← Json.required fields "event" Event.ofJson? }

/-- Steps by ascending time, those of one time in the order given. -/
def inOrder (steps : List Step) : List Step := steps.mergeSort fun a b => a.time ≤ b.time

/-- The events of steps in order, by the millisecond. -/
def moments : List Step → List (Nat × List Event)
  | [] => []
  | step :: rest =>
    match moments rest with
    | (time, events) :: more =>
      if step.time = time then (time, step.event :: events) :: more
      else (step.time, [step.event]) :: (time, events) :: more
    | [] => [(step.time, [step.event])]

/-- The moments with one at the start, even if nothing happens then. -/
def withStart : List (Nat × List Event) → List (Nat × List Event)
  | (0, events) :: more => (0, events) :: more
  | ms => (0, []) :: ms

/-! ## Scenes -/

/-- A page while events are played. -/
structure Scene where
  beliefs : Beliefs
  drivers : Dict Driver
  /-- The events that have changed the beliefs. -/
  events : List Event
  /-- Whether the panes have yet to be evaluated on the beliefs. -/
  isStale : Bool

namespace Scene

/-- The page before any event. -/
def start (bs : Beliefs) (panes : Dict Gate) (timing : Timing) : Scene :=
  ⟨bs, panes.map fun _ gate => .start gate timing, [], true⟩

/-- An event takes effect. -/
def receive (s : Scene) (e : Event) : Scene :=
  let change := s.beliefs.apply e
  { s with
    beliefs := change.beliefs, events := s.events ++ change.events
    isStale := s.isStale || change.notified }

/-- Lets time pass on all panes. -/
def waitUntil (s : Scene) (time : Nat) : Scene :=
  { s with drivers := s.drivers.map fun _ d => d.waitUntil time }

/-- Evaluates the panes if the beliefs have changed. -/
def refresh (s : Scene) : Scene :=
  if s.isStale then
    { s with drivers := s.drivers.map fun _ d => d.evaluate s.beliefs, isStale := false }
  else s

/-- The events of one moment take effect, and the panes follow. -/
def play (s : Scene) (moment : Nat × List Event) : Scene :=
  (moment.2.foldl receive (s.waitUntil moment.1)).refresh

end Scene

/-- The time of the last step. -/
def lastTime (steps : List Step) : Nat := steps.foldl (fun t step => max t step.time) 0

/-- The page after all events, and after the last scroll. -/
def replay (bs : Beliefs) (panes : Dict Gate) (timing : Timing) (steps : List Step) : Scene :=
  ((withStart (moments (inOrder steps))).foldl Scene.play (.start bs panes timing)).waitUntil
    (lastTime steps + timing.scrollDelay + 1)

end PaneEngine.Reveal
