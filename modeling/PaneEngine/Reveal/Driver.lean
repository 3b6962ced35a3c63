import PaneEngine.Belief.Visibility

/-!
# Reveal drivers

A driver keeps one rendered pane in line with the beliefs of the visitor.  It
shows or hides the pane at every evaluation, and when a pane appears some time
after the page was loaded it scrolls the pane into view after a short delay.  A
change of visibility before that cancels the scroll.

A driver lives on a clock that counts milliseconds and stands still between
calls; only waiting advances it.

## Main definitions

* `Reveal.Timing`, `Reveal.Act` — delays, and what is done to a pane;
* `Reveal.Driver` — a driver with its clock and the trace of its acts;
* `Reveal.Driver.evaluate`, `Reveal.Driver.wait`, `Reveal.Driver.pageLoaded` — the calls;
* `Reveal.Call`, `Reveal.Driver.call` — calls as data.
-/

namespace PaneEngine.Reveal

open Belief (Gate)

/-- Delays in milliseconds. -/
structure Timing where
  /-- How long after the loading of the page nothing is scrolled. -/
  settle : Nat
  /-- How long after the appearance of a pane it is scrolled to. -/
  scrollDelay : Nat
deriving DecidableEq

/-- The delays unless configured otherwise. -/
def Timing.standard : Timing := ⟨5000, 50⟩

/-- What is done to a pane. -/
inductive Act where
  | reveal
  | conceal
  | scroll
deriving DecidableEq

/-- The name of an act. -/
def Act.name : Act → String
  | reveal => "show"
  | conceal => "hide"
  | scroll => "scroll"

/-- The inline styles of a pane that is shown. -/
def visibleStyle : List (String × String) :=
  [("opacity", "1"), ("height", "auto"), ("overflow", "visible"), ("clip-path", "none"),
   ("margin", "")]

/-- The inline styles of a pane that is hidden: it collapses but keeps its place in the layout. -/
def collapsedStyle : List (String × String) :=
  [("opacity", "0"), ("height", "0"), ("overflow", "hidden"), ("clip-path", "inset(50%)"),
   ("margin", "0")]

/-- A driver of one pane. -/
structure Driver where
  gate : Gate
  timing : Timing
  now : Nat
  /-- When the page was last loaded. -/
  loadedAt : Nat
  /-- The decision of the latest evaluation. -/
  visible : Option Bool
  /-- When the scroll that is pending falls due. -/
  due : Option Nat
  /-- What was done to the pane and when, the latest last. -/
  trace : List (Nat × Act)
deriving DecidableEq

namespace Driver

/-- A driver of a pane on a page that has just been loaded. -/
def start (gate : Gate) (timing : Timing) : Driver := ⟨gate, timing, 0, 0, none, none, []⟩

/-- Whether the page was loaded long enough ago. -/
def isSettled (d : Driver) : Bool := d.loadedAt + d.timing.settle ≤ d.now

/-- Whether a decision makes the pane appear: not the first one, and not before the page has
settled. -/
def appears (d : Driver) (visible : Bool) : Bool :=
  visible && d.visible = some false && d.isSettled

/-- When a scroll falls due after a decision. -/
def dueAfter (d : Driver) (visible : Bool) : Option Nat :=
  if d.appears visible then some (d.now + d.timing.scrollDelay)
  else if d.visible = some visible then d.due
  else none

/-- Brings the pane in line with a decision. -/
def settleOn (d : Driver) (visible : Bool) : Driver :=
  { d with
    visible := some visible, due := d.dueAfter visible
    trace := d.trace ++ [(d.now, if visible then .reveal else .conceal)] }

/-- Brings the pane in line with beliefs. -/
def evaluate (d : Driver) (bs : Beliefs) : Driver := d.settleOn (d.gate.isOpen bs)

/-- Lets time pass until `time`; a scroll that falls due by then is done. -/
def waitUntil (d : Driver) (time : Nat) : Driver :=
  match d.due with
  | some due =>
    if due ≤ time then { d with now := time, due := none, trace := d.trace ++ [(due, .scroll)] }
    else { d with now := time }
  | none => { d with now := time }

/-- Lets time pass. -/
def wait (d : Driver) (ms : Nat) : Driver := d.waitUntil (d.now + ms)

/-- The page has been loaded anew. -/
def pageLoaded (d : Driver) : Driver := { d with loadedAt := d.now }

/-- What was done to the pane, the latest last. -/
def acts (d : Driver) : List Act := d.trace.map (·.2)

end Driver

/-! ## Calls as data -/

/-- A call of a driver. -/
inductive Call where
  | evaluate (bs : Beliefs)
  | wait (ms : Nat)
  | pageLoaded
deriving DecidableEq

/-- The driver after a call. -/
def Driver.call (d : Driver) : Call → Driver
  | .evaluate bs => d.evaluate bs
  | .wait ms => d.wait ms
  | .pageLoaded => d.pageLoaded

/-- The driver after calls. -/
def Driver.run (d : Driver) (calls : List Call) : Driver := calls.foldl Driver.call d

end PaneEngine.Reveal
