import PaneEngine.Action.Cue
import PaneEngine.Event

/-!
# Clicks

A cue for the page that is being viewed seeks the video in place; everything
else that has a target navigates there.  Both are recorded, a navigation only
where its target names a page.

## Main definitions

* `Action.Outcome` — what a click does;
* `Action.click` — the outcome of a click and the events after it.
-/

namespace PaneEngine.Action

/-- What a click does. -/
inductive Outcome where
  | navigate (target : Target)
  | seekVideo (cue : VideoCue)
  /-- The action does nothing yet. -/
  | inert
deriving DecidableEq

/-- The document of an outcome. -/
def Outcome.toJson : Outcome → Json
  | .navigate target => .object [("outcome", .string "navigate"), ("detail", target.toJson)]
  | .seekVideo cue => .object [("outcome", .string "seekVideo"), ("detail", cue.toJson)]
  | .inert => .object [("outcome", .string "inert")]

/-- The page of a cue, the page in view unless the cue names another. -/
def cueSlug (here : Page) (cue : VideoCue) : String := cue.slug.getD here.slug

/-- Whether a cue is for the page in view. -/
def isHere (here : Page) (cue : VideoCue) : Bool :=
  cueSlug here cue = here.slug && cue.isContext = here.isContext

/-- The outcome of a click that does not seek. -/
def follow (r : Resolution) (pane : String) (events : List Event) : Outcome × List Event :=
  match r.target with
  | none => (.inert, events)
  | some target =>
    (.navigate target, events ++ (target.slug?.map (Event.paneClicked pane)).toList)

/-- The outcome of a click on a pane, and the events with what it records. -/
def click (here : Page) (r : Resolution) (pane : String) (events : List Event) :
    Outcome × List Event :=
  match r.cue with
  | some cue =>
    if isHere here cue then
      (.seekVideo cue, events ++ [Event.startVideo pane (cueSlug here cue)])
    else follow r pane events
  | none => follow r pane events

end PaneEngine.Action
