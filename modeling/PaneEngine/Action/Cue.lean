import PaneEngine.Action.Target
import PaneEngine.VideoCue

/-!
# What an action resolves to

An action may start a video besides leading to the page that shows it.  Target
and cue are read off the same action, so they name the same page and the same
second.

## Main definitions

* `Action.cue?` — the cue of an action;
* `Action.Resolution`, `Action.resolve` — target and cue of a text.
-/

namespace PaneEngine.Action

/-- The cue of a moment in a video on the page that the action is on. -/
def momentCue? (here : Page) (params : List Param) : Option VideoCue :=
  match params with
  | first :: _ =>
    match first.words with
    | video :: t :: _ =>
      (seconds? t).map fun t => ⟨t, some video, some here.slug, here.isContext⟩
    | _ => none
  | [] => none

/-- The cue of a place with its arguments. -/
def Place.cue? : Place → List String → Option VideoCue
  | .bunny, slug :: t :: _ => (seconds? t).map fun t => ⟨t, none, some slug, false⟩
  | .bunnyContext, slug :: t :: _ => (seconds? t).map fun t => ⟨t, none, some slug, true⟩
  | _, _ => none

/-- The cue of an action. -/
def cue? (here : Page) : Action → Option VideoCue
  | .link _ => none
  | .call command params =>
    if command = "bunnyMoment" then momentCue? here params
    else match goto? command params with
      | some (place, args) => place.cue? args
      | none => none

/-- What an action resolves to. -/
structure Resolution where
  target : Option Target
  cue : Option VideoCue
deriving DecidableEq

/-- Whether a click does anything. -/
def Resolution.isActionable (r : Resolution) : Bool := r.target.isSome || r.cue.isSome

/-- What a text resolves to; one that is no action resolves to nothing. -/
def resolve (here : Page) (s : String) : Resolution :=
  match parse s with
  | .ok action => ⟨action.target? here, action.cue? here⟩
  | .error _ => ⟨none, none⟩

end PaneEngine.Action
