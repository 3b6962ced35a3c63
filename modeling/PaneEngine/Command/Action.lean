import PaneEngine.Action.Click
import PaneEngine.Config.Basic

/-!
# The command `action`

The command resolves an action expression and clicks on it.

## Main definitions

* `Command.Action`, `Command.Action.run` — its arguments and its answer.
-/

namespace PaneEngine.Command

/-- The arguments of the command `action`. -/
structure Action where
  expression : String
  /-- The page that is clicked on, the home page unless given. -/
  slug : Option String
  isContext : Bool
  pane : String
deriving DecidableEq

/-- The pane that is clicked on unless given. -/
def Action.standardPane : String := "pane"

/-- A page that is given by its slug, or the home page. -/
def pageOf (config : Config) (slug : Option String) (isContext : Bool) : PaneEngine.Action.Page :=
  ⟨slug.getD config.homeSlug, isContext, config.homeSlug⟩

/-- The answer of the command `action`. -/
def Action.run (config : Config) (a : Action) : Json :=
  let here := pageOf config a.slug a.isContext
  let r := PaneEngine.Action.resolve here a.expression
  let (outcome, events) := PaneEngine.Action.click here r a.pane []
  .object [("actionable", .bool r.isActionable),
    ("target", .ofOption (r.target.map PaneEngine.Action.Target.toJson)),
    ("cue", .ofOption (r.cue.map VideoCue.toJson)), ("outcome", outcome.toJson),
    ("events", .array (events.map Event.toJson))]

end PaneEngine.Command
