import PaneEngine.Action.Basic
import PaneEngine.Action.Place

/-!
# Targets

An action that leads somewhere has a target: a route inside the site or an
address outside.  Only a bare `storykeep` depends on the page the action is on.

## Main definitions

* `Action.Page` — the page that an action is on;
* `Action.Route`, `Action.Target` — where an action leads;
* `Action.seconds?` — times in a video;
* `Action.target?` — the target of an action.
-/

namespace PaneEngine.Action

/-- The page that an action is on, and the page that is served at the root. -/
structure Page where
  slug : String
  isContext : Bool
  homeSlug : String
deriving DecidableEq

/-- A route inside the site. -/
structure Route where
  path : String
  /-- The page the route lands on, where it names one. -/
  slug : Option String
  /-- A pane on that page. -/
  anchor : Option String
deriving DecidableEq

/-- Where an action leads. -/
inductive Target where
  | internal (route : Route)
  | external (url : String)
deriving DecidableEq

namespace Target

/-- The address of a target. -/
def href : Target → String
  | internal route => route.path
  | external url => url

/-- Whether the target lies outside the site. -/
def isExternal : Target → Bool
  | internal _ => false
  | external _ => true

/-- The page of a target. -/
def slug? : Target → Option String
  | internal route => route.slug
  | external _ => none

/-- The target of a route that names no page. -/
def path (path : String) : Target := internal ⟨path, none, none⟩

/-- The target of a route to a page. -/
def page (path slug : String) : Target := internal ⟨path, some slug, none⟩

/-- The document of a target. -/
def toJson : Target → Json
  | internal route =>
    .objectOf [("kind", some (.string "internal")), ("path", some (.string route.path)),
      ("slug", route.slug.map .string), ("anchor", route.anchor.map .string)]
  | external url => .object [("kind", .string "external"), ("url", .string url)]

end Target

/-! ## Parts of targets -/

/-- A time in seconds: digits, an `s` behind them at most, and a value of 32 bits. -/
def seconds? (s : String) : Option Nat :=
  let cs := s.toList
  let digits := if cs.getLast? = some 's' then cs.dropLast else cs
  let value := digits.foldl (fun n c => n * 10 + (c.toNat - '0'.toNat)) 0
  if !digits.isEmpty && digits.all Char.isDigit && value < Nat.pow 2 32 then some value else none

/-- The target of an address: a secure one leads outside, one from the root leads inside. -/
def urlTarget? (url : String) : Option Target :=
  if Text.beginsWith url "https://" then some (.external url)
  else if Text.beginsWith url "/" then some (.path url)
  else none

/-- The path of a page; the home page is at the root. -/
def Page.pathOf (here : Page) (slug : String) : String :=
  if slug = here.homeSlug then "/" else "/" ++ slug

/-- The path of a context page. -/
def contextPath (slug : String) : String := "/context/" ++ slug

/-- The target of a video on the page at `path`. -/
def videoTarget (path slug : String) (t : Nat) : Target :=
  .page (path ++ "?t=" ++ toString t ++ "s#bunny") slug

/-- The target of a room of the storykeep. -/
def roomTarget? (room : String) : Option Target :=
  if room = "dashboard" then some (.path "/storykeep")
  else if room = "settings" then some (.path "/storykeep/settings")
  else if room = "login" then some (.path "/storykeep/login?force=true")
  else if room = "logout" then some (.path "/storykeep/logout")
  else none

/-- The target of a place with its arguments. -/
def Place.target? (here : Page) : Place → List String → Option Target
  | .home, _ => some (.page "/" here.homeSlug)
  | .storykeep, [] =>
    some (.path ((if here.isContext then contextPath here.slug else "/" ++ here.slug) ++ "/edit"))
  | .storykeep, room :: _ => roomTarget? room
  | .concierge, operation :: _ => some (.path ("/concierge/" ++ operation))
  | .context, slug :: _ => some (.page (contextPath slug) slug)
  | .product, id :: _ => some (.path ("/products/" ++ id))
  | .storyFragment, slug :: _ => some (.page (here.pathOf slug) slug)
  | .storyFragmentPane, slug :: pane :: _ =>
    some (.internal ⟨here.pathOf slug ++ "#" ++ pane, some slug, some pane⟩)
  | .bunny, slug :: t :: _ => (seconds? t).map (videoTarget (here.pathOf slug) slug)
  | .bunnyContext, slug :: t :: _ => (seconds? t).map (videoTarget (contextPath slug) slug)
  | .url, address :: _ => urlTarget? address
  | _, _ => none

/-! ## Targets of actions -/

/-- The place that a call leads to, and its arguments. -/
def goto? (command : String) (params : List Param) : Option (Place × List String) :=
  if command = "goto" then
    match params with
    | first :: _ =>
      match first.words with
      | name :: args => (Place.ofName? name).map fun p => (p, args)
      | [] => none
    | [] => none
  else none

/-- The target of an action; none while it is incomplete or leads nowhere. -/
def target? (here : Page) : Action → Option Target
  | .link url => urlTarget? url
  | .call command params =>
    match goto? command params with
    | some (place, args) =>
      if place.isComplete args || place = .storykeep then place.target? here args else none
    | none => none

end PaneEngine.Action
