import PaneEngine.Json.Decode

/-!
# Events

What a visitor does on a pane is recorded as a sequence of events: following a
link, starting a video, and setting or removing a belief.  The id of a belief
event is the slug of the belief.

## Main definitions

* `Event`, `Event.Kind` — the events;
* `Event.paneClicked`, `Event.startVideo`, `Event.belief` — the events of each kind;
* `Event.toJson`, `Event.ofJson?` — events as JSON.
-/

namespace PaneEngine

/-- What an event is about. -/
inductive Event.Kind where
  | paneClicked
  | startVideo
  | belief
deriving DecidableEq

/-- Something a visitor did. -/
structure Event where
  id : String
  kind : Event.Kind
  verb : String
  object : Option String
  targetSlug : Option String
deriving DecidableEq

namespace Event

/-- The verb of a followed link. -/
def clickedVerb : String := "CLICKED"

/-- The verb of a started video. -/
def watchedVerb : String := "WATCHED"

/-- The verb that removes a belief. -/
def unsetVerb : String := "UNSET"

/-- A link on a pane was followed to a page. -/
def paneClicked (pane slug : String) : Event := ⟨pane, .paneClicked, clickedVerb, none, some slug⟩

/-- A video was started on the page of a pane. -/
def startVideo (pane slug : String) : Event := ⟨pane, .startVideo, watchedVerb, none, some slug⟩

/-- A belief was set, or removed by the reserved verb. -/
def belief (slug verb : String) (object : Option String) : Event :=
  ⟨slug, .belief, verb, object, none⟩

/-- Whether the event removes a belief. -/
def isUnset (e : Event) : Bool := e.kind = .belief && e.verb = unsetVerb

/-! ## JSON -/

/-- All kinds. -/
def Kind.all : List Kind := [.paneClicked, .startVideo, .belief]

/-- The name of a kind. -/
def Kind.name : Kind → String
  | .paneClicked => "PaneClicked"
  | .startVideo => "StartVideo"
  | .belief => "Belief"

/-- The kind with that name. -/
def Kind.ofName? (name : String) : Option Kind := Kind.all.find? fun k => k.name = name

/-- A kind is its name, or an object with the name as only key and `null` as its value. -/
def Kind.ofJson? : Json → Option Kind
  | .string name => Kind.ofName? name
  | .object [(name, .null)] => Kind.ofName? name
  | _ => none

/-- The document of an event. -/
def toJson (e : Event) : Json :=
  .objectOf [("id", some (.string e.id)), ("type", some (.string e.kind.name)),
    ("verb", some (.string e.verb)), ("object", e.object.map .string),
    ("targetSlug", e.targetSlug.map .string)]

/-- The event of a document. -/
def ofJson? (j : Json) : Option Event := do
  let fields ← j.record? ["id", "type", "verb", "object", "targetSlug"]
  return {
    id := ← Json.required fields "id" Json.string?
    kind := ← Json.required fields "type" Kind.ofJson?
    verb := ← Json.required fields "verb" Json.string?
    object := ← Json.optional fields "object" Json.string?
    targetSlug := ← Json.optional fields "targetSlug" Json.string? }

end Event

end PaneEngine
