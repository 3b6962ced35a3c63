import PaneEngine.Action.Cue

/-!
# Buttons

A link whose address has a button payload takes its behaviour from the action
in the payload: an action that leads somewhere and starts no video stays a link
to its target, any other becomes a button without an address.

## Main definitions

* `Button` — the payload of a button;
* `Button.rendering` — how the link renders on a page.
-/

namespace PaneEngine

/-- The behaviour that is attached to the address of a link. -/
structure Button where
  /-- The action expression. -/
  callback : String
  className : Option String
  classes : Dict (List String)
  hoverClasses : Dict (List String)
  isExternal : Option Bool
  cue : Option VideoCue
deriving DecidableEq

namespace Button

/-- The document of classes. -/
def classesJson (d : Dict (List String)) : Json := .ofDict (d.map fun _ l => .strings l)

/-- The document of a payload. -/
def toJson (b : Button) : Json :=
  .objectOf [("callbackPayload", some (.string b.callback)), ("className", b.className.map .string),
    ("buttonClasses", some (classesJson b.classes)),
    ("buttonHoverClasses", some (classesJson b.hoverClasses)),
    ("isExternalUrl", b.isExternal.map .bool), ("bunnyPayload", b.cue.map VideoCue.toJson)]

/-- The payload of a document. -/
def ofJson? (j : Json) : Option Button := do
  let fields ← j.record? ["callbackPayload", "className", "buttonClasses", "buttonHoverClasses",
    "isExternalUrl", "bunnyPayload"]
  let classes (name : String) : Option (Dict (List String)) :=
    Json.defaulted fields name (Json.dictOf? (Json.list? Json.string?)) .empty
  return {
    callback := ← Json.defaulted fields "callbackPayload" Json.string? ""
    className := ← Json.optional fields "className" Json.string?
    classes := ← classes "buttonClasses"
    hoverClasses := ← classes "buttonHoverClasses"
    isExternal := ← Json.optional fields "isExternalUrl" Json.bool?
    cue := ← Json.optional fields "bunnyPayload" VideoCue.ofJson? }

/-- How a link with a payload renders. -/
structure Rendering where
  /-- `a` or `button`. -/
  tag : String
  href : Option String
  button : Button
deriving DecidableEq

/-- How a link renders whose payload resolves to `r`. -/
def renderingOf (b : Button) (r : Action.Resolution) : Rendering :=
  let b := { b with isExternal := r.target.map Action.Target.isExternal, cue := r.cue }
  match r.target, r.cue with
  | some target, none => ⟨"a", some target.href, b⟩
  | _, _ => ⟨"button", none, b⟩

/-- How the link renders on a page. -/
def rendering (here : Action.Page) (b : Button) : Rendering :=
  b.renderingOf (Action.resolve here b.callback)

end Button

end PaneEngine
