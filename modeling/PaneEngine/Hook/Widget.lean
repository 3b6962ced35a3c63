import PaneEngine.Hook.Basic

/-!
# Widgets

A hook names an interactive widget; its parameters are the settings of the
widget in order.  A setting that is missing or empty has a value of its own.

## Main definitions

* `Hook.Widget` — the widgets;
* `Hook.widget` — the widget of a directive;
* `Hook.Widget.toJson` — widgets as JSON.
-/

namespace PaneEngine.Hook

/-- An interactive widget with its settings. -/
inductive Widget where
  | belief (slug scale prompt : String)
  | identifyAs (slug : String) (targets : List String) (prompt : String)
  | toggle (slug prompt : String)
  | youtube (embed title : String)
  | bunny (embed title : String) (context : Bool)
  | resource (kind variation : String)
  | signup (persona prompt : String) (clarifyConsent : Bool)
deriving DecidableEq

/-- The setting at a position as one text; the items of a list are joined by commas. -/
def setting (params : List Param) (index : Nat) (missing : String) : String :=
  match params[index]? with
  | some (.scalar s) => if s.isEmpty then missing else s
  | some (.list items) => ",".intercalate items
  | none => missing

/-- The setting at a position as a list, a star if it is missing or empty. -/
def listSetting (params : List Param) (index : Nat) : List String :=
  match params[index]? with
  | some (.scalar s) => if s.isEmpty then ["*"] else [s]
  | some (.list items) => items
  | none => ["*"]

/-- The widget of a directive. -/
def widget (h : Hook) : Widget :=
  let get := setting h.params
  match h.name with
  | .belief => .belief (get 0 "BELIEF") (get 1 "yn") (get 2 "Prompt")
  | .identifyAs => .identifyAs (get 0 "BELIEF") (listSetting h.params 1) (get 2 "Prompt")
  | .toggle => .toggle (get 0 "BELIEF") (get 1 "Prompt")
  | .youtube => .youtube (get 0 "*") (get 1 "Descriptive Title")
  | .bunny => .bunny (get 0 "*") (get 1 "Descriptive Title") false
  | .bunnyContext => .bunny (get 0 "*") (get 1 "Descriptive Title") true
  | .resource => .resource (get 0 "?") (get 1 "?")
  | .signup =>
    .signup (get 0 "Major Updates Only") (get 1 "Keep in touch!") (get 2 "false" = "true")

/-- The document of a widget. -/
def Widget.toJson : Widget → Json
  | .belief slug scale prompt =>
    .object [("widget", .string "belief"), ("slug", .string slug), ("scale", .string scale),
      ("prompt", .string prompt)]
  | .identifyAs slug targets prompt =>
    .object [("widget", .string "identifyAs"), ("slug", .string slug),
      ("targets", .strings targets), ("prompt", .string prompt)]
  | .toggle slug prompt =>
    .object [("widget", .string "toggle"), ("slug", .string slug), ("prompt", .string prompt)]
  | .youtube embed title =>
    .object [("widget", .string "youtube"), ("embed", .string embed), ("title", .string title)]
  | .bunny embed title context =>
    .object [("widget", .string "bunny"), ("embed", .string embed), ("title", .string title),
      ("context", .bool context)]
  | .resource kind variation =>
    .object [("widget", .string "resource"), ("kind", .string kind),
      ("variation", .string variation)]
  | .signup persona prompt clarifyConsent =>
    .object [("widget", .string "signup"), ("persona", .string persona),
      ("prompt", .string prompt), ("clarifyConsent", .bool clarifyConsent)]

end PaneEngine.Hook
