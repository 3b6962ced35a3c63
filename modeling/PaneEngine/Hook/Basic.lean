import PaneEngine.Text.Blank
import PaneEngine.Json.Basic

/-!
# Hooks

A hook is a directive `name(sections)` inside text.  Its sections are separated
by `|` and its end is the first closing parenthesis; a section with a comma is
a list.  Blanks around sections and items do not count.

## Main definitions

* `Hook.Name`, `Hook.Param`, `Hook` — directives;
* `Hook.paramsOf` — the parameters between the parentheses;
* `Hook.scan`, `Hook.find?` — the first directive of a text;
* `Hook.chars` — a directive as written.
-/

namespace PaneEngine

/-- The name of a hook. -/
inductive Hook.Name where
  | identifyAs
  | youtube
  | bunny
  | bunnyContext
  | toggle
  | resource
  | belief
  | signup
deriving DecidableEq

/-- A section of a hook. -/
inductive Hook.Param where
  | scalar (text : String)
  | list (items : List String)
deriving DecidableEq

/-- A directive in a text. -/
structure Hook where
  name : Hook.Name
  params : List Hook.Param
deriving DecidableEq

namespace Hook

namespace Name

/-- All names. -/
def all : List Name :=
  [identifyAs, youtube, bunny, bunnyContext, toggle, resource, belief, signup]

/-- The name as written. -/
def text : Name → String
  | identifyAs => "identifyAs"
  | youtube => "youtube"
  | bunny => "bunny"
  | bunnyContext => "bunnyContext"
  | toggle => "toggle"
  | resource => "resource"
  | belief => "belief"
  | signup => "signup"

/-- The name that is written so. -/
def ofText? (s : String) : Option Name := all.find? fun n => n.text = s

end Name

namespace Param

/-- The text of a scalar. -/
def scalar? : Param → Option String
  | scalar s => some s
  | list _ => none

/-- The items of a list; a scalar is a list of one. -/
def items : Param → List String
  | scalar s => [s]
  | list items => items

/-- The document of a parameter. -/
def toJson : Param → Json
  | scalar s => .string s
  | list items => .strings items

end Param

/-! ## Reading -/

/-- The parameter of a section. -/
def param (raw : List Char) : Param :=
  let cs := Text.trimChars raw
  if cs.contains ',' then
    .list ((cs.splitOn ',').map fun item => String.ofList (Text.trimChars item))
  else .scalar (String.ofList cs)

/-- The parameters of the text between the parentheses. -/
def paramsOf (inner : List Char) : List Param := (inner.splitOn '|').map param

/-- The name that stands at the start of a text with a parenthesis behind it, and the text after
that. -/
def opening? (cs : List Char) : Option (Name × List Char) :=
  Name.all.findSome? fun n =>
    let start := n.text.toList ++ ['(']
    if start.isPrefixOf cs then some (n, cs.drop start.length) else none

/-- A directive that is never closed. -/
structure Unterminated where
  name : Name
deriving DecidableEq

/-- The wording of the error. -/
def Unterminated.message (e : Unterminated) : String :=
  "hook '" ++ e.name.text ++ "' has no closing parenthesis"

/-- The first directive of a text. -/
def scan : List Char → Except Unterminated (Option Hook)
  | [] => .ok none
  | c :: rest =>
    match opening? (c :: rest) with
    | some (name, after) =>
      if after.contains ')' then .ok (some ⟨name, paramsOf (after.takeWhile (· ≠ ')'))⟩)
      else .error ⟨name⟩
    | none => scan rest

/-- The first directive of a text, one that is never closed being none. -/
def find? (s : String) : Option Hook :=
  match scan s.toList with
  | .ok hook => hook
  | .error _ => none

/-! ## Writing -/

/-- A parameter as written. -/
def Param.chars : Param → List Char
  | .scalar s => s.toList
  | .list items => [','].intercalate (items.map String.toList)

/-- A directive as written. -/
def chars (h : Hook) : List Char :=
  h.name.text.toList ++ '(' :: ['|'].intercalate (h.params.map Param.chars) ++ [')']

end Hook

end PaneEngine
