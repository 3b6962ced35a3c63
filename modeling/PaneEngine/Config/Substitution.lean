import PaneEngine.Config.Reference
import PaneEngine.Json.Basic

/-!
# Substitution in documents

The references in all texts of a document are replaced, in the order of the
document.  The first variable that is missing is reported with the path of the
text that refers to it.

## Main definitions

* `Config.MissingVariable` — a reference that has no value;
* `Config.substitute` — the document with its references replaced;
* `Config.variableNames` — the variables that a document refers to.
-/

namespace PaneEngine.Config

/-- A reference to a variable that is not set or empty. -/
structure MissingVariable where
  name : String
  /-- The path of the text that refers to it. -/
  path : String
deriving DecidableEq

/-- The wording of the error. -/
def MissingVariable.message (e : MissingVariable) : String :=
  "Missing env var \"" ++ e.name ++ "\" referenced at config path: " ++ e.path

/-- The path of a member. -/
def memberPath (path key : String) : String := if path.isEmpty then key else path ++ "." ++ key

/-- The path of an item. -/
def itemPath (path : String) (index : Nat) : String := path ++ "[" ++ toString index ++ "]"

mutual

/-- The document at a path with its references replaced. -/
def substituteAt (env : Environment) (path : String) : Json → Except MissingVariable Json
  | .string s =>
    match expand env s with
    | .ok s => .ok (.string s)
    | .error name => .error ⟨name, path⟩
  | .array items => (substituteItems env path 0 items).map .array
  | .object members => (substituteMembers env path members).map .object
  | j => .ok j

/-- The items of an array from a number on. -/
def substituteItems (env : Environment) (path : String) (index : Nat) :
    List Json → Except MissingVariable (List Json)
  | [] => .ok []
  | j :: rest => do
    let j ← substituteAt env (itemPath path index) j
    let rest ← substituteItems env path (index + 1) rest
    return j :: rest

/-- The members of an object. -/
def substituteMembers (env : Environment) (path : String) :
    List (String × Json) → Except MissingVariable (List (String × Json))
  | [] => .ok []
  | (key, j) :: rest => do
    let j ← substituteAt env (memberPath path key) j
    let rest ← substituteMembers env path rest
    return (key, j) :: rest

end

/-- The document with its references replaced. -/
def substitute (env : Environment) (j : Json) : Except MissingVariable Json :=
  substituteAt env "" j

/-! ## The variables of a document -/

/-- The variable that a piece stands for. -/
def Piece.variable? : Piece → Option String
  | char _ | reference true _ => none
  | reference false name => some (String.ofList name)

mutual

/-- The variables that a document refers to, in order. -/
def variableNames : Json → List String
  | .string s => (pieces s.toList).filterMap Piece.variable?
  | .array items => itemVariableNames items
  | .object members => memberVariableNames members
  | _ => []

/-- The variables that items refer to. -/
def itemVariableNames : List Json → List String
  | [] => []
  | j :: rest => variableNames j ++ itemVariableNames rest

/-- The variables that members refer to. -/
def memberVariableNames : List (String × Json) → List String
  | [] => []
  | (_, j) :: rest => variableNames j ++ memberVariableNames rest

end

end PaneEngine.Config
