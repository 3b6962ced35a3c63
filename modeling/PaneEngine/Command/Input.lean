import PaneEngine.Json.Reader

/-!
# Input of commands

Commands take their input from files that are named by paths.  What goes wrong
with a file is reported with its path.

## Main definitions

* `Command.Error`, `Command.Error.message` — why a command fails;
* `Command.Entry`, `Command.Files` — the files at hand;
* `Command.text`, `Command.readJson`, `Command.readBeliefs` — reading a file.
-/

namespace PaneEngine.Command

/-- Why a command fails. -/
inductive Error where
  /-- There is no such file. -/
  | unreadable (path : String)
  /-- The file holds no JSON, or JSON of the wrong shape. -/
  | notJson (path : String)
  /-- The file holds no beliefs, filters, panes or events. -/
  | undecodable (path : String)
  | invalidTree
  | goBackWithoutHeld
deriving DecidableEq

/-- The wording of an error. -/
def Error.message : Error → String
  | unreadable path => "Failed to read " ++ path
  | notJson path => "Failed to parse JSON in " ++ path
  | undecodable path => "Failed to decode " ++ path
  | invalidTree => "invalid element tree"
  | goBackWithoutHeld => "--go-back needs a held-beliefs filter"

/-- What a path names. -/
inductive Entry where
  | file (content : String)
  /-- A directory, or a file that is not text. -/
  | unreadable
deriving DecidableEq

/-- The content of a file. -/
def Entry.content? : Entry → Option String
  | file content => some content
  | unreadable => none

/-- What each path names, if anything. -/
abbrev Files := String → Option Entry

variable {α : Type}

/-- A value, or the error that there is none. -/
def orError (e : Error) : Option α → Except Error α
  | some a => .ok a
  | none => .error e

/-- The content of a file. -/
def text (files : Files) (path : String) : Except Error String :=
  orError (.unreadable path) ((files path).bind Entry.content?)

/-- What the JSON in a file decodes to. -/
def readJson (files : Files) (decode : Json → Option α) (path : String) : Except Error α := do
  orError (.notJson path) ((Json.read? (← text files path)).bind decode)

/-- What the file about beliefs decodes to. -/
def readBeliefs (files : Files) (decode : Json → Option α) (path : String) : Except Error α := do
  orError (.undecodable path) ((Json.read? (← text files path)).bind decode)

/-- Reads a file if it is given. -/
def ifGiven (read : String → Except Error α) : Option String → Except Error (Option α)
  | some path => (read path).map some
  | none => .ok none

end PaneEngine.Command
