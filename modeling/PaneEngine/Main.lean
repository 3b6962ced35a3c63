import PaneEngine.Command.Run
import PaneEngine.Json.Layout

/-!
# The command line

The outer layer reads the variables and the files that a command line refers
to, draws a random start for the ids of nodes, and prints what comes of the
command line.
-/

open PaneEngine

/-- What the commands and options are. -/
def usage : String :=
  String.intercalate "\n" [
    "Compiles content panes and decides which of them are visible.",
    "",
    "Usage: panes [--config FILE] COMMAND",
    "",
    "Commands:",
    "  compile INPUT [--hast] [--options FILE] [--files FILE] [--slug SLUG] [--context]",
    "          [--container-id ID]",
    "  action EXPRESSION [--slug SLUG] [--context] [--pane ID]",
    "  visible [--beliefs FILE] [--held FILE [--go-back]] [--withheld FILE]",
    "  visible [--beliefs FILE] --panes FILE [--replay FILE]"]

/-- What a list of pairs holds for a name. -/
def lookupIn {α : Type} (pairs : List (String × α)) (name : String) : Option α :=
  pairs.lookup name

/-- The values of variables that are set. -/
def readVariables (names : List String) : IO (List (String × String)) := do
  let values ← names.mapM fun name => return (← IO.getEnv name).map fun v => (name, v)
  return values.filterMap id

/-- What a path names. -/
def readEntry (path : String) : IO (Option Command.Entry) := do
  try
    return some (.file (← IO.FS.readFile path))
  catch
    | .noFileOrDirectory .. => return none
    | _ => return some .unreadable

/-- What paths name. -/
def readEntries (paths : List String) : IO (List (String × Command.Entry)) := do
  let entries ← paths.mapM fun path => return (← readEntry path).map fun e => (path, e)
  return entries.filterMap id

/-- The variables that the text of a configuration refers to. -/
def variablesOf (entry : Option Command.Entry) : List String :=
  (((entry.bind Command.Entry.content?).bind Config.document?).map Config.variableNames).getD []

/-- Ids of nodes that start at random. -/
def randomIds : IO (Nat → String) := do
  let start ← IO.rand 0 (Nat.pow 2 62)
  return Pane.sequentialIds ("node-" ++ toString start)

/-- Carries out a command line. -/
def runCommand (args : List String) (i : Command.Invocation) : IO Command.Outcome := do
  let places ← readVariables [Command.directoryVariable, "HOME"]
  let paths := i.paths (lookupIn places)
  let entries ← readEntries paths
  let used ← readVariables (variablesOf (paths.head?.bind (lookupIn entries)))
  return Command.run (lookupIn (places ++ used)) (lookupIn entries) (← randomIds) args

def main (args : List String) : IO UInt32 := do
  match Command.Invocation.parse args with
  | .error .help =>
    IO.println usage
    return 0
  | .error .misuse =>
    IO.eprintln usage
    return 2
  | .ok i =>
    let outcome ← runCommand args i
    match outcome with
    | .answered j => IO.println j.layout
    | .failed f =>
      IO.eprintln ("Error: " ++ f.message)
      if let some cause := f.cause? then IO.eprintln ("\nCaused by:\n    " ++ cause)
    | .refused _ => IO.eprintln usage
    return outcome.code.toUInt32
