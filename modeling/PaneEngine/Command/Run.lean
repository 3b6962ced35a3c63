import PaneEngine.Command.Arguments
import PaneEngine.Config.Document

/-!
# Running command lines

A command line is carried out in an environment, on the files at hand.  The
configuration is read first, from the path that is named or from its standard
place; where no file is, everything has its standard value.

## Main definitions

* `Command.configPath` — where the configuration is;
* `Command.Invocation.paths` — the files that a command line reads;
* `Command.Failure`, `Command.Outcome` — what can come of a command line;
* `Command.run` — what comes of it.
-/

namespace PaneEngine.Command

/-- The variable that names the directory of the configuration. -/
def directoryVariable : String := "TRACTSTACK_CONFIG_DIR"

/-- A file in a directory. -/
def joinPath (directory file : String) : String :=
  if directory.isEmpty || directory.toList.getLast? = some '/' then directory ++ file
  else directory ++ "/" ++ file

/-- The directory of the configuration: the one of the variable, or one in the home directory. -/
def configDirectory (env : Config.Environment) : String :=
  match env directoryVariable with
  | some directory => directory
  | none => joinPath ((env "HOME").getD "") ".tractstack"

/-- Where the configuration is. -/
def configPath (env : Config.Environment) (named : Option String) : String :=
  named.getD (joinPath (configDirectory env) "config.yaml")

/-- The files that a task reads. -/
def Task.paths : Task → List String
  | compile c => c.input :: [c.options, c.files].filterMap id
  | action _ => []
  | visible v => [v.beliefs, v.held, v.withheld, v.panes, v.replay].filterMap id

/-- The files that a command line reads, the configuration first. -/
def Invocation.paths (env : Config.Environment) (i : Invocation) : List String :=
  configPath env i.config :: i.task.paths

/-- Why a command line fails. -/
inductive Failure where
  | unreadableConfig (path : String)
  | malformedConfig (path : String)
  | unusableConfig (e : Config.PrepareError)
  | command (e : Error)
deriving DecidableEq

/-- The wording of a failure. -/
def Failure.message : Failure → String
  | unreadableConfig path => "Failed to read config file: " ++ path
  | malformedConfig path => "Failed to parse config YAML at: " ++ path
  | unusableConfig (.missing _) => "Failed to resolve env vars in config"
  | unusableConfig .shape => "Failed to deserialize config after processing"
  | unusableConfig (.fault f) => f.text
  | command e => e.message

/-- What lies behind a failure, where its wording does not say it. -/
def Failure.cause? : Failure → Option String
  | unusableConfig (.missing e) => some e.message
  | _ => none

/-- What comes of a command line. -/
inductive Outcome where
  | refused (r : Refusal)
  | failed (f : Failure)
  | answered (j : Json)

/-- The exit code. -/
def Outcome.code : Outcome → Nat
  | answered _ | refused .help => 0
  | failed _ => 1
  | refused .misuse => 2

/-- The configuration of a document. -/
def prepare (env : Config.Environment) (j : Json) : Except Failure Config :=
  (Config.prepare env j).mapError .unusableConfig

/-- The configuration at a path. -/
def loadConfig (env : Config.Environment) (files : Files) (path : String) :
    Except Failure Config :=
  match files path with
  | none => prepare env Config.emptyDocument
  | some .unreadable => .error (.unreadableConfig path)
  | some (.file content) =>
    match Config.document? content with
    | none => .error (.malformedConfig path)
    | some j => prepare env j

/-- The answer to a task; the ids of nodes are drawn from `ids`. -/
def Task.run (config : Config) (files : Files) (ids : Nat → String) : Task → Except Error Json
  | compile c => c.run config files ids
  | action a => .ok (a.run config)
  | visible v => v.run config files

/-- The answer to a command line. -/
def Invocation.run (env : Config.Environment) (files : Files) (ids : Nat → String)
    (i : Invocation) : Except Failure Json := do
  let config ← loadConfig env files (configPath env i.config)
  (i.task.run config files ids).mapError .command

/-- What comes of a command line. -/
def run (env : Config.Environment) (files : Files) (ids : Nat → String) (args : List String) :
    Outcome :=
  match Invocation.parse args with
  | .error r => .refused r
  | .ok i =>
    match i.run env files ids with
    | .ok j => .answered j
    | .error f => .failed f

end PaneEngine.Command
