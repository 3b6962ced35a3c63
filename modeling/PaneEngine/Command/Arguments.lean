import PaneEngine.Command.Compile
import PaneEngine.Command.Visible

/-!
# Command lines

A command line names a command and gives its options and words in any order.
An option has two hyphens; its value stands behind an equals sign or is the
next argument, which then must not look like an option.  After two hyphens
alone there are only words.  No option is given twice, but the configuration
may be named before the command and again behind it.

## Main definitions

* `Command.Grammar`, `Command.Grammar.scan` — options and words as they are given;
* `Command.Invocation`, `Command.Invocation.parse` — command lines.
-/

namespace PaneEngine.Command

/-! ## Options and words -/

/-- What an option takes. -/
inductive Operand where
  | nothing
  | text
  /-- The path of a file, which is not empty. -/
  | path
deriving DecidableEq

/-- The options and words that may be given. -/
structure Grammar where
  options : List (String × Operand)
  /-- What each word is. -/
  words : List Operand
  /-- The commands that may follow. -/
  commands : List String

/-- Why a command line is not carried out. -/
inductive Refusal where
  /-- It asks for help or for the version. -/
  | help
  | misuse
deriving DecidableEq

/-- What has been given. -/
structure Given where
  /-- The options with their values, which are empty for those that take none. -/
  options : List (String × String)
  words : List String
  /-- The command that follows, and its arguments. -/
  command : Option (String × List String)

namespace Given

/-- Nothing. -/
def nothing : Given := ⟨[], [], none⟩

/-- The value of an option. -/
def value? (g : Given) (name : String) : Option String := g.options.lookup name

/-- Whether an option is given. -/
def has (g : Given) (name : String) : Bool := (g.value? name).isSome

end Given

/-- Whether an argument looks like an option; a single hyphen does not. -/
def looksLikeOption (arg : String) : Bool := arg.toList.head? = some '-' && arg ≠ "-"

/-- The name of a long option, and the value attached to it. -/
def splitOption (arg : String) : String × Option String :=
  let cs := arg.toList.drop 2
  let name := cs.takeWhile (· ≠ '=')
  (String.ofList name,
    if cs.length = name.length then none else some (String.ofList (cs.drop (name.length + 1))))

namespace Grammar

/-- Takes a value. -/
def accepts (operand : Operand) (v : String) : Bool := operand ≠ .path || !v.isEmpty

/-- Adds an option with its value. -/
def addOption (operand : Operand) (name v : String) (given : Given) : Except Refusal Given :=
  if accepts operand v && !given.has name then
    .ok { given with options := (name, v) :: given.options }
  else .error .misuse

/-- Adds a word. -/
def addWord (g : Grammar) (word : String) (given : Given) : Except Refusal Given :=
  match g.words[given.words.length]? with
  | some operand =>
    if accepts operand word then .ok { given with words := given.words ++ [word] }
    else .error .misuse
  | none => .error .misuse

/-- What asks for help. -/
def helpNames (g : Grammar) : List String :=
  if g.commands.isEmpty then ["help"] else ["help", "version"]

/-- What asks for help by a single letter. -/
def helpLetters (g : Grammar) : List Char := if g.commands.isEmpty then ['h'] else ['h', 'V']

/-- The answer to a request for help on commands. -/
def helpOn (g : Grammar) : List String → Refusal
  | [] => .help
  | name :: rest =>
    if name = "help" then helpOn g rest
    else if g.commands.contains name && rest.isEmpty then .help
    else .misuse

/-- Reads arguments up to a command. -/
def scan (g : Grammar) (given : Given) : List String → Except Refusal Given
  | [] => .ok given
  | arg :: rest =>
    if arg = "--" then rest.foldlM (fun given word => g.addWord word given) given
    else if arg.toList.take 2 = ['-', '-'] then
      let (name, attached) := splitOption arg
      if g.helpNames.contains name && attached.isNone then .error .help
      else
        match g.options.lookup name, attached, rest with
        | some .nothing, none, rest => do scan g (← addOption .nothing name "" given) rest
        | some .nothing, some _, _ => .error .misuse
        | some operand, some v, rest => do scan g (← addOption operand name v given) rest
        | some operand, none, v :: rest =>
          if looksLikeOption v then .error .misuse
          else do scan g (← addOption operand name v given) rest
        | _, _, _ => .error .misuse
    else if looksLikeOption arg then
      if g.helpLetters.any fun letter => arg.toList[1]? = some letter then .error .help
      else .error .misuse
    else if g.commands.contains arg then .ok { given with command := some (arg, rest) }
    else if arg = "help" && !g.commands.isEmpty then .error (g.helpOn rest)
    else do scan g (← g.addWord arg given) rest

end Grammar

/-! ## Commands -/

/-- A command line. -/
inductive Task where
  | compile (c : Compile)
  | action (a : Action)
  | visible (v : Visible)
deriving DecidableEq

/-- A command line. -/
structure Invocation where
  /-- The path of the configuration, if it is named. -/
  config : Option String
  task : Task
deriving DecidableEq

/-- The option that names the configuration. -/
def configOption : String × Operand := ("config", .path)

/-- The arguments before the command. -/
def mainGrammar : Grammar := ⟨[configOption], [], ["compile", "action", "visible"]⟩

/-- The arguments of `compile`. -/
def compileGrammar : Grammar :=
  ⟨[configOption, ("hast", .nothing), ("options", .path), ("files", .path), ("slug", .text),
    ("context", .nothing), ("container-id", .text)], [.path], []⟩

/-- The arguments of `action`. -/
def actionGrammar : Grammar :=
  ⟨[configOption, ("slug", .text), ("context", .nothing), ("pane", .text)], [.text], []⟩

/-- The arguments of `visible`. -/
def visibleGrammar : Grammar :=
  ⟨[configOption, ("beliefs", .path), ("held", .path), ("withheld", .path), ("panes", .path),
    ("go-back", .nothing), ("replay", .path)], [], []⟩

/-- The command `compile` that is given. -/
def compileOf (given : Given) : Except Refusal Task :=
  match given.words with
  | [input] => .ok <| .compile {
      input, isTree := given.has "hast", options := given.value? "options"
      files := given.value? "files", slug := given.value? "slug"
      isContext := given.has "context", containerId := given.value? "container-id" }
  | _ => .error .misuse

/-- The command `action` that is given. -/
def actionOf (given : Given) : Except Refusal Task :=
  match given.words with
  | [expression] => .ok <| .action {
      expression, slug := given.value? "slug", isContext := given.has "context"
      pane := (given.value? "pane").getD Action.standardPane }
  | _ => .error .misuse

/-- Whether options are given that exclude each other or lack others that they need. -/
def isContradictory (given : Given) : Bool :=
  (given.has "panes" && (given.has "held" || given.has "withheld")) ||
    (given.has "go-back" && !given.has "held") || (given.has "replay" && !given.has "panes")

/-- The command `visible` that is given. -/
def visibleOf (given : Given) : Except Refusal Task :=
  if isContradictory given then .error .misuse
  else .ok <| .visible {
    beliefs := given.value? "beliefs", held := given.value? "held"
    withheld := given.value? "withheld", panes := given.value? "panes"
    goBack := given.has "go-back", replay := given.value? "replay" }

/-- The command of a name with its arguments, and what is given there. -/
def taskOf (name : String) (args : List String) : Except Refusal (Given × Task) := do
  let read (g : Grammar) (task : Given → Except Refusal Task) : Except Refusal (Given × Task) := do
    let given ← g.scan .nothing args
    return (given, ← task given)
  if name = "compile" then read compileGrammar compileOf
  else if name = "action" then read actionGrammar actionOf
  else read visibleGrammar visibleOf

/-- The command line of arguments. -/
def Invocation.parse (args : List String) : Except Refusal Invocation := do
  let given ← mainGrammar.scan .nothing args
  match given.command with
  | none => throw .misuse
  | some (name, args) =>
    let (inner, task) ← taskOf name args
    return ⟨(inner.value? "config").or (given.value? "config"), task⟩

end PaneEngine.Command
