import PaneEngine.Command.Action
import PaneEngine.Command.Input
import PaneEngine.Pane.Index
import PaneEngine.Tree.Json
import PaneEngine.Tree.Markdown

/-!
# The command `compile`

The command compiles the content of a pane.

## Main definitions

* `Command.Compile`, `Command.Compile.run` — its arguments and its answer.
-/

namespace PaneEngine.Command

/-- The arguments of the command `compile`. -/
structure Compile where
  /-- The path of the content. -/
  input : String
  /-- Whether the content is an element tree as JSON rather than Markdown. -/
  isTree : Bool
  options : Option String
  files : Option String
  /-- The page that the pane is on, the home page unless given. -/
  slug : Option String
  isContext : Bool
  containerId : Option String
deriving DecidableEq

namespace Compile

/-- The element tree of the content. -/
def tree (files : Files) (c : Compile) : Except Error Tree := do
  let content ← text files c.input
  if c.isTree then orError .invalidTree (Tree.read? content) else return Tree.ofMarkdown content

/-- The answer of the command `compile`; the ids of the nodes are drawn from `ids`. -/
def run (config : Config) (files : Files) (ids : Nat → String) (c : Compile) :
    Except Error Json := do
  let t ← c.tree files
  let options ← ifGiven (readJson files Json.canonical?) c.options
  let images ← ifGiven (readJson files (Json.list? Pane.File.ofJson?)) c.files
  let options := (options.map Options.ofJson).getD .empty
  let graph := Pane.compile {
    options
    files := images.getD []
    page := pageOf config c.slug c.isContext
    containerId := c.containerId.getD config.containerId
    fallbackAlt := config.fallbackAlt } ids t
  return .object [("containerId", .string graph.containerId),
    ("nodes", .array (graph.nodes.map Pane.Node.toJson)),
    ("lookup", (Pane.Index.ofGraph graph).toJson),
    ("parentClasses", (Style.parentClasses options).toJson)]

end Compile

end PaneEngine.Command
