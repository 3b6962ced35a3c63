import PaneEngine.Hook.Widget
import PaneEngine.Main
import PaneEngine.Proofs.Action.Click
import PaneEngine.Proofs.Action.Actionable
import PaneEngine.Proofs.Action.Continuation
import PaneEngine.Proofs.Action.Grammar
import PaneEngine.Proofs.Action.Printing
import PaneEngine.Proofs.Action.WrittenTime
import PaneEngine.Proofs.Belief.History
import PaneEngine.Proofs.Belief.Return
import PaneEngine.Proofs.Button
import PaneEngine.Proofs.Options.Encoding
import PaneEngine.Proofs.Options.Isolation
import PaneEngine.Proofs.Pane.Position
import PaneEngine.Proofs.Reveal.Isolation
import PaneEngine.Proofs.Reveal.Settling
import PaneEngine.Proofs.Tree.Enclosure
import PaneEngine.Proofs.Tree.Wording
import PaneEngine.Proofs.Tree.Neighbour
import PaneEngine.Proofs.Pane.Block
import PaneEngine.Proofs.Pane.Appending
import PaneEngine.Proofs.Pane.Invisible
import PaneEngine.Proofs.Pane.ListItem
import PaneEngine.Proofs.Pane.PageUse
import PaneEngine.Proofs.Pane.Renaming
import PaneEngine.Proofs.Hook.Leftmost
import PaneEngine.Proofs.Hook.Cleaning
import PaneEngine.Proofs.Hook.Setting
import PaneEngine.Proofs.Config.Escaping
import PaneEngine.Proofs.Config.Defaults
import PaneEngine.Proofs.Belief.LastWrite
import PaneEngine.Proofs.Belief.Monotone
import PaneEngine.Proofs.Json.Numeral
import PaneEngine.Proofs.Json.Quoting
import PaneEngine.Proofs.Json.Tokens
import PaneEngine.Proofs.Json.Nesting
import PaneEngine.Proofs.Json.Canonical
import PaneEngine.Proofs.Json.Limit
import PaneEngine.Proofs.Tree.Encoding
import PaneEngine.Proofs.Reveal.Bystander
import PaneEngine.Proofs.Reveal.Watching
import PaneEngine.Proofs.Style.Cascade
import PaneEngine.Proofs.Style.Compactness
import PaneEngine.Proofs.Text.Collapse
