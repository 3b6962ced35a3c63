import PaneEngine.Markup.Block
import PaneEngine.Markup.Content

/-!
# Documents

A document is read into blocks first, which also collects its definitions; then
the marks in them are resolved.

## Main definitions

* `Markup.readDocument` — the nodes of a document;
* `Markup.events` — its events.
-/

namespace PaneEngine.Markup

/-- The nodes of a document with all marks resolved. -/
def readDocument (src : Source) : List Node :=
  let (nodes, definitions) := readBlocks src
  Node.resolveAll src definitions [] nodes

/-- The events of a Markdown text. -/
def events (text : String) : List Event :=
  let src := Source.ofString text
  Node.eventsOf src (readDocument src)

end PaneEngine.Markup
