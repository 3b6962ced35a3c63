import PaneEngine.Markup.Document
import PaneEngine.Tree.Build

/-!
# Trees of Markdown texts

## Main definitions

* `Tree.ofMarkdown` — the tree of a Markdown text.
-/

namespace PaneEngine.Tree

/-- The tree of a Markdown text. -/
def ofMarkdown (text : String) : Tree := ofEvents (Markup.events text)

end PaneEngine.Tree
