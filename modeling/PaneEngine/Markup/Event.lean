/-!
# Markup events

A Markdown document is handed on as a sequence of events in reading order:
constructs are entered and left, and text, code, breaks and rules stand between.
Everything after the Markdown grammar itself works on this sequence.

The grammar is CommonMark with strikethrough.  What only other extensions of it
have — tables, footnotes, lists of tasks — is one further construct and one
further event here.  They stand in no sequence that comes of a text.

## Main definitions

* `Markup.Tag` — the constructs that enclose others;
* `Markup.Event` — the events.
-/

namespace PaneEngine.Markup

/-- A construct that encloses other events. -/
inductive Tag where
  | paragraph
  /-- Levels run from one to six. -/
  | heading (level : Nat)
  | quote
  /-- A fenced block has an info text, an indented one has none. -/
  | codeBlock (info : Option String)
  | list (ordered : Bool)
  | item
  | emphasis
  | strong
  | strikethrough
  | link (destination title : String)
  | image (destination title : String)
  /-- A construct of another extension, such as a table or a footnote. -/
  | other
deriving DecidableEq

/-- One event of a document. -/
inductive Event where
  | enter (tag : Tag)
  | leave (tag : Tag)
  | text (content : String)
  | code (content : String)
  | softBreak
  | hardBreak
  | rule
  /-- Raw HTML, which no tree shows. -/
  | html
  /-- A mark of another extension, such as a reference to a footnote. -/
  | other
deriving DecidableEq

end PaneEngine.Markup
