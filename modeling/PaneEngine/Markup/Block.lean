import PaneEngine.Markup.Definition
import PaneEngine.Markup.LineContent

/-!
# Blocks

A document is read block by block.  Quotations, lists and items that are open
form a stack; the first line of a block continues as many of them as it can,
closes the others and may then open new ones.  What the line holds beyond that
begins a paragraph, a heading, a code block, a block of HTML, a thematic break or
a definition, which takes as many further lines as belong to it.

A list is loose when a blank line stands between two of its items or between
two blocks of one item; in a tight list paragraphs are dissolved.

## Main definitions

* `Markup.paragraph`, `Markup.fencedCode`, … — the blocks that begin at a position;
* `Markup.Frame`, `Markup.BlockState` — open containers;
* `Markup.BlockState.readBlock` — the effect of one block;
* `Markup.readBlocks` — the nodes of a document and its definitions.
-/

namespace PaneEngine.Markup

/-! ## Lines of code and HTML -/

/-- Whether a line that ends at a position loses the carriage return before its last character. -/
def dropsReturn (src : Source) (stop : Nat) : Bool :=
  src.before? (stop - 1) = some '\r' && (src.before? stop).any (·.toNat < 0x80)

/-- The node for columns of a tab that belong to the content of a line. -/
def padding (spaces position : Nat) : List Node :=
  if spaces = 0 then [] else [.leaf position position (.value (List.replicate spaces ' '))]

/-- Adds a line of code to nodes, latest first. -/
def addCode (src : Source) (spaces start stop : Nat) (nodes : List Node) : List Node :=
  let nodes := padding spaces start ++ nodes
  if dropsReturn src stop then
    Node.addText (stop - 1) stop (Node.addText start (stop - 2) nodes)
  else Node.addText start stop nodes

/-- Adds a line of HTML to nodes, latest first. -/
def addHtml (src : Source) (spaces start stop : Nat) (nodes : List Node) : List Node :=
  let nodes := padding spaces start ++ nodes
  if dropsReturn src stop then
    .leaf (stop - 1) stop .html :: .leaf start (stop - 2) .html :: nodes
  else .leaf start stop .html :: nodes

/-! ## Code blocks -/

/-- The lines of an indented block from a position on, behind `nodes`, latest first, of which `kept`
do not end with a blank line.  Returns also where the block ends without its blank lines, where
the next one begins, and whether a blank line stands before that. -/
def indentedLines (src : Source) (containers : List Container) (spaces position : Nat)
    (blank : Bool) (nodes : List Node) (kept : List Node × Nat) :
    (List Node × Nat) × Nat × Bool :=
  let next := position + lineLength (src.behind position)
  let nodes := addCode src spaces position next nodes
  let kept := if blank then kept else (nodes, next)
  let (left, cur) := continueAll containers (.start src next)
  let (k, cur) := cur.takeSpaces 4
  if _ : left = 0 ∧ (k = 4 ∨ cur.atLineEnd) ∧ position < cur.position ∧ cur.position < src.size then
    indentedLines src containers cur.spaces cur.position (blankLine? cur.rest).isSome nodes kept
  else (kept, next, blank)
termination_by src.size - position

/-- The indented code block whose first line has been entered, where the next block begins, and
whether a blank line stands before that. -/
def indentedCode (src : Source) (containers : List Container) (cur : Cursor) : Node × Nat × Bool :=
  let ((nodes, stop), next, blank) :=
    indentedLines src containers cur.spaces cur.position false [] ([], cur.position)
  (.mk cur.position stop (.enclose (.codeBlock none)) nodes.reverse, next, blank)

/-- The lines of a fenced block from a position on, latest first, and where it ends. -/
def fencedLines (src : Source) (containers : List Container) (indent : Nat) (mark : Char)
    (count position : Nat) (nodes : List Node) : List Node × Nat :=
  let (left, cur) := continueAll containers (.start src position)
  let cur := (cur.takeSpaces indent).2
  let (k, inner) := cur.takeSpaces 4
  if left ≠ 0 then (nodes, position)
  else match if k < 4 then closingFence? mark count inner.rest else none with
    | some n => (nodes, inner.position + n)
    | none =>
      let next := cur.position + lineLength cur.rest
      let nodes := addCode src cur.spaces cur.position next nodes
      if _ : position < next ∧ position < src.size then
        fencedLines src containers indent mark count next nodes
      else (nodes, next)
termination_by src.size - position
decreasing_by simp +zetaDelta only at *; omega

/-- The fenced code block at a position, and where the next block begins; a blank rest of the line
at its end belongs to it. -/
def fencedCode (src : Source) (containers : List Container) (indent : Nat) (mark : Char)
    (count position : Nat) : Node × Nat :=
  let start := position + count + countWhile isSpaceOrTab (src.behind (position + count))
  let info := src.behind start
  let length := lineLength info
  let text := ((info.take length).reverse.dropWhile isAsciiBlank).reverse
  let (nodes, stop) :=
    fencedLines src containers indent mark count (start + length) []
  let tag := Tag.codeBlock (some (String.ofList (unescape text)))
  (.mk position stop (.enclose tag) nodes.reverse,
    stop + (blankLine? (src.behind stop)).getD 0)

/-! ## Blocks of HTML -/

/-- Whether a block of HTML ends with the line between two positions, or before the line that has
been entered. -/
def HtmlBlock.ends (src : Source) (start stop : Nat) (cur : Cursor) : HtmlBlock → Bool
  | .through mark => occursIn mark (src.slice start stop)
  | .toBlankLine => (blankLine? cur.rest).isSome

/-- The lines of a block of HTML behind nodes, latest first, and where the next block begins. -/
def htmlLines (src : Source) (containers : List Container) (kind : HtmlBlock)
    (spaces position : Nat) (nodes : List Node) : List Node × Nat :=
  let next := position + lineLength (src.behind position)
  let nodes := addHtml src spaces position next nodes
  let (left, cur) := continueAll containers (.start src next)
  if _ : left = 0 ∧ ¬ kind.ends src position next cur ∧ position < cur.position
      ∧ cur.position < src.size then
    htmlLines src containers kind cur.spaces cur.position nodes
  else (nodes, next)
termination_by src.size - position
decreasing_by simp +zetaDelta only at *; omega

/-! ## Headings and paragraphs -/

/-- The length of the text of a heading without the number signs that may close it. -/
def headingLength (cs : List Char) : Nat :=
  let line := cs.reverse.dropWhile fun c => c = '\n' || c = '\r' || c = ' '
  let text := line.dropWhile (· = '#')
  let spaces := runLength ' ' text
  if text.isEmpty then 0 else if spaces = 0 then line.length else text.length - spaces

/-- The nodes, latest first, with another end of the latest. -/
def endAt (stop : Nat → Nat) : List Node → List Node
  | [] => []
  | n :: before => n.withStop (stop n.stop) :: before

/-- The heading of a level that begins with number signs at a position, and where it ends. -/
def heading (src : Source) (level position : Nat) : Node × Nat :=
  let i := position + level
  match lineEnd? (src.behind i) with
  | some n => (.mk position (i + n) (.enclose (.heading level)) [], i + n)
  | none =>
    let start := i + countWhile isSpaceOrTab (src.behind i)
    let line := readLine src start []
    let stop := start + headingLength (src.slice start line.next)
    (.mk position line.next (.enclose (.heading level)) (endAt (fun _ => stop) line.nodes).reverse,
      line.next)

/-- The nodes of a heading, latest first, that is underlined: without blanks at its end, but with
the backslash that would have broken the line. -/
def underlined (src : Source) (line : LineContent) : List Node :=
  match line.lineBreak with
  | some b =>
    if b.kind = .hardBreak && (src.behind b.start).head? = some '\\' then
      Node.addText b.start (b.start + 1) line.nodes
    else endAt (fun stop => stop - src.countBefore isSpaceOrTab stop) line.nodes
  | none => line.nodes

/-- The paragraph or underlined heading that began at `start` and goes on at a position behind
nodes, latest first, and where the next block begins. -/
def paragraphLines (src : Source) (containers : List Container) (start position : Nat)
    (nodes : List Node) : Node × Nat :=
  let line := readLine src position nodes
  let (left, cur) := continueAll containers (.start src line.next)
  let (k, inner) := cur.takeSpaces 4
  match if k < 4 && left = 0 then underline? inner.rest else none with
  | some (level, n) =>
    let stop := inner.position + n
    (.mk start stop (.enclose (.heading level)) (underlined src line).reverse, stop)
  | none =>
    let behind := inner.skipSpaces
    if _ : ¬ (k < 4 && interrupts (left = 0) inner.rest) ∧ ¬ behind.atLineEnd
        ∧ position < behind.position ∧ position < src.size then
      paragraphLines src containers start behind.position (line.lineBreak.toList ++ line.nodes)
    else (.mk start line.next (.enclose .paragraph) line.nodes.reverse, line.next)
termination_by src.size - position
decreasing_by simp +zetaDelta only at *; omega

/-- The paragraph at a position, or the heading if it is underlined, and where the next block
begins. -/
def paragraph (src : Source) (containers : List Container) (position : Nat) : Node × Nat :=
  paragraphLines src containers position position []

/-! ## Open containers -/

/-- An open container with its content, latest first. -/
structure Frame where
  start : Nat
  container : Container
  content : List Node

/-- The node of a container that ends at a position. -/
def Frame.finish (stop : Nat) (f : Frame) : Node :=
  match f.container with
  | .quote => .mk f.start stop (.enclose .quote) f.content.reverse
  | .list marker tight =>
    let items := f.content.reverse
    .mk f.start stop (.enclose (.list (!isBullet marker)))
      (if tight then items.map Node.tighten else items)
  | .item indent => .mk f.start stop (.item indent) f.content.reverse

/-- What has been read so far. -/
structure BlockState where
  /-- The nodes outside all containers, latest first. -/
  root : List Node
  /-- The open containers, innermost first. -/
  frames : List Frame
  /-- Whether the latest item began with a blank line. -/
  blankItem : Bool
  /-- Whether the latest line was blank, inside a list. -/
  lastBlank : Bool
  definitions : Definitions

namespace BlockState

/-- Nothing has been read. -/
def start : BlockState := ⟨[], [], false, false, []⟩

/-- The open containers, outermost first. -/
def containers (s : BlockState) : List Container := (s.frames.map Frame.container).reverse

/-- Adds nodes, latest first, to the innermost container. -/
def add (nodes : List Node) (s : BlockState) : BlockState :=
  match s.frames with
  | [] => { s with root := nodes ++ s.root }
  | f :: rest => { s with frames := { f with content := nodes ++ f.content } :: rest }

/-- Opens a container. -/
def push (start : Nat) (c : Container) (s : BlockState) : BlockState :=
  { s with frames := ⟨start, c, []⟩ :: s.frames }

/-- Closes the innermost container at a position. -/
def pop (stop : Nat) (s : BlockState) : BlockState :=
  match s.frames with
  | [] => s
  | f :: rest => { s with frames := rest }.add [f.finish stop]

/-- Closes that many containers. -/
def popMany (stop : Nat) : Nat → BlockState → BlockState
  | 0, s => s
  | n + 1, s => popMany stop n (s.pop stop)

/-- Marks the list around the innermost container as loose. -/
def loosen (s : BlockState) : BlockState :=
  match s.frames with
  | f :: ⟨i, .list marker _, content⟩ :: rest =>
    { s with frames := f :: ⟨i, .list marker false, content⟩ :: rest }
  | _ => s

/-- Closes a list that is not continued, before another block is added. -/
def finishList (stop : Nat) (s : BlockState) : BlockState :=
  let s := match s.frames with
    | ⟨_, .list .., _⟩ :: _ => s.pop stop
    | _ => s
  if s.lastBlank then { s.loosen with lastBlank := false } else s

/-- Opens a list. -/
def openList (start : Nat) (marker : Char) (s : BlockState) : BlockState :=
  let s := if s.frames.isEmpty then s else s.finishList start
  { s.push start (.list marker true) with lastBlank := false }

/-- Continues the list before an item with that marker, or opens a new one. -/
def continueList (start : Nat) (marker : Char) (s : BlockState) : BlockState :=
  match s.frames with
  | ⟨i, .list m tight, content⟩ :: rest =>
    if m = marker then
      { s with
        frames := ⟨i, .list m (tight && !s.lastBlank), content⟩ :: rest
        lastBlank := false }
    else s.openList start marker
  | _ => s.openList start marker

/-- Opens the containers that begin at the cursor on a line.  The last component tells whether an
item was opened with nothing behind its marker. -/
def openContainers (start : Nat) (s : BlockState) (cur : Cursor) : BlockState × Cursor × Bool :=
  match _ : cur.listMarker? with
  | some (marker, next) =>
    let s := (s.continueList start marker.char).push start (.item marker.indent)
    if (blankLine? next.rest).isSome then ({ s with blankItem := true }, next, true)
    else openContainers start s next
  | none =>
    match _ : cur.quoteMarker? with
    | some next => openContainers start ((s.finishList start).push start .quote) next
    | none => (s, cur, false)
termination_by cur.rest.length
decreasing_by
  · exact Cursor.length_of_listMarker? ‹_›
  · exact Cursor.length_of_quoteMarker? ‹_›

/-- The effect of a blank line. -/
def takeBlank (stop : Nat) (s : BlockState) : BlockState :=
  match s.frames with
  | [] => s
  | ⟨_, .quote, _⟩ :: _ => s
  | _ => { (if s.blankItem then s.pop stop else s) with lastBlank := true }

/-! ## The effect of a block -/

/-- Adds a node and goes on behind it. -/
def addThen (result : Node × Nat) (s : BlockState) : BlockState × Nat :=
  (s.add [result.1], result.2)

/-- Reads the block of its own that begins at the cursor; returns where the next one begins. -/
def readLeaf (src : Source) (cur : Cursor) (s : BlockState) : BlockState × Nat :=
  let containers := s.containers
  let (indent, inner) := cur.takeSpaces 4
  let position := inner.position
  let cs := inner.rest
  if indent = 4 then
    let (node, next, blank) := indentedCode src containers inner
    ({ s with lastBlank := blank }.add [node], next)
  else
    let html := match cs with
      | '<' :: behind => htmlBlock? behind
      | _ => none
    match html with
    | some kind =>
      let (nodes, next) := htmlLines src containers kind cur.spaces position []
      (s.add nodes, next)
    | none =>
      match ruleLength? cs with
      | some n => s.addThen (.leaf position (position + n) .rule, position + n)
      | none =>
        match headingLevel? cs with
        | some level => s.addThen (heading src level position)
        | none =>
          match definition? src containers position with
          | some d => ({ s with definitions := s.definitions.add d.label d.target }, d.next)
          | none =>
            match fence? cs with
            | some (mark, count) => s.addThen (fencedCode src containers indent mark count position)
            | none => s.addThen (paragraph src containers position)

/-- Reads the block that begins with the line at a position; returns where the next one begins. -/
def readBlock (src : Source) (start : Nat) (s : BlockState) : BlockState × Nat :=
  let (left, cur) := continueAll s.containers (.start src start)
  let (s, cur, blankItem) := (s.popMany start left).openContainers start cur
  match blankLine? cur.rest with
  | some n => (if blankItem then s else s.takeBlank start, cur.position + n)
  | none => ({ s with blankItem := false }.finishList start).readLeaf src cur

/-- Reads all blocks from a position on, and closes everything. -/
def run (src : Source) (position : Nat) (s : BlockState) : BlockState :=
  if position < src.size then
    let result := s.readBlock src position
    if position < result.2 then run src result.2 result.1 else s
  else s.popMany position s.frames.length
termination_by src.size - position
decreasing_by simp +zetaDelta only at *; omega

end BlockState

/-- The nodes of a document and the definitions in it. -/
def readBlocks (src : Source) : List Node × Definitions :=
  let s := BlockState.start.run src 0
  (s.root.reverse, s.definitions)

end PaneEngine.Markup
