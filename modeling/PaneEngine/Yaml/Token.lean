import PaneEngine.Yaml.BlockScalar
import PaneEngine.Yaml.Tag

/-!
# Tokens of YAML texts

Besides marks and scalars, the tokens say where blocks start and end: a block
starts where a mark or a key stands further right than the block around it, and
ends before whatever stands further left.

A key need not be marked.  Whatever can be one is remembered, on every level of
brackets one of them, until the colon behind it is found; the tokens of the key
and of the block it starts are then inserted before it.  A key that is not
marked ends on its line and is not too long.

## Main definitions

* `Yaml.Token` — tokens;
* `Yaml.Layout` — how far a text has been read;
* `Yaml.Layout.next?` — reads one token;
* `Yaml.tokens?` — the tokens of a text.
-/

namespace PaneEngine.Yaml

/-- A token. -/
inductive Token where
  | version (major minor : Nat)
  | handle (handle : String) (beginning : String)
  | documentStart
  | documentEnd
  | sequenceBlock
  | mappingBlock
  | blockEnd
  | sequenceOpen
  | sequenceClose
  | mappingOpen
  | mappingClose
  | entry
  | comma
  | key
  | value
  | alias (name : String)
  | anchor (name : String)
  | tag (name : TagName)
  | scalar (isPlain : Bool) (text : String)
deriving DecidableEq

/-- Something that may turn out to be a key. -/
structure PossibleKey where
  /-- How many tokens precede it. -/
  position : Nat
  /-- Whether nothing else can stand there. -/
  isRequired : Bool
  place : Cursor

/-- How far a text has been read. -/
structure Layout where
  cursor : Cursor
  /-- The tokens, latest first. -/
  tokens : List Token
  /-- The columns of the open blocks, innermost first. -/
  blocks : List Nat
  /-- What may be a key, on each level of brackets, innermost first. -/
  keys : List (Option PossibleKey)
  /-- Whether a key may start here. -/
  keyAllowed : Bool

namespace Layout

/-- Nothing has been read.  A mark of the byte order in front takes up a column. -/
def start (cs : List Char) : Layout :=
  let c := Cursor.start cs
  ⟨if cs.head? = some '\ufeff' then c.advance 1 else c, [], [], [none], true⟩

/-- Whether a bracket is open. -/
def inFlow (l : Layout) : Bool := 1 < l.keys.length

/-- The column of the innermost block. -/
def block? (l : Layout) : Option Nat := l.blocks.head?

/-- The first column that lies inside the innermost block. -/
def innerColumn (l : Layout) : Nat := l.block?.elim 0 (· + 1)

/-- Adds a token. -/
def emit (l : Layout) (t : Token) : Layout := { l with tokens := t :: l.tokens }

/-- Goes to another place. -/
def moveTo (l : Layout) (c : Cursor) : Layout := { l with cursor := c }

/-- Goes some characters further on the same line. -/
def advance (l : Layout) (n : Nat) : Layout := l.moveTo (l.cursor.advance n)

/-- Says whether a key may start here. -/
def allowKey (l : Layout) (allowed : Bool) : Layout := { l with keyAllowed := allowed }

/-- Inserts tokens behind the first `position` ones. -/
def insertAt (l : Layout) (position : Nat) (ts : List Token) : Layout :=
  let n := l.tokens.length - position
  { l with tokens := l.tokens.take n ++ ts.reverse ++ l.tokens.drop n }

/-! ## Possible keys -/

/-- How many characters a key that is not marked may have. -/
def longestKey : Nat := 1024

/-- Whether it is too late for a colon. -/
def isStale (l : Layout) (k : PossibleKey) : Bool :=
  k.place.line < l.cursor.line || k.place.index + longestKey < l.cursor.index

/-- Forgets what can no longer be a key; none if something had to be one. -/
def dropStale? (l : Layout) : Option Layout := do
  let keys ← l.keys.mapM fun
    | some k => if l.isStale k then if k.isRequired then none else some none else some (some k)
    | none => some none
  return { l with keys }

/-- Forgets what may be a key on this level; none if it had to be one. -/
def dropKey? (l : Layout) : Option Layout :=
  match l.keys with
  | some k :: rest => if k.isRequired then none else some { l with keys := none :: rest }
  | _ => some l

/-- Remembers that a key may start here. -/
def saveKey? (l : Layout) : Option Layout :=
  if l.keyAllowed then do
    let l ← l.dropKey?
    let required := !l.inFlow && l.block? = some l.cursor.column
    return { l with keys := some ⟨l.tokens.length, required, l.cursor⟩ :: l.keys.drop 1 }
  else some l

/-! ## Blocks -/

/-- Starts a block at a column, if it lies inside the innermost one. -/
def openBlock (l : Layout) (column position : Nat) (t : Token) : Layout :=
  if !l.inFlow && l.innerColumn ≤ column then
    { l.insertAt position [t] with blocks := column :: l.blocks }
  else l

/-- Ends the blocks that are not yet over at a column, given by whether they are. -/
def closeBlocks (l : Layout) (isOver : Nat → Bool) : Layout :=
  if l.inFlow then l
  else
    let ended := (l.blocks.takeWhile isOver).length
    { l with
      tokens := List.replicate ended Token.blockEnd ++ l.tokens, blocks := l.blocks.drop ended }

/-- Ends all blocks. -/
def closeAll (l : Layout) : Layout := l.closeBlocks fun _ => true

/-! ## Blanks and comments -/

/-- The place of the next token.  A tab counts as a blank where no key may start. -/
def skipBlanks : Nat → Layout → Layout
  | 0, l => l
  | fuel + 1, l =>
    let tabs := l.inFlow || !l.keyAllowed
    let c := l.cursor.skipWhile fun ch => ch = ' ' || (tabs && ch = '\t')
    let c := if c.rest.head? = some '#' then c.skipWhile fun ch => !isBreak ch else c
    match c.lineBreak? with
    | some (_, c) => skipBlanks fuel ((l.moveTo c).allowKey (l.keyAllowed || !l.inFlow))
    | none => l.moveTo c

/-! ## Directives -/

/-- A number of at most nine digits at a place, and the place behind it. -/
def number? (c : Cursor) : Option (Nat × Cursor) :=
  let digits := c.rest.takeWhile Char.isDigit
  if digits.isEmpty || 9 < digits.length then none
  else some (digits.foldl (fun n d => n * 10 + (d.toNat - '0'.toNat)) 0, c.advance digits.length)

/-- The version at a place, and the place behind it. -/
def version? (c : Cursor) : Option (Token × Cursor) := do
  let (major, c) ← number? (c.skipWhile isWhite)
  if c.rest.head? = some '.' then
    let (minor, c) ← number? (c.advance 1)
    return (.version major minor, c)
  else none

/-- The handle and the beginning of its tags at a place, and the place behind them. -/
def handle? (c : Cursor) : Option (Token × Cursor) := do
  let c := c.skipWhile isWhite
  let (handle, isClosed) ← tagHandle? c.rest
  let c := c.advance handle.length
  if (!isClosed && handle ≠ ['!']) || !c.rest.head?.any isWhite then none
  else
    let c := c.skipWhile isWhite
    let (beginning, n) ← someTagChars? true c.rest
    let c := c.advance n
    if endsWord c.rest then
      return (.handle (String.ofList handle) (String.ofList beginning), c)
    else none

/-- Reads a directive. -/
def directive? (l : Layout) : Option Layout := do
  let l ← l.closeAll.dropKey?
  let c := l.cursor.advance 1
  let name := c.rest.takeWhile isNameChar
  let c := c.advance name.length
  if name.isEmpty || !endsWord c.rest then none
  else
    let (t, c) ←
      if name = "YAML".toList then version? c
      else if name = "TAG".toList then handle? c
      else none
    let c := c.skipComment
    if endsLine c.rest then return ((l.emit t).moveTo c.skipBreak).allowKey false else none

/-! ## Marks -/

/-- Reads the mark of a document. -/
def marker? (l : Layout) (t : Token) : Option Layout := do
  let l ← l.closeAll.dropKey?
  return ((l.emit t).advance 3).allowKey false

/-- Reads an opening bracket. -/
def openFlow? (l : Layout) (t : Token) : Option Layout := do
  let l ← l.saveKey?
  return ({ l with keys := none :: l.keys }.emit t |>.advance 1).allowKey true

/-- Reads a closing bracket. -/
def closeFlow? (l : Layout) (t : Token) : Option Layout := do
  let l ← l.dropKey?
  let l := if l.inFlow then { l with keys := l.keys.drop 1 } else l
  return ((l.emit t).advance 1).allowKey false

/-- Reads a comma. -/
def comma? (l : Layout) : Option Layout := do
  let l ← l.dropKey?
  return ((l.emit .comma).advance 1).allowKey true

/-- Reads the hyphen of an item. -/
def entry? (l : Layout) : Option Layout := do
  if !l.inFlow && !l.keyAllowed then none
  else
    let l ← (l.openBlock l.cursor.column l.tokens.length .sequenceBlock).dropKey?
    return ((l.emit .entry).advance 1).allowKey true

/-- Reads the question mark of a key. -/
def key? (l : Layout) : Option Layout := do
  if !l.inFlow && !l.keyAllowed then none
  else
    let l ← (l.openBlock l.cursor.column l.tokens.length .mappingBlock).dropKey?
    return ((l.emit .key).advance 1).allowKey !l.inFlow

/-- Reads the colon before a value. -/
def value? (l : Layout) : Option Layout :=
  match l.keys with
  | some k :: rest =>
    let l := { l with keys := none :: rest }.insertAt k.position [.key]
    let l := l.openBlock k.place.column k.position .mappingBlock
    some (((l.emit .value).advance 1).allowKey false)
  | _ =>
    if !l.inFlow && !l.keyAllowed then none
    else
      let l := l.openBlock l.cursor.column l.tokens.length .mappingBlock
      some (((l.emit .value).advance 1).allowKey !l.inFlow)

/-! ## Names and scalars -/

/-- Whether a text can follow a name. -/
def endsName (cs : List Char) : Bool :=
  endsWord cs || cs.head?.any fun c => "?:,]\x7d%@\x60".toList.contains c

/-- Reads the name of an anchor or an alias. -/
def name? (l : Layout) (t : String → Token) : Option Layout := do
  let l ← l.saveKey?
  let c := l.cursor.advance 1
  let name := c.rest.takeWhile isNameChar
  let c := c.advance name.length
  if name.isEmpty || !endsName c.rest then none
  else return ((l.emit (t (String.ofList name))).moveTo c).allowKey false

/-- Reads a tag. -/
def tag? (l : Layout) : Option Layout := do
  let l ← l.saveKey?
  let (name, c) ← tagName? l.inFlow l.cursor
  return ((l.emit (.tag name)).moveTo c).allowKey false

/-- Reads a block scalar. -/
def blockText? (l : Layout) : Option Layout := do
  let l ← l.dropKey?
  let (text, c) ← blockScalar? l.block? l.cursor
  return ((l.emit (.scalar false text)).moveTo c).allowKey true

/-- Reads a scalar in quotes. -/
def quoted? (l : Layout) (quote : Char) : Option Layout := do
  let l ← l.saveKey?
  let (text, c) ← Yaml.quoted? quote l.cursor
  return ((l.emit (.scalar false text)).moveTo c).allowKey false

/-- Reads a plain scalar. -/
def plain? (l : Layout) : Option Layout := do
  let l ← l.saveKey?
  let (s, c) ← Yaml.plain? l.inFlow l.innerColumn l.cursor
  return ((l.emit (.scalar true s.text)).moveTo c).allowKey s.brokenAfter

/-- Whether a plain scalar can start with a character before a text. -/
def startsPlain (inFlow : Bool) (c : Char) (rest : List Char) : Bool :=
  if c = '-' then !rest.head?.any isWhite
  else if c = '?' || c = ':' then !inFlow && !endsWord rest
  else !isWhite c && !(",[]\x7b\x7d#&*!|>'\"%@\x60".toList.contains c)

/-! ## Reading -/

/-- Reads one token that starts with a character. -/
def token? (l : Layout) (c : Char) (rest : List Char) : Option Layout :=
  let place := l.cursor
  if place.column = 0 && c = '%' then l.directive?
  else if place.isAtTriple '-' then l.marker? .documentStart
  else if place.isAtTriple '.' then l.marker? .documentEnd
  else if c = '[' then l.openFlow? .sequenceOpen
  else if c = '\x7b' then l.openFlow? .mappingOpen
  else if c = ']' then l.closeFlow? .sequenceClose
  else if c = '\x7d' then l.closeFlow? .mappingClose
  else if c = ',' then l.comma?
  else if c = '-' && endsWord rest then l.entry?
  else if c = '?' && (l.inFlow || endsWord rest) then l.key?
  else if c = ':' && (l.inFlow || endsWord rest) then l.value?
  else if c = '*' then l.name? .alias
  else if c = '&' then l.name? .anchor
  else if c = '!' then l.tag?
  else if (c = '|' || c = '>') && !l.inFlow then l.blockText?
  else if c = '\'' || c = '"' then l.quoted? c
  else if startsPlain l.inFlow c rest then l.plain?
  else none

/-- Goes to the next token and ends the blocks that are over there. -/
def approach? (l : Layout) : Option Layout := do
  let l ← (l.skipBlanks (l.cursor.rest.length + 1)).dropStale?
  return l.closeBlocks fun column => l.cursor.column < column

/-- Reads on up to the end of the text. -/
def run? : Nat → Layout → Option (List Token)
  | 0, _ => none
  | fuel + 1, l => do
    let l ← l.approach?
    match l.cursor.rest with
    | [] => return (← l.closeAll.dropKey?).tokens.reverse
    | c :: rest => run? fuel (← l.token? c rest)

end Layout

/-- The tokens of a text; a mark of the byte order in front does not count. -/
def tokens? (s : String) : Option (List Token) :=
  let cs := match s.toList with
    | '\ufeff' :: rest => rest
    | cs => cs
  if cs.all isPrintable then (Layout.start cs).run? (cs.length + 1) else none

end PaneEngine.Yaml
