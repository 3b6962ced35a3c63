/-!
# Places in YAML texts

In a YAML text the place of a character matters: blocks nest by their columns,
and a key without a mark of its own has to end on the line it starts on.  A
cursor is a place together with what follows it.

## Main definitions

* `Yaml.isBreak`, `Yaml.isWhite`, `Yaml.isPrintable` — classes of characters;
* `Yaml.Cursor` — a place in a text, and what follows it;
* `Yaml.Cursor.lineBreak?` — the line break at a place.
-/

namespace PaneEngine.Yaml

/-! ## Characters -/

/-- A character that breaks a line. -/
def isBreak (c : Char) : Bool :=
  c = '\n' || c = '\r' || c = '\u0085' || c = '\u2028' || c = '\u2029'

/-- A space or a tab. -/
def isWhite (c : Char) : Bool := c = ' ' || c = '\t'

/-- A character that may stand in a text. -/
def isPrintable (c : Char) : Bool :=
  let n := c.toNat
  n = 0x09 || n = 0x0A || n = 0x0D || (0x20 ≤ n && n ≤ 0x7E) || n = 0x85 ||
    (0xA0 ≤ n && n ≤ 0xFFFD) || 0x10000 ≤ n

/-- A letter, a digit, a hyphen or an underscore. -/
def isNameChar (c : Char) : Bool := c.isAlphanum || c = '-' || c = '_'

/-- Whether a word is over: a blank, a line break or the end of the text follows. -/
def endsWord : List Char → Bool
  | [] => true
  | c :: _ => isWhite c || isBreak c

/-- Whether a line is over. -/
def endsLine : List Char → Bool
  | [] => true
  | c :: _ => isBreak c

/-- The line break that a text starts with: the character it stands for, and its length. -/
def lineBreak? : List Char → Option (Char × Nat)
  | '\r' :: '\n' :: _ => some ('\n', 2)
  | c :: _ =>
    if c = '\u2028' || c = '\u2029' then some (c, 1)
    else if isBreak c then some ('\n', 1)
    else none
  | [] => none

/-! ## Cursors -/

/-- A place in a text, and what follows it. -/
structure Cursor where
  rest : List Char
  /-- How many characters precede the place. -/
  index : Nat
  line : Nat
  column : Nat

namespace Cursor

/-- The place at the start of a text. -/
def start (cs : List Char) : Cursor := ⟨cs, 0, 0, 0⟩

/-- The place some characters further on the same line. -/
def advance (c : Cursor) (n : Nat) : Cursor :=
  { c with rest := c.rest.drop n, index := c.index + n, column := c.column + n }

/-- The place behind the characters of a class. -/
def skipWhile (c : Cursor) (p : Char → Bool) : Cursor := c.advance (c.rest.takeWhile p).length

/-- The character that a line break stands for, and the start of the next line. -/
def lineBreak? (c : Cursor) : Option (Char × Cursor) :=
  (Yaml.lineBreak? c.rest).map fun (b, n) =>
    (b, ⟨c.rest.drop n, c.index + n, c.line + 1, 0⟩)

/-- The place behind a line break, if there is one. -/
def skipBreak (c : Cursor) : Cursor :=
  match c.lineBreak? with
  | some (_, c) => c
  | none => c

/-- Whether three equal characters stand alone at the start of a line. -/
def isAtTriple (c : Cursor) (ch : Char) : Bool :=
  c.column = 0 && c.rest.take 3 = [ch, ch, ch] && endsWord (c.rest.drop 3)

/-- Whether a document ends here. -/
def isAtMarker (c : Cursor) : Bool := c.isAtTriple '-' || c.isAtTriple '.'

/-- The place behind white space and a comment. -/
def skipComment (c : Cursor) : Cursor :=
  let c := c.skipWhile isWhite
  if c.rest.head? = some '#' then c.skipWhile fun ch => !isBreak ch else c

end Cursor

end PaneEngine.Yaml
