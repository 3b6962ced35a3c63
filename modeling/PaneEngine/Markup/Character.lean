import PaneEngine.Text.Blank
import PaneEngine.Text.Punctuation

/-!
# Characters of markup

The classes of ASCII characters that the grammar of documents refers to, and
counting runs of one character.

## Main definitions

* `Markup.isSpaceOrTab`, `Markup.isAsciiBlank`, `Markup.isAsciiAlpha` — classes;
* `Markup.countWhile`, `Markup.runLength` — lengths at the start of a text.
-/

namespace PaneEngine.Markup

/-- A blank that does not end a line. -/
def isSpaceOrTab (c : Char) : Bool := c = ' ' || c = '\t' || c = '\x0b' || c = '\x0c'

/-- An ASCII blank, line ends included. -/
def isAsciiBlank (c : Char) : Bool := isSpaceOrTab c || c = '\n' || c = '\r'

/-- A letter of ASCII. -/
def isAsciiAlpha (c : Char) : Bool := c.isAlpha

/-- A letter or digit of ASCII. -/
def isAsciiAlphanum (c : Char) : Bool := c.isAlpha || c.isDigit

/-- How many characters at the start satisfy `p`. -/
def countWhile (p : Char → Bool) (cs : List Char) : Nat := (cs.takeWhile p).length

/-- How often `c` stands at the start. -/
def runLength (c : Char) (cs : List Char) : Nat := countWhile (· = c) cs

/-- Whether the text begins with `start`. -/
def startsWith (start cs : List Char) : Bool := start.isPrefixOf cs

/-- Whether `part` occurs in the text. -/
def occursIn (part : List Char) : List Char → Bool
  | [] => part.isEmpty
  | c :: rest => startsWith part (c :: rest) || occursIn part rest

/-- The position of the first character that satisfies `p`, the length if there is none. -/
def positionOf (p : Char → Bool) (cs : List Char) : Nat := countWhile (fun c => !p c) cs

end PaneEngine.Markup
