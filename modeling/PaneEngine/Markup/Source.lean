import PaneEngine.Markup.Character

/-!
# Sources

A document is read by position: what a construct means can depend on the text
before it, and a line belongs to its containers before it belongs to a
paragraph.  A `Source` has the text behind every position at hand.

A line ends with a line feed, a carriage return, or both in that order.  Some
constructs know lines that end with a line feed only; `lineLength` counts
those.

## Main definitions

* `Markup.Source` — a text with its positions;
* `Markup.lineEnd?`, `Markup.blankLine?`, `Markup.lineLength` — ends of lines.
-/

namespace PaneEngine.Markup

/-- A text, by position. -/
structure Source where
  /-- The text behind each position. -/
  rests : Array (List Char)

namespace Source

/-- Adds the text behind each further position. -/
def collect (rests : Array (List Char)) : List Char → Array (List Char)
  | [] => rests
  | c :: cs => collect (rests.push (c :: cs)) cs

/-- The positions of a text. -/
def ofString (s : String) : Source := ⟨collect #[] s.toList⟩

/-- The length of the text. -/
def size (src : Source) : Nat := src.rests.size

/-- The text behind a position. -/
def behind (src : Source) (i : Nat) : List Char := src.rests.getD i []

/-- The text between two positions. -/
def slice (src : Source) (i j : Nat) : List Char := (src.behind i).take (j - i)

/-- The character before a position. -/
def before? (src : Source) : Nat → Option Char
  | 0 => none
  | i + 1 => (src.behind i).head?

/-- How many characters before a position satisfy `p` without a gap. -/
def countBefore (p : Char → Bool) (src : Source) : Nat → Nat
  | 0 => 0
  | i + 1 => if (src.behind i).head?.any p then countBefore p src i + 1 else 0

end Source

/-! ## Ends of lines -/

/-- The length of the end of a line at the start of a text; the end of the text counts as one. -/
def lineEnd? : List Char → Option Nat
  | [] => some 0
  | '\n' :: _ => some 1
  | '\r' :: '\n' :: _ => some 2
  | '\r' :: _ => some 1
  | _ => none

/-- The length of the rest of a line if it is blank. -/
def blankLine? (cs : List Char) : Option Nat :=
  let n := countWhile isSpaceOrTab cs
  (lineEnd? (cs.drop n)).map (n + ·)

/-- The length of a line that ends with a line feed. -/
def lineLength (cs : List Char) : Nat :=
  let n := countWhile (· ≠ '\n') cs
  if (cs.drop n).isEmpty then n else n + 1

end PaneEngine.Markup
