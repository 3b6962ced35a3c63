/-!
# Blanks

The blank characters are those with the Unicode property White_Space.  Words
of an action, sections of a directive and the copy of a text node are all
delimited by them.

## Main definitions

* `Text.isBlank` — the property;
* `Text.trim`, `Text.isBlankText` — blanks at both ends;
* `Text.collapse` — every run of blanks becomes one space.
-/

namespace PaneEngine.Text

/-- The code points with the property White_Space, as closed ranges. -/
def blankRanges : List (Nat × Nat) :=
  [(0x09, 0x0D), (0x20, 0x20), (0x85, 0x85), (0xA0, 0xA0), (0x1680, 0x1680),
   (0x2000, 0x200A), (0x2028, 0x2029), (0x202F, 0x202F), (0x205F, 0x205F), (0x3000, 0x3000)]

/-- Whether `c` has the property White_Space. -/
def isBlank (c : Char) : Bool :=
  blankRanges.any fun r => r.1 ≤ c.toNat && c.toNat ≤ r.2

/-- The characters without the blanks at either end. -/
def trimChars (cs : List Char) : List Char :=
  ((cs.dropWhile isBlank).reverse.dropWhile isBlank).reverse

/-- The text without the blanks at either end. -/
def trim (s : String) : String :=
  String.ofList (trimChars s.toList)

/-- Whether the text holds nothing but blanks. -/
def isBlankText (s : String) : Bool :=
  s.toList.all isBlank

/-- Turns each run of blanks into one space; `after` says that a space has just been written. -/
def collapseChars (after : Bool) : List Char → List Char
  | [] => []
  | c :: rest =>
    if isBlank c then
      if after then collapseChars true rest else ' ' :: collapseChars true rest
    else c :: collapseChars false rest

/-- The text with every run of blanks, at the ends too, as one space. -/
def collapse (s : String) : String :=
  String.ofList (collapseChars false s.toList)

end PaneEngine.Text
