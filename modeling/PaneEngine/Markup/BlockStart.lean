import PaneEngine.Markup.Cursor
import PaneEngine.Markup.RawHtml
import PaneEngine.Markup.Reference

/-!
# What a line may begin with

The constructs that a line can begin, and which of them end a paragraph that is
still open.

## Main definitions

* `Markup.headingLevel?`, `Markup.underline?`, `Markup.fence?` — headings and fences;
* `Markup.interruptsAsItem`, `Markup.interrupts` — what ends a paragraph.
-/

namespace PaneEngine.Markup

/-- The level of a heading that begins with number signs. -/
def headingLevel? (cs : List Char) : Option Nat :=
  let n := runLength '#' cs
  if 1 ≤ n && n ≤ 6 && (cs.drop n).head?.all isAsciiBlank then some n else none

/-- The level of a heading that is underlined by the line, and the length of the line. -/
def underline? : List Char → Option (Nat × Nat)
  | [] => none
  | c :: rest =>
    if c = '=' || c = '-' then
      let n := runLength c rest
      (blankLine? (rest.drop n)).map fun k => (if c = '=' then 1 else 2, 1 + n + k)
    else none

/-- Mark and length of the fence at the start of the text. -/
def fence? : List Char → Option (Char × Nat)
  | [] => none
  | c :: rest =>
    let n := runLength c rest + 1
    let line := (rest.drop (n - 1)).takeWhile (· ≠ '\n')
    if (c = '\x60' || c = '~') && 3 ≤ n && (c = '~' || !line.contains c) then some (c, n) else none

/-- The length of the fence that closes one of that mark and length; the end of the text does. -/
def closingFence? (mark : Char) (count : Nat) (cs : List Char) : Option Nat :=
  let n := runLength mark cs
  let k := runLength ' ' (cs.drop n)
  if cs.isEmpty then some 0
  else if count ≤ n && (lineEnd? (cs.drop (n + k))).isSome then some (n + k)
  else none

/-! ## What ends a paragraph -/

/-- The text behind the marker of a list item, and whether the marker is a bullet or number one. -/
def itemText? (cs : List Char) : Option (List Char × Bool) :=
  let marked := match cs with
    | [] => none
    | c :: rest =>
      if isBullet c then some (rest, true)
      else
        let digits := cs.takeWhile Char.isDigit
        let value := digitValue 10 digits
        match cs.drop digits.length with
        | d :: rest =>
          if !digits.isEmpty && value < Nat.pow 2 64 && (d = '.' || d = ')') then
            some (rest, value = 1)
          else none
        | [] => none
  marked.filter fun (rest, _) =>
    (lineEnd? rest).isSome || rest.head?.any fun c => c = ' ' || c = '\t'

/-- Whether both the rest of the line and the line behind it are blank. -/
def isBlankTwice (cs : List Char) : Bool :=
  match blankLine? cs with
  | some n => (blankLine? (cs.drop n)).isSome
  | none => false

/-- Whether the text begins with a list item that ends a paragraph.  Where the line continues all
containers of the paragraph it has to be a bullet or the number one, and not without text. -/
def interruptsAsItem (continued : Bool) (cs : List Char) : Bool :=
  (itemText? cs).any fun (rest, first) => !continued || (first && !isBlankTwice rest)

/-- Whether the text ends a paragraph.  The marker of a quotation does so only with a space behind
it. -/
def interrupts (continued : Bool) (cs : List Char) : Bool :=
  (lineEnd? cs).isSome || (ruleLength? cs).isSome || (headingLevel? cs).isSome
    || (fence? cs).isSome || cs.take 2 = ['>', ' '] || interruptsAsItem continued cs
    || (match cs with
      | '<' :: rest => (interruptingHtml? rest).isSome
      | _ => false)

end PaneEngine.Markup
