import PaneEngine.Markup.BlockStart
import PaneEngine.Markup.Destination

/-!
# Definitions of labels

A definition stands at the start of a block: a label in brackets, a colon, a
destination and perhaps a title.  One end of a line may stand between two of
these parts, and the line behind it has to continue all containers.

## Main definitions

* `Markup.definition?` — the definition at a position.
-/

namespace PaneEngine.Markup

/-- How much of a line belongs to containers, for a line of a label; none if it begins something
else. -/
def definitionLine (containers : List Container) : LabelLine := fun line =>
  let (left, cur) := continueAll containers ⟨line, 0, 0, 0⟩
  if interrupts (left = 0) cur.rest then none else some cur.position

/-- Where the next part begins behind blanks, and whether it is on a new line. -/
def nextPart? (src : Source) (containers : List Container) (position : Nat) :
    Option (Nat × Bool) :=
  let i := position + countWhile isSpaceOrTab (src.behind position)
  match lineEnd? (src.behind i) with
  | none => some (i, false)
  | some n =>
    let (left, cur) := continueAll containers (.start src (i + n))
    let j := cur.position + countWhile isSpaceOrTab cur.rest
    if left = 0 && (lineEnd? (src.behind j)).isNone then some (j, true) else none

/-- The length of a title up to its closing mark; a blank line must not stand in it. -/
def titleLength? (closing : Char) : List Char → Option Nat
  | [] => none
  | '\\' :: _ :: rest => (titleLength? closing rest).map (· + 2)
  | c :: rest =>
    if c = closing then some 0
    else if c = '\n' && (rest.dropWhile isSpaceOrTab).head? = some '\n' then none
    else (titleLength? closing rest).map (· + 1)

/-- The title at the start of a text, still escaped, and its length with the marks. -/
def title? : List Char → Option (List Char × Nat)
  | [] => none
  | c :: rest => do
    let closing ← closingMark? c
    let n ← titleLength? closing rest
    return (rest.take n, n + 2)

/-- The title at a position and where the definition ends.  A title has to end its line; if it does
not, but began on a new line, the definition ends with the destination at `position`. -/
def titleAfter? (src : Source) (containers : List Container) (position : Nat) :
    Option (List Char × Nat) :=
  match nextPart? src containers position with
  | none => some ([], position)
  | some (i, newLine) =>
    if i = position && !newLine then none
    else match title? (src.behind i) with
      | none => if newLine then some ([], position) else none
      | some (title, n) =>
        match blankLine? (src.behind (i + n)) with
        | some k => some (title, i + n + k)
        | none => if newLine then some (title, position) else none

/-- A label with its target, and where the block behind it begins. -/
structure Definition where
  label : List Char
  target : Target
  next : Nat

/-- The definition at a position. -/
def definition? (src : Source) (containers : List Container) (position : Nat) :
    Option Definition :=
  match src.behind position with
  | '[' :: cs => do
    let (label, n) ← label? (definitionLine containers) cs
    if (cs.drop n).head? ≠ some ':' then none
    else
      let (i, _) ← nextPart? src containers (position + 1 + n + 1)
      let (dest, m) ← destination? 1 (src.behind i)
      if m = 0 then none
      else
        let (title, stop) ← titleAfter? src containers (i + m)
        let target : Target := ⟨String.ofList (unescape dest), String.ofList (unescape title)⟩
        return ⟨label, target, stop + (blankLine? (src.behind stop)).getD 0⟩
  | _ => none

end PaneEngine.Markup
