import PaneEngine.Yaml.Cursor

/-!
# Block scalars

A block scalar is introduced by a bar, which keeps its line breaks, or by an
angle bracket, which folds single breaks between lines that are not indented
further into spaces.  Its header may fix the indentation and what becomes of
the breaks at the end.

## Main definitions

* `Yaml.BlockHeader`, `Yaml.blockHeader?` — headers;
* `Yaml.blockScalar?` — block scalars.
-/

namespace PaneEngine.Yaml

/-- What becomes of the line breaks at the end of a block scalar. -/
inductive Chomping where
  | strip
  /-- One of them stays. -/
  | clip
  | keep
deriving DecidableEq

/-- The header of a block scalar. -/
structure BlockHeader where
  chomping : Chomping
  /-- The indentation relative to what encloses the scalar, if it is fixed. -/
  indentation : Option Nat

/-- The chomping that a character stands for. -/
def chomping? : Char → Option Chomping
  | '+' => some .keep
  | '-' => some .strip
  | _ => none

/-- The header at the start of a text, and its length; an indentation of zero is not allowed. -/
def blockHeader? (cs : List Char) : Option (BlockHeader × Nat) :=
  let digit? (c : Char) : Option Nat := if c.isDigit then some (c.toNat - '0'.toNat) else none
  let first := cs[0]?
  let second := cs[1]?
  let found : BlockHeader × Nat :=
    match first.bind chomping?, first.bind digit? with
    | some chomping, _ =>
      match second.bind digit? with
      | some n => (⟨chomping, some n⟩, 2)
      | none => (⟨chomping, none⟩, 1)
    | none, some n =>
      match second.bind chomping? with
      | some chomping => (⟨chomping, some n⟩, 2)
      | none => (⟨.clip, some n⟩, 1)
    | none, none => (⟨.clip, none⟩, 0)
  if found.1.indentation = some 0 then none else some found

/-- The empty lines at a place: their line breaks, the greatest column met, and the place behind
them.  Without an indentation every space belongs to them; a tab before it is not allowed. -/
def emptyLines? (indentation : Option Nat) : Nat → List Char → Nat → Cursor →
    Option (List Char × Nat × Cursor)
  | 0, breaks, widest, c => some (breaks, widest, c)
  | fuel + 1, breaks, widest, c =>
    let spaces := (c.rest.takeWhile (· = ' ')).length
    let c := c.advance <| match indentation with
      | some n => min spaces (n - c.column)
      | none => spaces
    let widest := max widest c.column
    let isInside := indentation.all fun n => decide (c.column < n)
    if isInside && c.rest.head? = some '\t' then none
    else match c.lineBreak? with
      | some (b, c) => emptyLines? indentation fuel (breaks ++ [b]) widest c
      | none => some (breaks, widest, c)

/-- The lines of a block scalar that have been read. -/
structure BlockLines where
  text : List Char
  /-- The line break behind the last line. -/
  lastBreak : List Char
  /-- The breaks of the empty lines behind it. -/
  emptyBreaks : List Char
  /-- Whether the last line is indented further. -/
  isDeeper : Bool

/-- What stands between the lines read and the next one. -/
def BlockLines.joint (folded : Bool) (ls : BlockLines) (nextIsDeeper : Bool) : List Char :=
  if folded && ls.lastBreak = ['\n'] && !ls.isDeeper && !nextIsDeeper then
    if ls.emptyBreaks.isEmpty then [' '] else ls.emptyBreaks
  else ls.lastBreak ++ ls.emptyBreaks

/-- Reads on in a block scalar, whose lines start at `column`. -/
def blockLines? (folded : Bool) (column : Nat) : Nat → BlockLines → Cursor →
    Option (BlockLines × Cursor)
  | 0, ls, c => some (ls, c)
  | fuel + 1, ls, c =>
    if c.column = column && !c.rest.isEmpty then
      let isDeeper := c.rest.head?.any isWhite
      let line := c.rest.takeWhile fun ch => !isBreak ch
      let text := ls.text ++ ls.joint folded isDeeper ++ line
      let c := c.advance line.length
      let (lastBreak, c) := match c.lineBreak? with
        | some (b, c) => ([b], c)
        | none => ([], c)
      match emptyLines? (some column) (c.rest.length + 1) [] 0 c with
      | some (emptyBreaks, _, c) =>
        blockLines? folded column fuel ⟨text, lastBreak, emptyBreaks, isDeeper⟩ c
      | none => none
    else some (ls, c)

/-- The block scalar at a place inside a block at `parent`, and the place behind it. -/
def blockScalar? (parent : Option Nat) (c : Cursor) : Option (String × Cursor) := do
  let folded := c.rest.head? = some '>'
  let c := c.advance 1
  let (header, length) ← blockHeader? c.rest
  let c := (c.advance length).skipComment
  if !endsLine c.rest then none
  else
    let c := c.skipBreak
    let fixed := header.indentation.map fun n => parent.getD 0 + n
    let (breaks, widest, c) ← emptyLines? fixed (c.rest.length + 1) [] 0 c
    let least := parent.elim 1 (· + 1)
    let column := fixed.getD (max widest least)
    let (ls, c) ← blockLines? folded column (c.rest.length + 1) ⟨[], [], breaks, false⟩ c
    let ending := match header.chomping with
      | .strip => []
      | .clip => ls.lastBreak
      | .keep => ls.lastBreak ++ ls.emptyBreaks
    return (String.ofList (ls.text ++ ending), c)

end PaneEngine.Yaml
