import PaneEngine.Yaml.Cursor

/-!
# Plain and quoted scalars

A scalar may run over several lines.  White space around a line break inside it
does not count; a single break becomes a space and several become one less.
Between double quotes a backslash escapes characters and also line breaks.

## Main definitions

* `Yaml.Gap` — white space and line breaks between words;
* `Yaml.quoted?` — scalars in quotes;
* `Yaml.plain?` — scalars without.
-/

namespace PaneEngine.Yaml

/-! ## Gaps -/

/-- What lies between two words. -/
structure Gap where
  /-- Whether a line has been broken. -/
  broken : Bool
  /-- The white space, unless a line has been broken. -/
  white : List Char
  /-- The line breaks. -/
  breaks : List Char

namespace Gap

/-- Nothing. -/
def empty : Gap := ⟨false, [], []⟩

/-- What stands for a gap: of a single break a space, of several all but the first. -/
def text (g : Gap) : List Char :=
  if !g.broken then g.white
  else match g.breaks with
    | ['\n'] => [' ']
    | '\n' :: more => more
    | breaks => breaks

/-- Reads on in a gap.  A tab before `column` at the start of a line is not allowed. -/
def readFrom? (column : Nat) : Nat → Gap → Cursor → Option (Gap × Cursor)
  | 0, g, c => some (g, c)
  | fuel + 1, g, c =>
    match c.rest.head? with
    | none => some (g, c)
    | some ch =>
      if isWhite ch then
        if g.broken && c.column < column && ch = '\t' then none
        else
          let g := if g.broken then g else { g with white := g.white ++ [ch] }
          readFrom? column fuel g (c.advance 1)
      else match c.lineBreak? with
        | some (b, c) => readFrom? column fuel ⟨true, [], g.breaks ++ [b]⟩ c
        | none => some (g, c)

/-- The gap at a place, and the place behind it. -/
def read? (column : Nat) (c : Cursor) : Option (Gap × Cursor) :=
  readFrom? column c.rest.length empty c

/-- The line breaks behind an escaped one, and the place behind them. -/
def readEscaped (c : Cursor) : List Char × Cursor :=
  match readFrom? 0 c.rest.length ⟨true, [], []⟩ c with
  | some (g, c) => (g.breaks, c)
  | none => ([], c)

end Gap

/-! ## Quoted scalars -/

/-- The value of a hexadecimal digit. -/
def hexValue? (c : Char) : Option Nat :=
  if c.isDigit then some (c.toNat - '0'.toNat)
  else if 'a' ≤ c && c ≤ 'f' then some (c.toNat - 'a'.toNat + 10)
  else if 'A' ≤ c && c ≤ 'F' then some (c.toNat - 'A'.toNat + 10)
  else none

/-- The value of that many hexadecimal digits at the start of a text. -/
def hexNumber? (digits : Nat) (cs : List Char) : Option Nat :=
  if cs.length < digits then none
  else (cs.take digits).foldlM (fun n c => (hexValue? c).map fun d => n * 16 + d) 0

/-- The character with that code, if it has one. -/
def charOf? (n : Nat) : Option Char := if n.isValidChar then some (Char.ofNat n) else none

/-- The character that is escaped by a single one. -/
def simpleEscape? : Char → Option Char
  | '0' => some '\x00'
  | 'a' => some '\x07'
  | 'b' => some '\x08'
  | 't' | '\t' => some '\t'
  | 'n' => some '\n'
  | 'v' => some '\x0b'
  | 'f' => some '\x0c'
  | 'r' => some '\r'
  | 'e' => some '\x1b'
  | ' ' => some ' '
  | '"' => some '"'
  | '/' => some '/'
  | '\\' => some '\\'
  | 'N' => some '\u0085'
  | '_' => some '\u00a0'
  | 'L' => some '\u2028'
  | 'P' => some '\u2029'
  | _ => none

/-- How many hexadecimal digits follow an escape. -/
def escapeDigits? : Char → Option Nat
  | 'x' => some 2
  | 'u' => some 4
  | 'U' => some 8
  | _ => none

/-- The character that is escaped behind a backslash, and the length of its escape. -/
def escape? : List Char → Option (Char × Nat)
  | [] => none
  | c :: rest =>
    match escapeDigits? c with
    | some digits => ((hexNumber? digits rest).bind charOf?).map fun c => (c, digits + 2)
    | none => (simpleEscape? c).map fun c => (c, 2)

/-- What comes next in a quoted scalar. -/
inductive QuotedStep where
  | char (c : Char) (length : Nat)
  /-- The word ends here. -/
  | stop
  /-- An escape without meaning. -/
  | bad

/-- What comes next in a quoted scalar. -/
def quotedStep (quote : Char) : List Char → QuotedStep
  | [] => .stop
  | c :: rest =>
    if isWhite c || isBreak c then .stop
    else if c = quote then
      if quote = '\'' && rest.head? = some quote then .char quote 2 else .stop
    else if quote = '"' && c = '\\' then
      if (lineBreak? rest).isSome then .stop
      else match escape? rest with
        | some (c, length) => .char c length
        | none => .bad
    else .char c 1

/-- The characters of a word in quotes, and the length of the word. -/
def quotedWord? (quote : Char) : Nat → List Char → Option (List Char × Nat)
  | 0, _ => some ([], 0)
  | fuel + 1, cs =>
    match quotedStep quote cs with
    | .stop => some ([], 0)
    | .bad => none
    | .char c length =>
      (quotedWord? quote fuel (cs.drop length)).map fun (word, more) => (c :: word, length + more)

/-- Reads on in a quoted scalar. -/
def quotedFrom? (quote : Char) : Nat → List Char → Cursor → Option (String × Cursor)
  | 0, _, _ => none
  | fuel + 1, before, c =>
    if c.isAtMarker then none
    else do
      let (word, length) ← quotedWord? quote c.rest.length c.rest
      let c := c.advance length
      let text := before ++ word
      let next ← c.rest.head?
      if next = quote then return (String.ofList text, c.advance 1)
      else if next = '\\' then
        let (breaks, c) := Gap.readEscaped (c.advance 1).skipBreak
        quotedFrom? quote fuel (text ++ breaks) c
      else
        let (gap, c) ← Gap.read? 0 c
        quotedFrom? quote fuel (text ++ gap.text) c

/-- The scalar in quotes at a place, and the place behind it. -/
def quoted? (quote : Char) (c : Cursor) : Option (String × Cursor) :=
  quotedFrom? quote (c.rest.length + 1) [] (c.advance 1)

/-! ## Plain scalars -/

/-- A character that separates items inside brackets. -/
def isFlowMark (c : Char) : Bool := c = ',' || c = '[' || c = ']' || c = '\x7b' || c = '\x7d'

/-- The length of the plain word at the start of a text; none if a colon in it is misplaced. -/
def plainWord? (inFlow : Bool) : List Char → Option Nat
  | [] => some 0
  | c :: rest =>
    if isWhite c || isBreak c then some 0
    else if inFlow && c = ':' && rest.head?.any fun d => isFlowMark d || d = '?' then none
    else if (c = ':' && endsWord rest) || (inFlow && isFlowMark c) then some 0
    else (plainWord? inFlow rest).map (· + 1)

/-- A plain scalar that has been read. -/
structure PlainScalar where
  text : String
  /-- Whether a line has been broken behind it. -/
  brokenAfter : Bool

/-- Reads on in a plain scalar, whose further lines start at `column` or behind. -/
def plainFrom? (inFlow : Bool) (column : Nat) :
    Nat → List Char → Gap → Cursor → Option (PlainScalar × Cursor)
  | 0, _, _, _ => none
  | fuel + 1, before, gap, c =>
    let done := some (⟨String.ofList before, gap.broken⟩, c)
    if c.isAtMarker || c.rest.head? = some '#' then done
    else
      match plainWord? inFlow c.rest with
      | none => none
      | some 0 => done
      | some length =>
        let text := before ++ gap.text ++ c.rest.take length
        let c := c.advance length
        if c.rest.isEmpty || !endsWord c.rest then some (⟨String.ofList text, false⟩, c)
        else
          match Gap.read? column c with
          | none => none
          | some (gap, c) =>
            if !inFlow && c.column < column then some (⟨String.ofList text, gap.broken⟩, c)
            else plainFrom? inFlow column fuel text gap c

/-- The plain scalar at a place, and the place behind it and the white space after it. -/
def plain? (inFlow : Bool) (column : Nat) (c : Cursor) : Option (PlainScalar × Cursor) :=
  plainFrom? inFlow column (c.rest.length + 1) [] .empty c

end PaneEngine.Yaml
