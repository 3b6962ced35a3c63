import PaneEngine.Markup.Node
import PaneEngine.Markup.Reference
import PaneEngine.Text.CaseFold

/-!
# Link destinations, titles and labels

The parts that inline links, references and definitions share.  Every reader
returns what it found with the number of characters it took.

A title or label may reach over the end of a line.  What belongs to containers
at the start of the next line is passed: the title of an inline link goes on
where the next node begins, a label is told how long that part is.

## Main definitions

* `Markup.destination?`, `Markup.inlineTitle?` — the parts of a link behind its text;
* `Markup.linkTail?` — the part in parentheses of an inline link;
* `Markup.label?`, `Markup.Definitions` — labels and what they refer to.
-/

namespace PaneEngine.Markup

/-! ## Destinations -/

/-- The length up to the closing `>` of a destination in angle brackets. -/
def angleLength? : List Char → Option Nat
  | [] => none
  | '\\' :: c :: rest =>
    if Text.isAsciiPunctuation c then (angleLength? rest).map (· + 2)
    else (angleLength? (c :: rest)).map (· + 1)
  | c :: rest =>
    if c = '>' then some 0
    else if c = '<' || c = '\n' || c = '\r' then none
    else (angleLength? rest).map (· + 1)

/-- The length of a plain destination.  Parentheses nest at most `limit + 1` deep; those that are
not closed are no obstacle. -/
def plainLength? (limit depth : Nat) : List Char → Option Nat
  | [] => some 0
  | '\\' :: c :: rest =>
    if Text.isAsciiPunctuation c then (plainLength? limit depth rest).map (· + 2)
    else (plainLength? limit depth (c :: rest)).map (· + 1)
  | c :: rest =>
    if c.toNat ≤ 0x20 then some 0
    else if c = '(' then
      if limit < depth then none else (plainLength? limit (depth + 1) rest).map (· + 1)
    else if c = ')' then
      if depth = 0 then some 0 else (plainLength? limit (depth - 1) rest).map (· + 1)
    else (plainLength? limit depth rest).map (· + 1)

/-- The destination at the start of a text, still escaped, and its length. -/
def destination? (limit : Nat) : List Char → Option (List Char × Nat)
  | '<' :: rest => (angleLength? rest).map fun n => (rest.take n, n + 2)
  | cs => (plainLength? limit 0 cs).map fun n => (cs.take n, n)

/-! ## Titles -/

/-- The mark that closes a title. -/
def closingMark? : Char → Option Char
  | '"' => some '"'
  | '\'' => some '\''
  | '(' => some ')'
  | _ => none

/-- How far the node that follows the end of a line at `position` begins behind it; none if it
covers the position. -/
def gapToNode? (nodes : List Node) (position : Nat) : Option Nat :=
  match nodes.dropWhile fun n => n.stop ≤ position + 1 with
  | n :: _ => if position < n.start then some (n.start - position) else none
  | [] => none

/-- The title at a position, without escapes, behind `pending` characters that are passed; its
length counts the closing mark.  `nodes` are those that follow the link text. -/
def titleFrom? (nodes : List Node) (opening closing : Char) :
    Nat → Nat → List Char → Option (List Char × Nat)
  | _, _, [] => none
  | i, pending + 1, _ :: rest =>
    (titleFrom? nodes opening closing (i + 1) pending rest).map fun (t, n) => (t, n + 1)
  | i, 0, c :: rest =>
    let literal (cs : List Char) (pending : Nat) :=
      (titleFrom? nodes opening closing (i + 1) pending rest).map fun (t, n) => (cs ++ t, n + 1)
    if c = closing then some ([], 1)
    else if c = opening then none
    else if c = '\n' || c = '\r' then
      match gapToNode? nodes i with
      | some k => literal ['\n'] (k - 1)
      | none => literal [c] 0
    else if c = '&' then
      match reference? rest with
      | some (value, n) => literal value n
      | none => literal [c] 0
    else if c = '\\' then
      match rest with
      | d :: _ => if Text.isAsciiPunctuation d then literal [d] 1 else literal [c] 0
      | [] => none
    else literal [c] 0

/-- The title of an inline link at a position, without escapes, and its length with the marks. -/
def inlineTitle? (nodes : List Node) (position : Nat) : List Char → Option (List Char × Nat)
  | [] => none
  | c :: rest => do
    let closing ← closingMark? c
    let (title, n) ← titleFrom? nodes c closing (position + 1) 0 rest
    return (title, n + 1)

/-! ## Inline links -/

/-- The target in the text at a position, behind the closing bracket of an inline link, and the
length of that part. -/
def linkTail? (nodes : List Node) (position : Nat) : List Char → Option (Target × Nat)
  | '(' :: cs => do
    let s₁ := countWhile isAsciiBlank cs
    let cs := cs.drop s₁
    let (dest, n) ← destination? 5 cs
    let cs := cs.drop n
    let s₂ := countWhile isAsciiBlank cs
    let cs := cs.drop s₂
    let before := 1 + s₁ + n + s₂
    let (title, m) := (inlineTitle? nodes (position + before) cs).getD ([], 0)
    let cs := cs.drop m
    let s₃ := if m = 0 then 0 else countWhile isAsciiBlank cs
    match cs.drop s₃ with
    | ')' :: _ =>
      return (⟨String.ofList (unescape dest), String.ofList title⟩, before + m + s₃ + 1)
    | _ => none
  | _ => none

/-! ## Labels -/

/-- How much of a line belongs to containers; none for a line that cannot be part of a label. -/
abbrev LabelLine := List Char → Option Nat

/-- The length of blanks with at most one end of a line among them, behind `pending` characters
that are passed; `broken` tells whether that end has been seen. -/
def labelGap? (line : LabelLine) (broken : Bool) : Nat → List Char → Option Nat
  | _, [] => some 0
  | pending + 1, _ :: rest => (labelGap? line broken pending rest).map (· + 1)
  | 0, c :: rest =>
    if isSpaceOrTab c then (labelGap? line broken 0 rest).map (· + 1)
    else if c = '\n' || c = '\r' then
      if broken then none
      else
        let n := if c = '\r' && rest.head? = some '\n' then 1 else 0
        (line (rest.drop n)).bind fun k => (labelGap? line true (n + k) rest).map (· + 1)
    else some 0

/-- The bound on what a label may weigh. -/
def labelLimit : Nat := 1000

/-- The rest of a label behind a part of some weight, with runs of blanks as one space, and its
length with the closing bracket.  Blanks, escapes and characters beyond ASCII weigh something. -/
def labelFrom? (line : LabelLine) (weight : Nat) (cs : List Char) : Option (List Char × Nat) :=
  if labelLimit ≤ weight then none
  else match cs with
    | [] => none
    | c :: rest =>
      if c = ']' then some ([], 1)
      else if c = '[' then none
      else if c = '\\' then
        match rest with
        | [] => none
        | d :: more =>
          (labelFrom? line (weight + 1 + d.utf8Size) more).map fun (l, n) => (c :: d :: l, n + 2)
      else if isAsciiBlank c then
        (labelGap? line false 0 (c :: rest)).bind fun gap =>
          (labelFrom? line (weight + gap) (rest.drop (gap - 1))).map fun (l, n) =>
            (' ' :: l, n + gap)
      else
        let w := if c.toNat < 0x80 then 0 else c.utf8Size
        (labelFrom? line (weight + w) rest).map fun (l, n) => (c :: l, n + 1)
termination_by cs.length
decreasing_by all_goals (simp only [List.length_cons, List.length_drop]; omega)

/-- The label whose opening bracket has been read, and its length with the closing one; it must not
be blank. -/
def label? (line : LabelLine) (cs : List Char) : Option (List Char × Nat) :=
  (labelFrom? line 0 cs).filter fun (label, _) => label.any (· ≠ ' ')

/-- The targets of the labels that a document defines, the first definition of a label first.
Labels are compared by case folding. -/
abbrev Definitions := List (List Char × Target)

/-- The target of a label. -/
def Definitions.find? (ds : Definitions) (label : List Char) : Option Target :=
  List.lookup (Text.foldCase label) ds

/-- Adds a definition behind the others. -/
def Definitions.add (label : List Char) (target : Target) (ds : Definitions) : Definitions :=
  ds ++ [(Text.foldCase label, target)]

end PaneEngine.Markup
