import PaneEngine.Markup.Node
import PaneEngine.Markup.Reference

/-!
# The content of a line

A line of a paragraph or heading is cut into texts and marks.  Escapes and
character references are replaced here; whether a run of delimiters can open or
close emphasis depends on the characters around it in the document, whatever
they belong to.

## Main definitions

* `Markup.opens`, `Markup.closes` — what a run can do;
* `Markup.mark?` — the mark at the start of a text;
* `Markup.readLine` — the nodes of a line and the break at its end.
-/

namespace PaneEngine.Markup

/-! ## Runs of delimiters -/

/-- Whether a run between these characters can open: only asterisks inside a word. -/
def opens (c : Char) (before after : Option Char) : Bool :=
  match after, before with
  | none, _ => false
  | some next, none => !Text.isBlank next
  | some next, some prev =>
    !Text.isBlank next
      && ((c = '*' && !Text.isPunctuation next) || Text.isBlank prev || Text.isPunctuation prev)

/-- Whether a run between these characters can close: only asterisks inside a word. -/
def closes (c : Char) (before after : Option Char) : Bool :=
  match before, after with
  | none, _ => false
  | some prev, none => !Text.isBlank prev
  | some prev, some next =>
    !Text.isBlank prev
      && ((c = '*' && !Text.isPunctuation prev) || Text.isBlank next || Text.isPunctuation next)

/-! ## Marks -/

/-- What stands at a position that is not just text: its nodes, how many characters are taken, and
whether they are taken out of the text around. -/
structure Marked where
  nodes : List Node
  taken : Nat
  isText : Bool

/-- The run of delimiters that begins with `c` before `rest`. -/
def runMark (src : Source) (position : Nat) (c : Char) (rest : List Char) : Marked :=
  let n := runLength c rest + 1
  let before := src.before? position
  let after := (rest.drop (n - 1)).head?
  let canOpen := opens c before after
  let canClose := closes c before after
  if (canOpen || canClose) && (c ≠ '~' || n ≤ 2) then
    ⟨[.leaf position (position + n) (.mark (.run c n canOpen canClose))], n, false⟩
  else ⟨[], n, true⟩

/-- The node of one mark. -/
def oneMark (position taken : Nat) (m : Mark) : Marked :=
  ⟨[.leaf position (position + taken) (.mark m)], taken, false⟩

/-- What the backslash before `rest` stands for: it is removed before punctuation. -/
def escaped? (position : Nat) (rest : List Char) : Option (Marked × Nat) :=
  match rest with
  | [] => none
  | d :: more =>
    if !Text.isAsciiPunctuation d then none
    else if d = '\x60' then
      let n := runLength d more + 1
      let node := Node.leaf (position + 1) (position + 1 + n) (.mark (.accents n true))
      some (⟨[node], n + 1, false⟩, position + 1 + n)
    else some (⟨[], 2, false⟩, position + 1)

/-- What the character `c` before `rest` stands for, unless it is text, and where text goes on. -/
def mark? (src : Source) (position : Nat) (c : Char) (rest : List Char) :
    Option (Marked × Nat) :=
  let passed (m : Marked) : Marked × Nat := (m, position + m.taken)
  if c = '\\' then escaped? position rest
  else if c = '*' || c = '_' || c = '~' then some (passed (runMark src position c rest))
  else if c = '\x60' then
    let n := runLength c rest + 1
    some (passed (oneMark position n (.accents n false)))
  else if c = '<' then
    if rest.head? = some '\\' then none else some (passed (oneMark position 1 .angle))
  else if c = '!' then
    if rest.head? = some '[' then some (passed (oneMark position 2 (.opening true))) else none
  else if c = '[' then some (passed (oneMark position 1 (.opening false)))
  else if c = ']' then some (passed (oneMark position 1 (.closing true)))
  else if c = '&' then
    (reference? rest).map fun (value, n) =>
      passed ⟨[.leaf position (position + n + 1) (.value value)], n + 1, false⟩
  else none

/-! ## Lines -/

/-- What a line consists of. -/
structure LineContent where
  /-- The nodes of the line and those before it, latest first. -/
  nodes : List Node
  /-- Where the next line begins. -/
  next : Nat
  /-- The break that stands at the end if the paragraph goes on. -/
  lineBreak : Option Node

/-- The end of a line at a position.  A backslash before it or two blanks are a hard break; the
backslash is not, at the end of the document. -/
def endLine (src : Source) (textStart position length : Nat) (nodes : List Node) : LineContent :=
  let next := position + length
  let backslashes := src.countBefore (· = '\\') position
  let blanks := src.countBefore isSpaceOrTab position
  let hard (i : Nat) : LineContent :=
    ⟨Node.addText textStart i nodes, next, some (.leaf i next .hardBreak)⟩
  if backslashes % 2 = 1 && next < src.size then hard (position - 1)
  else if 2 ≤ blanks then hard (position - blanks)
  else ⟨Node.addText textStart position nodes, next, some (.leaf position next .softBreak)⟩

/-- Reads a line from a position on; the text from `textStart` to it has not been added yet. -/
def readLineFrom (src : Source) (textStart position : Nat) (nodes : List Node) (cs : List Char) :
    LineContent :=
  match cs with
  | [] => ⟨Node.addText textStart position nodes, position, none⟩
  | c :: rest =>
    if c = '\n' || c = '\r' then
      endLine src textStart position ((lineEnd? (c :: rest)).getD 1) nodes
    else match mark? src position c rest with
      | none => readLineFrom src textStart (position + 1) nodes rest
      | some (m, next) =>
        let more := rest.drop (m.taken - 1)
        if m.isText then readLineFrom src textStart (position + m.taken) nodes more
        else
          readLineFrom src next (position + m.taken)
            (m.nodes ++ Node.addText textStart position nodes) more
termination_by cs.length
decreasing_by all_goals (simp only [List.length_cons, List.length_drop]; omega)

/-- Reads a line from a position on, behind the nodes before it, latest first. -/
def readLine (src : Source) (position : Nat) (nodes : List Node) : LineContent :=
  readLineFrom src position position nodes (src.behind position)

end PaneEngine.Markup
