import PaneEngine.Yaml.Value

/-!
# Printing YAML

A printed document consists of sections, each with settings one to a line.  A
text is printed as it stands where that reads back as the same text, else in
single quotes, and where those cannot hold it in double quotes; a text with
several lines is printed as a block.

## Main definitions

* `Yaml.Setting` — a value that is printed;
* `Yaml.Shape`, `Yaml.shape` — what decides how a text is printed;
* `Yaml.print` — the text of a document.
-/

namespace PaneEngine.Yaml

/-- A value that is printed. -/
inductive Setting where
  | text (s : String)
  | number (n : Nat)
  | truth (b : Bool)
deriving DecidableEq

/-- The settings of a section by key. -/
abbrev Section := List (String × Setting)

/-! ## Shapes of texts -/

/-- A character that can be printed as it stands. -/
def printsAsIs (c : Char) : Bool :=
  let n := c.toNat
  n = 0x0A || (0x20 ≤ n && n ≤ 0x7E) || (0xA0 ≤ n && n ≤ 0xFFFD && n ≠ 0xFEFF) || 0x10000 ≤ n

/-- What decides how a text is printed. -/
structure Shape where
  /-- A mark could be read into it. -/
  hasMark : Bool
  hasBreak : Bool
  /-- A character cannot be printed as it stands. -/
  hasSpecial : Bool
  /-- It starts or ends with a space or a line break. -/
  hasLooseEnd : Bool
  endsInSpace : Bool
  /-- A space follows a line break. -/
  hasBreakSpace : Bool
  /-- A line break follows a space. -/
  hasSpaceBreak : Bool

/-- Whether a character in front of a text could be read as a mark. -/
def isLeadingMark (c : Char) (rest : List Char) : Bool :=
  "#,[]\x7b\x7d&*!|>'\"%@\x60".toList.contains c ||
    ("?:-".toList.contains c && endsWord rest)

/-- Whether a mark could be read into a text behind a character. -/
def hasInnerMark (before : Char) : List Char → Bool
  | [] => false
  | c :: rest =>
    (c = ':' && endsWord rest) || (c = '#' && endsWord [before]) || hasInnerMark c rest

/-- Whether a mark could be read into a text. -/
def hasMark (cs : List Char) : Bool :=
  match cs with
  | [] => false
  | c :: rest =>
    cs.take 3 = ['-', '-', '-'] || cs.take 3 = ['.', '.', '.'] || isLeadingMark c rest ||
      hasInnerMark c rest

/-- Whether a character of one class is followed by one of another. -/
def hasPair (first second : Char → Bool) (cs : List Char) : Bool :=
  (cs.zip (cs.drop 1)).any fun (a, b) => first a && second b

/-- The shape of a text. -/
def shape (cs : List Char) : Shape :=
  let space (c : Char) : Bool := c = ' '
  let loose (c : Option Char) : Bool := c.any fun c => space c || isBreak c
  { hasMark := hasMark cs
    hasBreak := cs.any isBreak
    hasSpecial := cs.any fun c => !printsAsIs c
    hasLooseEnd := loose cs.head? || loose cs.getLast?
    endsInSpace := cs.getLast?.any space
    hasBreakSpace := hasPair isBreak space cs
    hasSpaceBreak := hasPair space isBreak cs }

/-- Whether a text can be printed as it stands. -/
def Shape.allowsPlain (s : Shape) : Bool :=
  !(s.hasMark || s.hasBreak || s.hasSpecial || s.hasLooseEnd)

/-- Whether a text can be printed in single quotes. -/
def Shape.allowsSingle (s : Shape) : Bool := !(s.hasBreakSpace || s.hasSpaceBreak || s.hasSpecial)

/-- Whether a text can be printed as a block. -/
def Shape.allowsBlock (s : Shape) : Bool := !(s.endsInSpace || s.hasSpaceBreak || s.hasSpecial)

/-- Whether a text would be read back as another kind of value, or looks like a number. -/
def readsOtherwise (s : String) : Bool :=
  hasLeadingZero s.toList || match plainValue? s with
    | some (.string _) => false
    | _ => true

/-! ## Printing texts -/

/-- The spaces in front of a line inside a value. -/
def margin : List Char := "    ".toList

/-- A text with the margin in front of every line that is not empty; `fresh` says that a line
starts here. -/
def withMargin (fresh : Bool) : List Char → List Char
  | [] => []
  | c :: rest =>
    if isBreak c then c :: withMargin true rest
    else (if fresh then margin else []) ++ c :: withMargin false rest

/-- A hexadecimal digit. -/
def hexDigit (n : Nat) : Char := "0123456789ABCDEF".toList[n]?.getD '0'

/-- A number in that many hexadecimal digits. -/
def hexDigits : Nat → Nat → List Char
  | 0, _ => []
  | digits + 1, n => hexDigits digits (n / 16) ++ [hexDigit (n % 16)]

/-- The letter that stands for a character behind a backslash. -/
def escapeLetter? (c : Char) : Option Char :=
  ['0', 'a', 'b', 't', 'n', 'v', 'f', 'r', 'e', '"', '\\', 'N', 'L', 'P'].find? fun letter =>
    simpleEscape? letter = some c

/-- A character between double quotes. -/
def doubleQuotedChar (c : Char) : List Char :=
  if printsAsIs c && !isBreak c && c ≠ '"' && c ≠ '\\' then [c]
  else match escapeLetter? c with
    | some letter => ['\\', letter]
    | none =>
      let n := c.toNat
      if n ≤ 0xFF then '\\' :: 'x' :: hexDigits 2 n
      else if n ≤ 0xFFFF then '\\' :: 'u' :: hexDigits 4 n
      else '\\' :: 'U' :: hexDigits 8 n

/-- A text in double quotes. -/
def doubleQuoted (cs : List Char) : List Char := '"' :: cs.flatMap doubleQuotedChar ++ ['"']

/-- A text between single quotes: quotes are doubled, and a line starts behind the margin. -/
def singleQuotedChars (fresh : Bool) : List Char → List Char
  | [] => if fresh then margin else []
  | c :: rest =>
    if isBreak c then c :: singleQuotedChars true rest
    else
      (if fresh then margin else []) ++ (if c = '\'' then [c, c] else [c]) ++
        singleQuotedChars false rest

/-- A text in single quotes. -/
def singleQuoted (cs : List Char) : List Char := '\'' :: singleQuotedChars false cs ++ ['\'']

/-- The header of a block: the indentation where the text does not show it, and how it ends. -/
def blockHeader (cs : List Char) : List Char :=
  let indentation := if cs.head?.any fun c => c = ' ' || isBreak c then ['2'] else []
  let ending := match cs.reverse with
    | [] => ['-']
    | [c] => if isBreak c then ['+'] else ['-']
    | c :: d :: _ => if !isBreak c then ['-'] else if isBreak d then ['+'] else []
  '|' :: indentation ++ ending

/-- A text as a block. -/
def block (cs : List Char) : List Char :=
  blockHeader cs ++ '\n' :: withMargin true cs ++
    (if cs.getLast?.any isBreak then [] else ['\n'])

/-- A text behind its key, with the end of its line. -/
def printText (s : String) : List Char :=
  let cs := s.toList
  let sh := shape cs
  if cs.contains '\n' then
    if sh.allowsBlock then block cs else doubleQuoted cs ++ ['\n']
  else if !readsOtherwise s && sh.allowsPlain then cs ++ ['\n']
  else if sh.allowsSingle then singleQuoted cs ++ ['\n']
  else doubleQuoted cs ++ ['\n']

/-! ## Printing documents -/

/-- A value behind its key, with the end of its line. -/
def Setting.print : Setting → List Char
  | text s => printText s
  | number n => (toString n).toList ++ ['\n']
  | truth b => (if b then "true" else "false").toList ++ ['\n']

/-- A section with its key. -/
def printSection (key : String) (settings : Section) : List Char :=
  if settings.isEmpty then key.toList ++ ": \x7b\x7d\n".toList
  else
    key.toList ++ ":\n".toList ++
      settings.flatMap fun (k, v) => "  ".toList ++ k.toList ++ ": ".toList ++ v.print

/-- The text of a document. -/
def print (sections : List (String × Section)) : String :=
  if sections.isEmpty then "\x7b\x7d\n"
  else String.ofList (sections.flatMap fun (key, settings) => printSection key settings)

end PaneEngine.Yaml
