import PaneEngine.Json.Basic

/-!
# Writing JSON text

Documents are written without blanks.  In a string only the quotation mark, the
backslash and the control characters below U+0020 are escaped, five of those by
a letter and the others by four hexadecimal digits.

## Main definitions

* `Json.quoted` — a string as written;
* `Json.text` — the text of a document.
-/

namespace PaneEngine.Json

/-- A hexadecimal digit in lower case. -/
def hexChar (n : Nat) : Char :=
  if n < 10 then Char.ofNat ('0'.toNat + n) else Char.ofNat ('a'.toNat + (n - 10))

/-- A character of a string as written. -/
def escaped (c : Char) : List Char :=
  if c = '"' then ['\\', '"']
  else if c = '\\' then ['\\', '\\']
  else if c = '\n' then ['\\', 'n']
  else if c = '\r' then ['\\', 'r']
  else if c = '\t' then ['\\', 't']
  else if c = '\x08' then ['\\', 'b']
  else if c = '\x0c' then ['\\', 'f']
  else if c.toNat < 0x20 then
    ['\\', 'u', '0', '0', hexChar (c.toNat / 16), hexChar (c.toNat % 16)]
  else [c]

/-- A string as written. -/
def quoted (s : String) : List Char :=
  '"' :: s.toList.flatMap escaped ++ ['"']

mutual

/-- The characters of a document. -/
def chars : Json → List Char
  | null => ['n', 'u', 'l', 'l']
  | bool true => ['t', 'r', 'u', 'e']
  | bool false => ['f', 'a', 'l', 's', 'e']
  | number n => n.text.toList
  | string s => quoted s
  | array [] => ['[', ']']
  | array (j :: rest) => '[' :: chars j ++ itemChars rest
  | object [] => ['\x7b', '\x7d']
  | object ((k, j) :: rest) => '\x7b' :: quoted k ++ ':' :: chars j ++ memberChars rest
  | unreadable => ['n', 'u', 'l', 'l']

/-- The items after the first and the closing bracket. -/
def itemChars : List Json → List Char
  | [] => [']']
  | j :: rest => ',' :: chars j ++ itemChars rest

/-- The members after the first and the closing brace. -/
def memberChars : List (String × Json) → List Char
  | [] => ['\x7d']
  | (k, j) :: rest => ',' :: quoted k ++ ':' :: chars j ++ memberChars rest

end

/-- The text of a document. -/
def text (j : Json) : String := String.ofList (chars j)

end PaneEngine.Json
