import PaneEngine.Json.Writer

/-!
# Laying out JSON text

A document is laid out for reading: every item and every member stands on a
line of its own, indented by two blanks for each array or object that it is in.
Empty arrays and objects stay on one line.

## Main definitions

* `Json.layout` — the text of a document, laid out.
-/

namespace PaneEngine.Json

/-- The start of a line inside a number of arrays and objects. -/
def lineStart (depth : Nat) : List Char := '\n' :: List.replicate (2 * depth) ' '

mutual

/-- The characters of a document inside a number of arrays and objects. -/
def layoutChars (depth : Nat) : Json → List Char
  | array (j :: rest) =>
    '[' :: lineStart (depth + 1) ++ layoutChars (depth + 1) j ++ layoutItems depth rest
  | object ((k, j) :: rest) =>
    '\x7b' :: lineStart (depth + 1) ++ quoted k ++ [':', ' '] ++ layoutChars (depth + 1) j ++
      layoutMembers depth rest
  | j => chars j

/-- The items after the first and the closing bracket. -/
def layoutItems (depth : Nat) : List Json → List Char
  | [] => lineStart depth ++ [']']
  | j :: rest =>
    ',' :: lineStart (depth + 1) ++ layoutChars (depth + 1) j ++ layoutItems depth rest

/-- The members after the first and the closing brace. -/
def layoutMembers (depth : Nat) : List (String × Json) → List Char
  | [] => lineStart depth ++ ['\x7d']
  | (k, j) :: rest =>
    ',' :: lineStart (depth + 1) ++ quoted k ++ [':', ' '] ++ layoutChars (depth + 1) j ++
      layoutMembers depth rest

end

/-- The text of a document, laid out. -/
def layout (j : Json) : String := String.ofList (layoutChars 0 j)

end PaneEngine.Json
