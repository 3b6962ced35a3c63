import PaneEngine.Text.Blank
import PaneEngine.Text.Control

/-!
# Tokens of action expressions

An action expression consists of parentheses and words.  Blanks separate words
and mean nothing else; a word is as long as it can be.  A character that can
stand nowhere ends the sequence as a token of its own.

## Main definitions

* `Action.isWordChar` — the characters of words;
* `Action.Token`, `Action.tokens` — the tokens of a text.
-/

namespace PaneEngine.Action

/-- A character of a word: no blank, no control character, no parenthesis and no quotation mark. -/
def isWordChar (c : Char) : Bool :=
  !(Text.isBlank c || Text.isControl c || c = '(' || c = ')' || c = '"' || c = '\'' || c = '\x60')

/-- A token of an action expression. -/
inductive Token where
  | opening
  | closing
  | word (chars : List Char)
  /-- A character that is neither blank nor part of a token. -/
  | stray (c : Char)
deriving DecidableEq

/-- The tokens of a text, up to the first stray character. -/
def tokens (cs : List Char) : List Token :=
  match cs with
  | [] => []
  | c :: rest =>
    if Text.isBlank c then tokens rest
    else if c = '(' then .opening :: tokens rest
    else if c = ')' then .closing :: tokens rest
    else if isWordChar c then
      .word (c :: rest.takeWhile isWordChar) :: tokens (rest.dropWhile isWordChar)
    else [.stray c]
termination_by cs.length
decreasing_by
  all_goals simp only [List.length_cons]
  all_goals first
    | omega
    | exact Nat.lt_succ_of_le (List.dropWhile_sublist isWordChar).length_le

end PaneEngine.Action
