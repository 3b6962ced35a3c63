import PaneEngine.Action.Token

/-!
# Terms of action expressions

Parentheses group words into terms, at most two levels deep: a command and its
tuples.  Closing parentheses that are left over behind the last complete term
are ignored; any other imbalance is an error.

## Main definitions

* `Action.Term`, `Action.Term.tokens` — terms and how they are written;
* `Action.ParseError` — why a text is no action;
* `Action.Reading.step` — the effect of one token;
* `Action.readTerms` — the terms of a text.
-/

namespace PaneEngine

/-- Why a text is no action. -/
inductive Action.ParseError where
  | empty
  | unbalanced
  | unexpected (c : Char)
  | tooDeep
  | missingCommand
  | trailingInput
deriving DecidableEq

namespace Action

/-- The wording of an error. -/
def ParseError.message : ParseError → String
  | .empty => "empty action expression"
  | .unbalanced => "unbalanced parenthesis"
  | .unexpected c => "unexpected character '" ++ String.singleton c ++ "'"
  | .tooDeep => "expression nested deeper than two levels"
  | .missingCommand => "expected a command word at the head of the expression"
  | .trailingInput => "trailing input after the action expression"

/-- A word or a list in parentheses. -/
inductive Term where
  | word (text : String)
  | list (items : List Term)

mutual

/-- The tokens that a term is written with. -/
def Term.tokens : Term → List Token
  | .word text => [.word text.toList]
  | .list items => .opening :: Term.tokensOf items ++ [.closing]

/-- The tokens that a sequence of terms is written with. -/
def Term.tokensOf : List Term → List Token
  | [] => []
  | t :: rest => t.tokens ++ Term.tokensOf rest

end

/-! ## Reading -/

/-- How deep lists may nest. -/
def maxDepth : Nat := 2

/-- The terms read so far. -/
structure Reading where
  /-- The lists that are still open, innermost first, their items latest first. -/
  stack : List (List Term)
  /-- The complete terms, latest first. -/
  complete : List Term
  /-- Whether a closing parenthesis was left over. -/
  surplus : Bool

namespace Reading

/-- Nothing has been read. -/
def start : Reading := ⟨[], [], false⟩

/-- Adds a complete term. -/
def add (t : Term) (r : Reading) : Reading :=
  match r.stack with
  | [] => { r with complete := t :: r.complete }
  | items :: rest => { r with stack := (t :: items) :: rest }

/-- The effect of a closing parenthesis. -/
def close (r : Reading) : Except ParseError Reading :=
  match r.stack with
  | items :: rest => .ok ({ r with stack := rest }.add (.list items.reverse))
  | [] => if r.complete.isEmpty then .error .unbalanced else .ok { r with surplus := true }

/-- The effect of one token. -/
def step (r : Reading) : Token → Except ParseError Reading
  | .stray c => .error (.unexpected c)
  | .closing => r.close
  | .opening =>
    if r.surplus then .error .trailingInput
    else if r.stack.length = maxDepth then .error .tooDeep
    else .ok { r with stack := [] :: r.stack }
  | .word text =>
    if r.surplus then .error .trailingInput else .ok (r.add (.word (String.ofList text)))

/-- The terms, if at least one is there and none is open. -/
def finish (r : Reading) : Except ParseError (List Term) :=
  if !r.stack.isEmpty then .error .unbalanced
  else if r.complete.isEmpty then .error .empty
  else .ok r.complete.reverse

end Reading

/-- The terms of a token sequence. -/
def termsOf (ts : List Token) : Except ParseError (List Term) :=
  ts.foldlM Reading.step .start >>= Reading.finish

/-- The terms of a text. -/
def readTerms (s : String) : Except ParseError (List Term) :=
  termsOf (tokens s.toList)

end Action

end PaneEngine
