import PaneEngine.Action.Term
import PaneEngine.Json.Basic

/-!
# Actions

An action is a single term: a bare link, or a command with words and tuples of
words as parameters.

## Main definitions

* `Action`, `Action.Param` — actions and their parameters;
* `Action.ofTerms`, `Action.parse` — the action of terms and of a text;
* `Action.term` — the term that an action is written as;
* `Action.toJson` — actions as JSON.
-/

namespace PaneEngine

/-- A parameter of a command. -/
inductive Action.Param where
  | word (text : String)
  | tuple (words : List String)
deriving DecidableEq

/-- What a link or button asks for. -/
inductive Action where
  | link (url : String)
  | call (command : String) (params : List Action.Param)
deriving DecidableEq

namespace Action

/-- The words of a parameter; a single word is a tuple of one. -/
def Param.words : Param → List String
  | .word w => [w]
  | .tuple ws => ws

/-! ## Parsing -/

/-- The word of a term inside a tuple. -/
def tupleWord : Term → Except ParseError String
  | .word w => .ok w
  | .list _ => .error .tooDeep

/-- The parameter of a term. -/
def Param.ofTerm : Term → Except ParseError Param
  | .word w => .ok (.word w)
  | .list items => (items.mapM tupleWord).map .tuple

/-- The action of a sequence of terms, which has to be a single one. -/
def ofTerms : List Term → Except ParseError Action
  | [] => .error .empty
  | [.word url] => .ok (.link url)
  | [.list (.word command :: params)] => (params.mapM Param.ofTerm).map (.call command)
  | [.list _] => .error .missingCommand
  | _ :: _ :: _ => .error .trailingInput

/-- The action of a text. -/
def parse (s : String) : Except ParseError Action := readTerms s >>= ofTerms

/-! ## Writing -/

/-- The term that a parameter is written as. -/
def Param.term : Param → Term
  | .word w => .word w
  | .tuple ws => .list (ws.map .word)

/-- The term that an action is written as. -/
def term : Action → Term
  | .link url => .word url
  | .call command params => .list (.word command :: params.map Param.term)

/-! ## JSON -/

/-- The document of a parameter. -/
def Param.toJson : Param → Json
  | .word w => .string w
  | .tuple ws => .strings ws

/-- The document of an action. -/
def toJson : Action → Json
  | .link url => .object [("kind", .string "link"), ("url", .string url)]
  | .call command params =>
    .object [("kind", .string "call"), ("command", .string command),
      ("params", .array (params.map Param.toJson))]

mutual

/-- The document of a term: a word is a string, a list an array. -/
def Term.toJson : Term → Json
  | .word w => .string w
  | .list items => .array (Term.toJsons items)

/-- The documents of terms. -/
def Term.toJsons : List Term → List Json
  | [] => []
  | t :: rest => t.toJson :: Term.toJsons rest

end

end Action

end PaneEngine
