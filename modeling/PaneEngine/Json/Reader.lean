import PaneEngine.Json.Token

/-!
# Reading JSON text

A document is assembled from its tokens on a stack of open brackets, so reading
is a fold over the tokens.  Brackets may nest `depthLimit` deep; a deeper array
or object is kept as `unreadable`.

## Main definitions

* `Json.Open`, `Json.Next` — an open bracket, and what may come next;
* `Json.Progress.step` — the effect of one token;
* `Json.read?` — the document of a text.
-/

namespace PaneEngine.Json

/-- How deep arrays and objects may nest. -/
def depthLimit : Nat := 127

/-- A bracket that is still open, with what it holds so far, latest first. -/
inductive Open where
  | items (done : List Json)
  /-- `done` is none once a key had no value; `key` waits for its value. -/
  | members (done : Option (List (String × Json))) (key : Option String)

/-- What may come next. -/
inductive Next where
  | value
  | valueOrClose
  | key
  | keyOrClose
  | colon
  | commaOrClose
deriving DecidableEq

/-- How far a document has come. -/
inductive Progress where
  | inside (next : Next) (stack : List Open)
  | complete (j : Json)

/-- The document of an array or object that had `above` brackets around it. -/
def limited (above : Nat) (j : Json) : Json :=
  if above < depthLimit then j else unreadable

/-- Puts a finished value into an open bracket. -/
def Open.push (j : Json) : Open → Open
  | .items done => .items (j :: done)
  | .members done key =>
    .members (done.bind fun ms => key.map fun k => (k, j) :: ms) none

/-- The document of a bracket that closes with `above` others around it. -/
def Open.close (above : Nat) : Open → Json
  | .items done => limited above (array done.reverse)
  | .members done _ => limited above (done.elim unreadable fun ms => object ms.reverse)

/-- Whether the bracket is that of an array. -/
def Open.isArray : Open → Bool
  | .items _ => true
  | .members _ _ => false

namespace Progress

/-- Hands a finished value to the bracket around it. -/
def finish (j : Json) : List Open → Progress
  | [] => complete j
  | o :: stack => inside .commaOrClose (o.push j :: stack)

/-- Closes the innermost bracket if it is of that kind. -/
def close (isArray : Bool) : List Open → Option Progress
  | [] => none
  | o :: stack =>
    if o.isArray = isArray then some (finish (o.close stack.length) stack) else none

/-- The effect of a token where a value may stand. -/
def takeValue (stack : List Open) : Token → Option Progress
  | .openBracket => some (inside .valueOrClose (.items [] :: stack))
  | .openBrace => some (inside .keyOrClose (.members (some []) none :: stack))
  | .word j => some (finish j stack)
  | .number n => some (finish (n.elim unreadable .number) stack)
  | .string s => some (finish (s.elim unreadable .string) stack)
  | _ => none

/-- The effect of a key. -/
def takeKey : List Open → Token → Option Progress
  | .members done _ :: stack, .string key =>
    some (inside .colon (.members (if key.isSome then done else none) key :: stack))
  | _, _ => none

/-- The effect of a comma. -/
def takeComma : List Open → Option Progress
  | [] => none
  | o :: stack => some (inside (if o.isArray then .value else .key) (o :: stack))

/-- The effect of one token. -/
def step : Progress → Token → Option Progress
  | complete _, _ => none
  | inside .value stack, t => takeValue stack t
  | inside .valueOrClose stack, .closeBracket => close true stack
  | inside .valueOrClose stack, t => takeValue stack t
  | inside .key stack, t => takeKey stack t
  | inside .keyOrClose stack, .closeBrace => close false stack
  | inside .keyOrClose stack, t => takeKey stack t
  | inside .colon stack, .colon => some (inside .value stack)
  | inside .colon _, _ => none
  | inside .commaOrClose stack, .comma => takeComma stack
  | inside .commaOrClose stack, .closeBracket => close true stack
  | inside .commaOrClose stack, .closeBrace => close false stack
  | inside .commaOrClose _, _ => none

/-- The finished document. -/
def result? : Progress → Option Json
  | complete j => some j
  | inside _ _ => none

end Progress

/-- The document of a token list. -/
def ofTokens? (ts : List Token) : Option Json :=
  (ts.foldlM Progress.step (.inside .value [])).bind Progress.result?

/-- The document of a text; none if the text is not well formed. -/
def read? (s : String) : Option Json :=
  (tokens? s.toList).bind ofTokens?

end PaneEngine.Json
