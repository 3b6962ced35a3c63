import PaneEngine.Yaml.Token

/-!
# Nodes of YAML documents

A text holds documents, each with one node: a scalar, a sequence, a mapping, or
an alias for a node that carries an anchor.  Where a node is missing an empty
scalar stands.

## Main definitions

* `Yaml.Node` — nodes;
* `Yaml.documents?` — the nodes of the documents of a text.
-/

namespace PaneEngine.Yaml

/-- What is said about a node in front of it. -/
structure Properties where
  anchor : Option String
  /-- The whole tag. -/
  tag : Option String
deriving DecidableEq

/-- A node. -/
inductive Node where
  | alias (name : String)
  | scalar (properties : Properties) (isPlain : Bool) (text : String)
  | sequence (properties : Properties) (items : List Node)
  | mapping (properties : Properties) (entries : List (Node × Node))

namespace Node

/-- Nothing is said about a node. -/
def bare : Properties := ⟨none, none⟩

/-- The node that stands where one is missing. -/
def missing : Node := .scalar bare true ""

instance : Inhabited Node := ⟨missing⟩

/-! ## Properties -/

/-- The tag in front of a node; none if its handle is unknown. -/
def tag? (handles : TagHandles) : List Token → Option (Option String × List Token)
  | .tag name :: rest => (name.resolve? handles).map fun t => (some t, rest)
  | ts => some (none, ts)

/-- The anchor in front of a node. -/
def anchor : List Token → Option String × List Token
  | .anchor name :: rest => (some name, rest)
  | ts => (none, ts)

/-- The properties of a node, in either order. -/
def properties? (handles : TagHandles) (ts : List Token) : Option (Properties × List Token) := do
  match anchor ts with
  | (some a, ts) =>
    let (t, ts) ← tag? handles ts
    return (⟨some a, t⟩, ts)
  | (none, ts) =>
    let (t, ts) ← tag? handles ts
    if t.isSome then
      let (a, ts) := anchor ts
      return (⟨a, t⟩, ts)
    else return (bare, ts)

/-- The scalar with properties; a tag that only says that it is one does not count, unless
the scalar is missing. -/
def ofScalar (p : Properties) (isPlain : Bool) (text : String) : Node :=
  .scalar { p with tag := p.tag.filter fun t => t ≠ "!" } isPlain text

/-! ## Nodes -/

/-- Whether a node is missing in a block before a token. -/
def endsInBlock : List Token → Bool
  | .key :: _ | .value :: _ | .blockEnd :: _ => true
  | _ => false

/-- Whether an item is missing in a block before a token. -/
def endsItem : List Token → Bool
  | .entry :: _ | .blockEnd :: _ => true
  | _ => false

/-- Whether a value is missing in brackets of a kind before a token. -/
def endsInFlow (close : Token) : List Token → Bool
  | .comma :: _ => true
  | t :: _ => t = close
  | [] => false

/-- Whether a key is missing in brackets of a kind before a token. -/
def endsFlowKey (close : Token) (ts : List Token) : Bool :=
  ts.head? = some .value || endsInFlow close ts

mutual

/-- A node.  Blocks and items without a block of their own are allowed only in some places. -/
def read? (handles : TagHandles) : Nat → Bool → Bool → List Token → Option (Node × List Token)
  | 0, _, _, _ => none
  | fuel + 1, inBlock, bareItems, ts =>
    match ts with
    | .alias name :: rest => some (.alias name, rest)
    | ts => do
      let (p, ts) ← properties? handles ts
      match ts with
      | .scalar isPlain text :: rest => return (ofScalar p isPlain text, rest)
      | .sequenceOpen :: rest =>
        let (items, rest) ← flowItems? handles fuel true rest
        return (.sequence p items, rest)
      | .mappingOpen :: rest =>
        let (entries, rest) ← flowEntries? handles fuel true rest
        return (.mapping p entries, rest)
      | .entry :: _ =>
        if bareItems then
          let (items, rest) ← looseItems? handles fuel ts
          return (.sequence p items, rest)
        else if p = bare then none
        else return (.scalar p true "", ts)
      | .sequenceBlock :: rest =>
        if inBlock then
          let (items, rest) ← blockItems? handles fuel rest
          return (.sequence p items, rest)
        else if p = bare then none
        else return (.scalar p true "", ts)
      | .mappingBlock :: rest =>
        if inBlock then
          let (entries, rest) ← blockEntries? handles fuel rest
          return (.mapping p entries, rest)
        else if p = bare then none
        else return (.scalar p true "", ts)
      | ts => if p = bare then none else return (.scalar p true "", ts)

/-- The items of a block of its own. -/
def blockItems? (handles : TagHandles) : Nat → List Token → Option (List Node × List Token)
  | 0, _ => none
  | fuel + 1, ts =>
    match ts with
    | .blockEnd :: rest => some ([], rest)
    | .entry :: rest => do
      let (item, rest) ←
        if endsItem rest then some (missing, rest) else read? handles fuel true false rest
      let (items, rest) ← blockItems? handles fuel rest
      return (item :: items, rest)
    | _ => none

/-- The items that stand in line with the key before them. -/
def looseItems? (handles : TagHandles) : Nat → List Token → Option (List Node × List Token)
  | 0, _ => none
  | fuel + 1, ts =>
    match ts with
    | .entry :: rest => do
      let (item, rest) ←
        if endsItem rest || endsInBlock rest then some (missing, rest)
        else read? handles fuel true false rest
      let (items, rest) ← looseItems? handles fuel rest
      return (item :: items, rest)
    | ts => some ([], ts)

/-- The entries of a block. -/
def blockEntries? (handles : TagHandles) :
    Nat → List Token → Option (List (Node × Node) × List Token)
  | 0, _ => none
  | fuel + 1, ts =>
    match ts with
    | .blockEnd :: rest => some ([], rest)
    | .key :: rest => do
      let (key, rest) ←
        if endsInBlock rest then some (missing, rest) else read? handles fuel true true rest
      let (value, rest) ← match rest with
        | .value :: rest =>
          if endsInBlock rest then some (missing, rest) else read? handles fuel true true rest
        | rest => some (missing, rest)
      let (entries, rest) ← blockEntries? handles fuel rest
      return ((key, value) :: entries, rest)
    | _ => none

/-- The value behind a key in brackets of a kind, missing unless a colon is there. -/
def flowValue? (handles : TagHandles) (close : Token) :
    Nat → List Token → Option (Node × List Token)
  | 0, _ => none
  | fuel + 1, ts =>
    match ts with
    | .value :: rest =>
      if endsInFlow close rest then some (missing, rest)
      else read? handles fuel false false rest
    | ts => some (missing, ts)

/-- The items in brackets.  An item with a key is a mapping with one entry. -/
def flowItems? (handles : TagHandles) : Nat → Bool → List Token → Option (List Node × List Token)
  | 0, _, _ => none
  | fuel + 1, isFirst, ts =>
    match ts, isFirst with
    | .sequenceClose :: rest, _ => some ([], rest)
    | .comma :: rest, false => flowItem? handles fuel rest
    | _, false => none
    | ts, true => flowItem? handles fuel ts

/-- The items in brackets behind a comma or the bracket.  Where a marked key is missing, the token
that stands in its place is passed over with it. -/
def flowItem? (handles : TagHandles) : Nat → List Token → Option (List Node × List Token)
  | 0, _ => none
  | fuel + 1, ts =>
    match ts with
    | .sequenceClose :: rest => some ([], rest)
    | .key :: rest => do
      let (key, rest) ←
        if endsFlowKey .sequenceClose rest then some (missing, rest.drop 1)
        else read? handles fuel false false rest
      let (value, rest) ← flowValue? handles .sequenceClose fuel rest
      let (items, rest) ← flowItems? handles fuel false rest
      return (.mapping bare [(key, value)] :: items, rest)
    | ts => do
      let (item, rest) ← read? handles fuel false false ts
      let (items, rest) ← flowItems? handles fuel false rest
      return (item :: items, rest)

/-- The entries in braces. -/
def flowEntries? (handles : TagHandles) :
    Nat → Bool → List Token → Option (List (Node × Node) × List Token)
  | 0, _, _ => none
  | fuel + 1, isFirst, ts =>
    match ts, isFirst with
    | .mappingClose :: rest, _ => some ([], rest)
    | .comma :: rest, false => flowEntry? handles fuel rest
    | _, false => none
    | ts, true => flowEntry? handles fuel ts

/-- The entries in braces behind a comma or the brace. -/
def flowEntry? (handles : TagHandles) : Nat → List Token → Option (List (Node × Node) × List Token)
  | 0, _ => none
  | fuel + 1, ts =>
    match ts with
    | .mappingClose :: rest => some ([], rest)
    | .key :: rest => do
      let (key, rest) ←
        if endsFlowKey .mappingClose rest then some (missing, rest)
        else read? handles fuel false false rest
      let (value, rest) ← flowValue? handles .mappingClose fuel rest
      let (entries, rest) ← flowEntries? handles fuel false rest
      return ((key, value) :: entries, rest)
    | ts => do
      let (key, rest) ← read? handles fuel false false ts
      let (entries, rest) ← flowEntries? handles fuel false rest
      return ((key, missing) :: entries, rest)

end

end Node

/-! ## Documents -/

/-- Whether a version can be read. -/
def isKnownVersion (major minor : Nat) : Bool := major = 1 && (minor = 1 || minor = 2)

/-- The directives of a document: whether there was a version, and the handles of tags. -/
def directives? (versioned : Bool) (handles : TagHandles) :
    List Token → Option (TagHandles × List Token)
  | .version major minor :: rest =>
    if versioned || !isKnownVersion major minor then none else directives? true handles rest
  | .handle handle beginning :: rest =>
    if (handles.lookup handle).isSome then none
    else directives? versioned (handles ++ [(handle, beginning)]) rest
  | ts => some (handles ++ standardHandles, ts)

/-- Whether a document has no content before a token. -/
def isEmptyDocument : List Token → Bool
  | [] => true
  | .version _ _ :: _ | .handle _ _ :: _ | .documentStart :: _ | .documentEnd :: _ => true
  | _ => false

/-- The content of a document. -/
def content? (handles : TagHandles) (ts : List Token) : Option (Node × List Token) :=
  if isEmptyDocument ts then some (Node.missing, ts)
  else Node.read? handles (4 * ts.length + 4) true false ts

/-- The documents of tokens.  Only the first may do without its mark. -/
def documentsFrom? : Nat → Bool → List Token → Option (List Node)
  | 0, _, _ => none
  | fuel + 1, isFirst, ts => do
    let ts := if isFirst then ts else ts.dropWhile (· = .documentEnd)
    match ts with
    | [] => return []
    | t :: _ =>
      let bare := isFirst && !(isEmptyDocument ts && t ≠ .documentEnd)
      let (handles, ts) ←
        if bare then some (standardHandles, ts)
        else match ← directives? false [] ts with
          | (handles, .documentStart :: rest) => some (handles, rest)
          | _ => none
      let (node, ts) ← if bare then Node.read? handles (4 * ts.length + 4) true false ts
        else content? handles ts
      let ts := match ts with
        | .documentEnd :: rest => rest
        | ts => ts
      return node :: (← documentsFrom? fuel false ts)

/-- The nodes of the documents of a text. -/
def documents? (s : String) : Option (List Node) := do
  let ts ← tokens? s
  documentsFrom? (ts.length + 1) true ts

end PaneEngine.Yaml
