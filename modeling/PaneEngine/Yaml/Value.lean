import PaneEngine.Yaml.Node
import PaneEngine.Yaml.Numeral

/-!
# Values of YAML documents

A document is read as JSON.  Plain scalars are null, truth values or numbers if
they look like one, all others are texts; the tags of the standard kinds
decide otherwise, and any tag of its own kind is an error.  Keys have to be
scalars and stand for their text, and the last entry of a key wins.

An alias stands for the value of the latest node with its anchor, which must
not enclose it.  So that a short text cannot stand for an enormous value, the
number of aliases that are followed is bounded.

## Main definitions

* `Yaml.plainValue?` — the value of a plain scalar;
* `Yaml.Resolved`, `Yaml.Node.resolve?` — the value of a node;
* `Yaml.read?` — the value of a text.
-/

namespace PaneEngine.Yaml

/-! ## Scalars -/

/-- A word for null. -/
def isNull (s : String) : Bool := ["null", "Null", "NULL", "~"].contains s

/-- The truth value that a word stands for. -/
def truth? (s : String) : Option Bool :=
  if ["true", "True", "TRUE"].contains s then some true
  else if ["false", "False", "FALSE"].contains s then some false
  else none

/-- Whether an integer fits into a word of bits, which has a sign if the integer is negative. -/
def fits (bits : Nat) : Int → Bool
  | .ofNat n => n < Nat.pow 2 bits
  | .negSucc n => n < Nat.pow 2 (bits - 1)

/-- The value of an integer; beyond 64 bits there is none. -/
def integerValue? (i : Int) : Option Json := if fits 64 i then some (.int i) else none

/-- Whether an integer is treated as one even where it has no value. -/
def isInteger (i : Int) : Bool := fits 128 i

/-- The value of a text that looks like a fraction; infinity and no number are null. -/
def fractionValue? (cs : List Char) : Option Json :=
  if isUnboundedWord cs then some .null
  else (fraction? cs).map fun x => .number (.double x)

/-- The value of a plain scalar. -/
def plainValue? (s : String) : Option Json :=
  if s.isEmpty || isNull s then some .null
  else match truth? s with
    | some b => some (.bool b)
    | none =>
      match (integer? s.toList).filter isInteger with
      | some i => integerValue? i
      | none =>
        if hasLeadingZero s.toList then some (.string s)
        else some ((fractionValue? s.toList).getD (.string s))

/-- The tag of a standard kind. -/
def standardTag (kind : String) : String := "tag:yaml.org,2002:" ++ kind

/-- The value of a scalar with a tag. -/
def taggedValue? (tag s : String) : Option Json :=
  if tag = standardTag "bool" then (truth? s).map .bool
  else if tag = standardTag "int" then
    ((integer? s.toList).filter isInteger).bind integerValue?
  else if tag = standardTag "float" then fractionValue? s.toList
  else if tag = standardTag "null" then if isNull s then some .null else none
  else some (.string s)

/-- Whether a tag is of its own kind. -/
def isOwnTag (tag : Option String) : Bool := tag.any fun t => t.toList.head? = some '!'

/-- The value of a scalar. -/
def scalarValue? (p : Properties) (isPlain : Bool) (s : String) : Option Json :=
  match p.tag with
  | some tag => if isOwnTag p.tag then none else taggedValue? tag s
  | none => if isPlain then plainValue? s else some (.string s)

/-! ## Nodes -/

/-- What a node stands for. -/
structure Resolved where
  /-- The value, if there is one. -/
  value : Option Json
  /-- The text of a scalar. -/
  text : Option String
  /-- How many aliases are followed. -/
  aliases : Nat
  /-- How deep sequences and mappings nest. -/
  depth : Nat

/-- What the nodes with anchors stand for; nothing while they are being read. -/
abbrev Anchors := Dict (Option Resolved)

/-- What a node with properties stands for, and the anchors with it among them. -/
def withAnchor (p : Properties) (r : Resolved) (anchors : Anchors) : Resolved × Anchors :=
  match p.anchor with
  | some name => (r, anchors.insert name (some r))
  | none => (r, anchors)

/-- The anchors while a node with properties is being read. -/
def openAnchor (p : Properties) (anchors : Anchors) : Anchors :=
  match p.anchor with
  | some name => anchors.insert name none
  | none => anchors

/-- What a sequence stands for. -/
def sequenceValue (p : Properties) (items : List Resolved) : Resolved :=
  { value := if isOwnTag p.tag then none else (items.mapM Resolved.value).map .array
    text := none
    aliases := (items.map Resolved.aliases).foldl Nat.add 0
    depth := (items.map Resolved.depth).foldl Nat.max 0 + 1 }

/-- What a mapping stands for. -/
def mappingValue (p : Properties) (entries : List (Resolved × Resolved)) : Resolved :=
  let members := entries.mapM fun (k, v) => do
    let key ← k.text
    let value ← v.value
    return (key, value)
  { value :=
      if isOwnTag p.tag then none else members.map fun ms => .object (Dict.ofList ms).entries
    text := none
    aliases := (entries.map fun (k, v) => k.aliases + v.aliases).foldl Nat.add 0
    depth := (entries.map fun (_, v) => v.depth).foldl Nat.max 0 + 1 }

namespace Node

mutual

/-- What a node stands for; none if an alias has no anchor before it, or lies inside it. -/
def resolve? (anchors : Anchors) : Node → Option (Resolved × Anchors)
  | .alias name =>
    match anchors.get? name with
    | some (some r) => some ({ r with aliases := r.aliases + 1 }, anchors)
    | _ => none
  | .scalar p isPlain s => some (withAnchor p ⟨scalarValue? p isPlain s, some s, 0, 0⟩ anchors)
  | .sequence p items => do
    let (items, anchors) ← resolveItems? (openAnchor p anchors) items
    return withAnchor p (sequenceValue p items) anchors
  | .mapping p entries => do
    let (entries, anchors) ← resolveEntries? (openAnchor p anchors) entries
    return withAnchor p (mappingValue p entries) anchors

/-- What items stand for. -/
def resolveItems? (anchors : Anchors) : List Node → Option (List Resolved × Anchors)
  | [] => some ([], anchors)
  | n :: rest => do
    let (r, anchors) ← resolve? anchors n
    let (more, anchors) ← resolveItems? anchors rest
    return (r :: more, anchors)

/-- What entries stand for. -/
def resolveEntries? (anchors : Anchors) :
    List (Node × Node) → Option (List (Resolved × Resolved) × Anchors)
  | [] => some ([], anchors)
  | (k, v) :: rest => do
    let (key, anchors) ← resolve? anchors k
    let (value, anchors) ← resolve? anchors v
    let (more, anchors) ← resolveEntries? anchors rest
    return ((key, value) :: more, anchors)

end

mutual

/-- How many events describe a node: one for a scalar or an alias, two around a collection. -/
def events : Node → Nat
  | .alias _ | .scalar _ _ _ => 1
  | .sequence _ items => eventsOf items + 2
  | .mapping _ entries => eventsOfEntries entries + 2

/-- How many events describe items. -/
def eventsOf : List Node → Nat
  | [] => 0
  | n :: rest => events n + eventsOf rest

/-- How many events describe entries. -/
def eventsOfEntries : List (Node × Node) → Nat
  | [] => 0
  | (k, v) :: rest => events k + events v + eventsOfEntries rest

end

end Node

/-! ## Documents -/

/-- How deep sequences and mappings may nest. -/
def deepestNesting : Nat := 128

/-- How many aliases may be followed for each event. -/
def aliasesPerEvent : Nat := 100

/-- The value of a document. -/
def value? (n : Node) : Option Json := do
  let (r, _) ← n.resolve? .empty
  if r.depth ≤ deepestNesting && r.aliases ≤ n.events * aliasesPerEvent then r.value else none

/-- The value of a text, which holds at most one document; an empty one is null. -/
def read? (s : String) : Option Json := do
  match ← documents? s with
  | [] => return .null
  | [n] => value? n
  | _ => none

end PaneEngine.Yaml
