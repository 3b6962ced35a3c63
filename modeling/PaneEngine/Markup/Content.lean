import PaneEngine.Markup.Cursor
import PaneEngine.Markup.Destination
import PaneEngine.Markup.Emphasis
import PaneEngine.Markup.RawHtml

/-!
# The meaning of marks

Marks are resolved from left to right: angle brackets become autolinks or raw
HTML, grave accents code, and square brackets links and images.  What one of
them takes up is passed over; emphasis comes last, since its runs give way to
everything else.

The nodes of a sequence are those of one construct.  In a tight list these are
the nodes of all paragraphs of an item and the blocks between them, so that a
code span may reach over a heading.

## Main definitions

* `Markup.Scope` — what the meaning of a mark depends on;
* `Markup.LinkState` — the brackets that are still open;
* `Markup.Node.resolve` — a node with the marks inside resolved.
-/

namespace PaneEngine.Markup

/-- What the meaning of marks in a sequence of nodes depends on. -/
structure Scope where
  src : Source
  definitions : Definitions
  /-- The containers around the nodes, outermost first. -/
  containers : List Container
  /-- Where the construct around the nodes ends. -/
  stop : Nat
  /-- All nodes inside that construct, in reading order. -/
  nodes : List Node

namespace Scope

/-- The text from a position to the end of the construct. -/
def behind (sc : Scope) (position : Nat) : List Char := sc.src.slice position sc.stop

/-- Passes the containers at the start of a line of a label. -/
def labelLine (sc : Scope) : LabelLine := fun cs => some (containerLength sc.containers cs)

end Scope

/-- The nodes from a position on. -/
def dropTo (position : Nat) : List Node → List Node
  | [] => []
  | n :: rest => if n.stop ≤ position then dropTo position rest else n.behind position :: rest

theorem length_dropTo_le (position : Nat) (nodes : List Node) :
    (dropTo position nodes).length ≤ nodes.length := by
  induction nodes with
  | nil => simp [dropTo]
  | cons n rest ih => rw [dropTo]; split <;> simp; omega

/-! ## Angle brackets -/

/-- The autolink or the HTML that begins with an angle bracket at a position before a node. -/
def Scope.angled? (sc : Scope) (start : Nat) (next : Node) : Option Node :=
  let cs := sc.behind next.start
  match autolink? cs with
  | some address =>
    let stop := next.start + address.length + 1
    some (.mk start stop (.enclose (.link (String.ofList address) ""))
      [.leaf (start + 1) (stop - 1) .text])
  | none =>
    (rawHtmlLength? (some (containerLength sc.containers)) cs).map fun n =>
      .leaf start (next.start + n) .html

/-! ## Code -/

/-- Whether the node is a run of grave accents that begins at a position. -/
def isAccentsAt (position : Nat) (n : Node) : Bool :=
  match n.kind with
  | .mark (.accents ..) => n.start = position
  | _ => false

/-- The first run of exactly `count` grave accents, and the nodes behind it. -/
def findAccents? (count : Nat) : List Node → Option (Node × List Node)
  | [] => none
  | n :: rest =>
    match n.kind with
    | .mark (.accents k _) => if k = count then some (n, rest) else findAccents? count rest
    | _ => findAccents? count rest

theorem length_of_findAccents? {count : Nat} {nodes rest : List Node} {n : Node}
    (h : findAccents? count nodes = some (n, rest)) : rest.length < nodes.length := by
  induction nodes with
  | nil => simp [findAccents?] at h
  | cons m ms ih =>
    rw [findAccents?] at h
    split at h
    · split at h
      · simp_all
      · have := ih h; simp; omega
    · have := ih h; simp; omega

/-- A character that may be taken off at both ends of a code span. -/
def isCodeEdge (c : Char) : Bool := c = ' ' || c = '\r' || c = '\n'

/-- The text of a code span over nodes, its lines joined by spaces; `joined` holds the lines before,
if there are any.  With `trimmed` ends, a break at an end is dropped. -/
def joinCode (src : Source) (trimmed : Bool) (stop closing : Nat) (first : Bool) (start : Nat)
    (joined : Option (List Char)) : List Node → List Char
  | [] => joined.getD (src.slice start stop)
  | n :: rest =>
    if n.isBreak then
      if trimmed && first then
        let next := (rest.head?.map Node.start).getD closing
        joinCode src trimmed stop closing false (Nat.min stop next) joined rest
      else if trimmed && rest.isEmpty then joined.getD (src.slice start stop)
      else
        let lineStop := n.start + (restOfLine (src.behind n.start)).length
        let line := match joined with
          | some cs => cs ++ src.slice n.start lineStop
          | none => src.slice start lineStop
        joinCode src trimmed stop closing false start (some (line ++ [' '])) rest
    else
      let more := src.slice n.start (if rest.isEmpty then stop else n.stop)
      joinCode src trimmed stop closing false start (joined.map (· ++ more)) rest

/-- The text of the code span between two runs of grave accents.  If it has a blank or a line end at
both ends, one character is taken off at each, unless there are only spaces. -/
def Scope.codeText (sc : Scope) (opening closing : Node) : List Char :=
  let cs := sc.src.slice opening.stop closing.start
  if cs.all (· = ' ') then cs
  else
    let trimmed := cs.head?.any isCodeEdge && cs.getLast?.any isCodeEdge
    let start := if trimmed then opening.stop + 1 else opening.stop
    let stop := if trimmed && start < closing.start then closing.start - 1 else closing.start
    let inner := (sc.nodes.dropWhile fun n => !isAccentsAt opening.start n).drop 1
    joinCode sc.src trimmed stop closing.start true start none
      (inner.takeWhile fun n => !isAccentsAt closing.start n)

/-- The nodes that begin with a run of grave accents, and those behind them.  After a backslash the
first accent is text. -/
def Scope.code (sc : Scope) (n : Node) (count : Nat) (escaped : Bool) (rest : List Node) :
    List Node × List Node :=
  let size := if escaped then count - 1 else count
  match findAccents? size rest with
  | none => ([.leaf n.start n.stop .text], rest)
  | some (closing, behind) =>
    let code := Kind.code (sc.codeText n closing)
    if escaped then
      ([.leaf n.start (n.start + 1) .text, .leaf (n.start + 1) closing.stop code], behind)
    else ([.leaf n.start closing.stop code], behind)

theorem length_code_le (sc : Scope) (n : Node) (count : Nat) (escaped : Bool) (rest : List Node) :
    (sc.code n count escaped rest).2.length ≤ rest.length := by
  simp only [Scope.code]
  cases h : findAccents? (if escaped = true then count - 1 else count) rest with
  | none => simp
  | some found =>
    have := length_of_findAccents? h
    cases escaped <;> simp <;> omega

/-! ## Square brackets -/

/-- An open bracket with the nodes since, latest first. -/
structure Bracket where
  node : Node
  image : Bool
  /-- A bracket before a link is no longer active: links do not nest. -/
  active : Bool
  content : List Node

/-- The nodes of a bracket that is never closed. -/
def Bracket.flatten (b : Bracket) : List Node :=
  b.content ++ [.leaf b.node.start b.node.stop .text]

/-- The open brackets, latest first, over the nodes before all of them. -/
structure LinkState where
  base : List Node
  stack : List Bracket

namespace LinkState

/-- Appends nodes, latest first, to the innermost bracket. -/
def append (content : List Node) (s : LinkState) : LinkState :=
  match s.stack with
  | [] => { s with base := content ++ s.base }
  | b :: rest => { s with stack := { b with content := content ++ b.content } :: rest }

/-- Takes all brackets of links out of use. -/
def deactivate (s : LinkState) : LinkState :=
  { s with stack := s.stack.map fun b => if b.image then b else { b with active := false } }

/-- Adds the link or image that began with a bracket and ends at a position. -/
def link (b : Bracket) (target : Target) (stop : Nat) (s : LinkState) : LinkState :=
  let tag :=
    if b.image then Tag.image target.destination target.title
    else .link target.destination target.title
  let node := Node.mk b.node.start stop (.enclose tag) (resolveEmphasis b.content.reverse)
  (if b.image then s else s.deactivate).append [node]

/-- All nodes, the brackets still open as text. -/
def finish (s : LinkState) : List Node := (s.stack.flatMap Bracket.flatten ++ s.base).reverse

end LinkState

/-- The target that the text between two brackets refers to. -/
def Scope.ownTarget? (sc : Scope) (opening closing : Node) : Option Target := do
  let cs := sc.src.slice opening.stop closing.stop
  let (label, n) ← label? sc.labelLine cs
  if n = closing.stop - opening.stop then sc.definitions.find? label else none

/-- The label in brackets at the start of a text, and its length with both of them. -/
def Scope.bracketed? (sc : Scope) : List Char → Option (List Char × Nat)
  | '[' :: cs => (label? sc.labelLine cs).map fun (label, n) => (label, n + 1)
  | _ => none

/-- The nodes with the one that covers a position as a closing bracket which refers to nothing by
its own text. -/
def refuse (position : Nat) : List Node → List Node
  | [] => []
  | n :: rest =>
    if n.stop ≤ position then n :: refuse position rest
    else .leaf n.start n.stop (.mark (.closing false)) :: rest

theorem length_refuse (position : Nat) (nodes : List Node) :
    (refuse position nodes).length = nodes.length := by
  induction nodes with
  | nil => rfl
  | cons n rest ih => rw [refuse]; split <;> simp [ih]

/-- What the text between two brackets refers to by the label behind it or by itself, where the
link ends, and the nodes that come next.  A label that is not defined is tried no other way. -/
def Scope.refer (sc : Scope) (opening closing : Node) (mayRefer : Bool) (rest : List Node) :
    Option (Target × Nat) × List Node :=
  let own :=
    if mayRefer then (sc.ownTarget? opening closing).map fun t => (t, closing.stop) else none
  match rest with
  | [] => (own, [])
  | next :: more =>
    let cs := sc.behind next.start
    if startsWith ['[', ']'] cs then (own, if own.isSome then more.drop 1 else next :: more)
    else match sc.bracketed? cs with
      | none => (own, next :: more)
      | some (label, n) =>
        let stop := next.start + n
        match dropTo (stop - 1) (next :: more) with
        | [] => (none, next :: more)
        | _ :: behind =>
          match sc.definitions.find? label with
          | some target => (some (target, stop), behind)
          | none => (none, refuse (stop - 1) (next :: more))

theorem length_refer_le (sc : Scope) (opening closing : Node) (mayRefer : Bool)
    (rest : List Node) : (sc.refer opening closing mayRefer rest).2.length ≤ rest.length := by
  cases rest with
  | nil => simp [Scope.refer]
  | cons next more =>
    simp only [Scope.refer]
    generalize (if mayRefer = true then _ else none : Option (Target × Nat)) = own
    split
    · split <;> simp; omega
    · split
      · simp
      · rename_i label n _
        have hLength := length_dropTo_le (next.start + n - 1) (next :: more)
        split
        · simp
        · simp_all only [List.length_cons]
          split <;> simp [length_refuse]; omega

/-- The effect of a closing bracket; returns the nodes that come next. -/
def Scope.close (sc : Scope) (n : Node) (mayRefer : Bool) (rest : List Node) (s : LinkState) :
    LinkState × List Node :=
  let text := Node.leaf n.start n.stop .text
  match s.stack with
  | [] => (s.append [text], rest)
  | b :: outer =>
    let s := { s with stack := outer }
    let plain := s.append (text :: b.flatten)
    if !b.active then (plain, rest)
    else match linkTail? rest n.stop (sc.behind n.stop) with
      | some (target, k) => (s.link b target (n.stop + k), dropTo (n.stop + k) rest)
      | none =>
        match sc.refer b.node n mayRefer rest with
        | (some (target, stop), rest) => (s.link b target stop, rest)
        | (none, rest) => (plain, rest)

theorem length_close_le (sc : Scope) (n : Node) (mayRefer : Bool) (rest : List Node)
    (s : LinkState) : (sc.close n mayRefer rest s).2.length ≤ rest.length := by
  simp only [Scope.close]
  split
  · simp
  · rename_i b outer _
    split
    · simp
    · split
      · simpa using length_dropTo_le _ rest
      · have := length_refer_le sc b.node n mayRefer rest
        split <;> simp_all

/-! ## Sequences of nodes -/

/-- The effect of a node; returns the nodes that come next. -/
def Scope.step (sc : Scope) (n : Node) (rest : List Node) (s : LinkState) :
    LinkState × List Node :=
  match n.kind with
  | .mark .angle =>
    match rest.head?.bind (sc.angled? n.start) with
    | some node => (s.append [node], dropTo node.stop rest)
    | none => (s.append [.leaf n.start n.stop .text], rest)
  | .mark (.accents count escaped) =>
    let (nodes, rest) := sc.code n count escaped rest
    (s.append nodes.reverse, rest)
  | .mark (.opening image) => ({ s with stack := ⟨n, image, true, []⟩ :: s.stack }, rest)
  | .mark (.closing mayRefer) => sc.close n mayRefer rest s
  | _ => (s.append [n], rest)

theorem length_step_le (sc : Scope) (n : Node) (rest : List Node) (s : LinkState) :
    (sc.step n rest s).2.length ≤ rest.length := by
  simp only [Scope.step]
  split
  · split
    · simpa using length_dropTo_le _ rest
    · simp
  · exact length_code_le ..
  · simp
  · exact length_close_le ..
  · simp

/-- The effect of all nodes. -/
def Scope.run (sc : Scope) (s : LinkState) (nodes : List Node) : LinkState :=
  match nodes with
  | [] => s
  | n :: rest =>
    let next := sc.step n rest s
    sc.run next.1 next.2
termination_by nodes.length
decreasing_by
  have := length_step_le sc n rest s
  simp only [List.length_cons]
  omega

/-- The nodes of a construct with all marks resolved. -/
def Scope.resolve (sc : Scope) (nodes : List Node) : List Node :=
  resolveEmphasis (sc.run ⟨[], []⟩ (nodes.filter fun n => n.kind ≠ .dissolved)).finish

/-! ## Trees of nodes -/

namespace Node

mutual

/-- The node and all nodes inside, in reading order, with others behind them. -/
def flat (behind : List Node) : Node → List Node
  | mk s e k ns => mk s e k ns :: flatAll behind ns

/-- The nodes and all nodes inside, in reading order, with others behind them. -/
def flatAll (behind : List Node) : List Node → List Node
  | [] => behind
  | n :: rest => flat (flatAll behind rest) n

end

/-- The container that a node is for those inside. -/
def container? : Kind → Option Container
  | .enclose .quote => some .quote
  | .item indent => some (.item indent)
  | _ => none

mutual

/-- The node with all marks inside resolved; `containers` are those around it. -/
def resolve (src : Source) (definitions : Definitions) (containers : List Container) :
    Node → Node
  | mk s e k ns =>
    let inner := containers ++ (container? k).toList
    let sc : Scope := ⟨src, definitions, inner, e, flatAll [] ns⟩
    mk s e k (sc.resolve (resolveAll src definitions inner ns))

/-- The nodes with all marks inside each of them resolved. -/
def resolveAll (src : Source) (definitions : Definitions) (containers : List Container) :
    List Node → List Node
  | [] => []
  | n :: rest =>
    resolve src definitions containers n :: resolveAll src definitions containers rest

end

end Node

end PaneEngine.Markup
