import PaneEngine.Markup.Node

/-!
# Emphasis

Runs of `*`, `_` and `~` open and close emphasis.  Which opening run a closing
one belongs to is decided on a stack of open runs, the latest first.  Two runs
do not match when one of them can both open and close and their lengths add up
to a multiple of three, unless the closing one's length is such a multiple
itself.

A search that finds nothing is not repeated below the height the stack had: a
*floor* is kept per kind of closing run.

## Main definitions

* `Markup.Run` — a run and what it can do;
* `Markup.resolveEmphasis` — nodes with all runs resolved.
-/

namespace PaneEngine.Markup

/-- A run of one delimiter. -/
structure Run where
  start : Nat
  stop : Nat
  char : Char
  count : Nat
  canOpen : Bool
  canClose : Bool

namespace Run

/-- Whether the run can both open and close. -/
def both (r : Run) : Bool := r.canOpen && r.canClose

/-- The run of a node. -/
def ofNode? (n : Node) : Option Run :=
  match n.kind with
  | .mark (.run c count canOpen canClose) => some ⟨n.start, n.stop, c, count, canOpen, canClose⟩
  | _ => none

/-- What is left of the run when `k` delimiters in front have closed something. -/
def dropFront (k : Nat) (r : Run) : Run := { r with start := r.start + k, count := r.count - k }

end Run

/-! ## Open runs -/

/-- An open run with the nodes since, latest first. -/
structure OpenRun where
  start : Nat
  stop : Nat
  char : Char
  count : Nat
  both : Bool
  content : List Node

namespace OpenRun

/-- The nodes of an open run that is never closed. -/
def flatten (o : OpenRun) : List Node := o.content ++ [.leaf o.start o.stop .text]

/-- What is left of the run when `k` delimiters at its end have been closed around nodes. -/
def dropBack (k : Nat) (both : Bool) (content : List Node) (o : OpenRun) : OpenRun :=
  ⟨o.start, o.start + (o.count - k), o.char, o.count - k, both, content⟩

end OpenRun

/-- The kinds of closing runs for which floors are kept. -/
structure Floors where
  underscore : Nat
  underscoreBoth : Nat
  star : Nat
  star₀ : Nat
  star₁ : Nat
  star₂ : Nat
  tilde : Nat

namespace Floors

/-- No search has failed. -/
def zero : Floors := ⟨0, 0, 0, 0, 0, 0, 0⟩

/-- The floor of stars by the remainder of their number. -/
def starMod (f : Floors) (count : Nat) : Nat :=
  match count % 3 with
  | 0 => f.star₀
  | 1 => f.star₁
  | _ => f.star₂

/-- The height below which a closing run need not search. -/
def get (f : Floors) (c : Char) (count : Nat) (both : Bool) : Nat :=
  if c = '_' then if both then f.underscoreBoth else f.underscore
  else if c = '*' then
    if both then f.starMod count else Nat.min (f.starMod count) f.star
  else f.tilde

/-- Notes that a search has failed at this height. -/
def set (f : Floors) (c : Char) (count : Nat) (both : Bool) (height : Nat) : Floors :=
  if c = '_' then
    if both then { f with underscoreBoth := height } else { f with underscore := height }
  else if c = '*' then
    let f := match count % 3 with
      | 0 => { f with star₀ := height }
      | 1 => { f with star₁ := height }
      | _ => { f with star₂ := height }
    if both then f else { f with star := height }
  else { f with tilde := height }

end Floors

/-- The open runs, latest first, over the nodes before all of them. -/
structure EmphasisState where
  base : List Node
  stack : List OpenRun
  floors : Floors

namespace EmphasisState

/-- Appends nodes, latest first, to the innermost open run. -/
def append (content : List Node) (s : EmphasisState) : EmphasisState :=
  match s.stack with
  | [] => { s with base := content ++ s.base }
  | o :: rest => { s with stack := { o with content := content ++ o.content } :: rest }

/-- Opens a run. -/
def push (o : OpenRun) (s : EmphasisState) : EmphasisState := { s with stack := o :: s.stack }

/-- Whether an open run can be closed by a run of `count` times `c`. -/
def accepts (c : Char) (count : Nat) (both : Bool) (o : OpenRun) : Bool :=
  o.char = c && ((!both && !o.both) || (count + o.count) % 3 ≠ 0 || count % 3 = 0)

/-- Finds the latest open run that accepts; the nodes of those after it are flattened. -/
def search (c : Char) (count : Nat) (both : Bool) :
    Nat → List Node → List OpenRun → Option (OpenRun × List OpenRun)
  | 0, _, _ => none
  | _, _, [] => none
  | height + 1, inner, o :: rest =>
    if accepts c count both o then some ({ o with content := inner ++ o.content }, rest)
    else search c count both height (inner ++ o.flatten) rest

/-- Wraps nodes into `count` delimiters of a span: pairs are strong and innermost. -/
def nest (c : Char) (start stop : Nat) (content : List Node) : Nat → List Node
  | 0 => content
  | 1 => [.mk start stop (.enclose (if c = '~' then .strikethrough else .emphasis)) content]
  | count + 2 =>
    let tag := if c = '~' then Tag.strikethrough else .strong
    nest c start stop [.mk (start + count) (stop - count) (.enclose tag) content] count

/-- Closes as much as a run can; returns what is left of it. -/
def close (r : Run) (s : EmphasisState) : Run × EmphasisState :=
  if r.count = 0 then (r, s)
  else
    let height := s.stack.length
    let floor := s.floors.get r.char r.count r.both
    match search r.char r.count r.both (height - floor) [] s.stack with
    | none => (r, { s with floors := s.floors.set r.char r.count r.both height })
    | some (o, rest) =>
      let matched := Nat.min r.count o.count
      if matched = 0 then (r, s)
      else
        let nodes := nest r.char (o.start + (o.count - matched)) (r.start + matched)
          o.content.reverse matched
        let s := { s with stack := rest }
        let s :=
          if matched < o.count then s.push (o.dropBack matched r.both nodes) else s.append nodes
        close (r.dropFront matched) s
termination_by r.count
decreasing_by simp only [Run.dropFront]; omega

/-- The effect of one node. -/
def step (s : EmphasisState) (n : Node) : EmphasisState :=
  match Run.ofNode? n with
  | none => s.append [n]
  | some r =>
    let (left, s) := if r.canClose then close r s else (r, s)
    if left.count = 0 then s
    else if left.canOpen then s.push ⟨left.start, left.stop, left.char, left.count, left.both, []⟩
    else s.append [.leaf left.start left.stop .text]

/-- All nodes, the runs still open as text. -/
def finish (s : EmphasisState) : List Node :=
  (s.stack.flatMap OpenRun.flatten ++ s.base).reverse

end EmphasisState

/-- The nodes with all runs resolved. -/
def resolveEmphasis (nodes : List Node) : List Node :=
  (nodes.foldl EmphasisState.step ⟨[], [], .zero⟩).finish

end PaneEngine.Markup
