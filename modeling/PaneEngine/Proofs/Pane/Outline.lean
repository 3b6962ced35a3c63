import PaneEngine.Proofs.Dict
import PaneEngine.Proofs.Pane.Forest
import PaneEngine.Proofs.Pane.Node

/-!
# The outline of an element tree

A compilation keeps only part of an element tree: inner roots leave their
children, ignored nodes and elements without a tag leave nothing, and a code
element leaves no children.  What is kept is the outline of the tree, a forest
that knows nothing of ids, parents or counts.

The flattening of a tree is a fold over the rows of its outline.  This is the
one place where the recursion over the tree is followed; everything about the
nodes of compiled content is said of that flat list.

## Main definitions

* `Kept` — what a node of the compiled content comes from;
* `prune` — the outline of a tree;
* `Flattening.place` — what one row adds;
* `layout` — the rows of a tree, and `nodesBehind` — the nodes that rows give.

## Main results

* `visit_eq_foldl` — flattening is a fold over rows;
* `compile_nodes` — the compiled content in closed form.
-/

namespace PaneEngine.Pane

/-! ## What is kept -/

/-- A node of an element tree that leaves a node in the compiled content. -/
inductive Kept where
  | text (value : String)
  | element (tag : String) (properties : Dict Json) (children : List Tree)

namespace Kept

/-- The tag of a node as it stands in the tree. -/
def tag : Kept → String
  | text _ => "text"
  | element tag _ _ => tag

/-- The compiled node. -/
def node (s : Settings) (id parentId : String) (style : Style.Resolved) : Kept → Node
  | text value => textNode id parentId value
  | element tag properties children =>
    elementNode s id parentId tag style (.element (some tag) properties children)

end Kept

mutual

/-- The outline of a tree. -/
def prune : Tree → Forest Kept
  | .root children => pruneAll children
  | .text value => .tree (.text value) .nil .nil
  | .element (some tag) properties children =>
    .tree (.element tag properties children)
      (if tag = "code" then .nil else pruneAll children) .nil
  | .element none _ _ => .nil
  | .other => .nil

/-- The outline of trees that stand one after the other. -/
def pruneAll : List Tree → Forest Kept
  | [] => .nil
  | t :: rest => (prune t).append (pruneAll rest)

end

/-- The rows of a tree. -/
def layout (t : Tree) : List (Row Kept) := ((prune t).number 0).rows none

/-! ## Flattening row by row -/

/-- The id of a parent: the container's at the top. -/
def parentName (s : Settings) (ids : Nat → String) : Option Nat → String
  | none => s.containerId
  | some n => ids n

/-- The compiled node of a row. -/
def rowNode (s : Settings) (ids : Nat → String) (style : Style.Resolved) (r : Row Kept) : Node :=
  r.label.node s (ids r.number) (parentName s ids r.parent) style

/-- Adds the node of a row. -/
def Flattening.place (s : Settings) (ids : Nat → String) (f : Flattening) (r : Row Kept) :
    Flattening :=
  (f.countTag r.label.tag).emit (rowNode s ids (f.nextStyle s r.label.tag) r)

namespace Flattening

@[simp] theorem drawn_emit (n : Node) (f : Flattening) : (f.emit n).drawn = f.drawn + 1 := rfl

@[simp] theorem nodes_emit (n : Node) (f : Flattening) : (f.emit n).nodes = n :: f.nodes := rfl

@[simp] theorem drawn_countTag (tag : String) (f : Flattening) :
    (f.countTag tag).drawn = f.drawn := by
  unfold countTag
  split <;> rfl

@[simp] theorem nodes_countTag (tag : String) (f : Flattening) :
    (f.countTag tag).nodes = f.nodes := by
  unfold countTag
  split <;> rfl

theorem countTag_untracked {tag : String} (h : Style.isTracked tag = false) (f : Flattening) :
    f.countTag tag = f := by
  simp [countTag, h]

/-- Counting a tag adds one to its own count and leaves every other count alone. -/
theorem count_countTag {tag : String} (h : Style.isTracked tag = true) (f : Flattening)
    (tag' : String) :
    (f.countTag tag').count tag = f.count tag + if tag = tag' then 1 else 0 := by
  unfold countTag
  by_cases hTracked : Style.isTracked tag' = true
  · rw [if_pos hTracked]
    simp only [count, Dict.get?_insert]
    by_cases hEq : tag = tag'
    · simp [hEq]
    · simp [hEq]
  · have hne : tag ≠ tag' := fun hEq => hTracked (hEq ▸ h)
    rw [if_neg hTracked, if_neg hne, Nat.add_zero]

@[simp] theorem drawn_place (s : Settings) (ids : Nat → String) (f : Flattening) (r : Row Kept) :
    (f.place s ids r).drawn = f.drawn + 1 := by
  simp [place]

mutual

/-- A tree takes as many ids as its outline has nodes. -/
theorem drawn_visit (s : Settings) (ids : Nat → String) (p : String) (f : Flattening) :
    ∀ t : Tree, (visit s ids p f t).drawn = f.drawn + (prune t).size
  | .root children => by
      rw [visit, prune]
      exact drawn_visitAll s ids p f children
  | .text value => by simp [visit, prune, Forest.size]
  | .element (some tag) properties children => by
      by_cases hCode : tag = "code"
      · simp [visit, prune, Forest.size, hCode]
      · simp only [visit, prune, Forest.size, if_neg hCode]
        rw [drawn_visitAll s ids _ _ children, drawn_emit, drawn_countTag]
        omega
  | .element none _ _ => by simp [visit, prune, Forest.size]
  | .other => by simp [visit, prune, Forest.size]

theorem drawn_visitAll (s : Settings) (ids : Nat → String) (p : String) (f : Flattening) :
    ∀ ts : List Tree, (visitAll s ids p f ts).drawn = f.drawn + (pruneAll ts).size
  | [] => by simp [visitAll, pruneAll, Forest.size]
  | t :: rest => by
      rw [visitAll, pruneAll, Forest.size_append, drawn_visitAll s ids p _ rest,
        drawn_visit s ids p f t]
      omega

end

mutual

/-- **Flattening is a fold over rows.**  The rows are numbered from the ids that have been drawn,
so a parent goes by the id that its own row has taken. -/
theorem visit_eq_foldl (s : Settings) (ids : Nat → String) (p : Option Nat) (f : Flattening) :
    ∀ t : Tree, visit s ids (parentName s ids p) f t =
      (((prune t).number f.drawn).rows p).foldl (place s ids) f
  | .root children => by
      rw [visit, prune]
      exact visitAll_eq_foldl s ids p f children
  | .text value => by
      have hText : Style.isTracked "text" = false := by decide
      simp only [visit, prune, Forest.number, Forest.rows, List.nil_append, List.foldl_cons,
        List.foldl_nil, place, Kept.tag, countTag_untracked hText]
      rfl
  | .element (some tag) properties children => by
      by_cases hCode : tag = "code"
      · simp only [visit, prune, if_pos hCode, Forest.number, Forest.rows, List.nil_append,
          List.foldl_cons, List.foldl_nil]
        rfl
      · simp only [visit, prune, if_neg hCode, Forest.number, Forest.rows, List.append_nil,
          List.foldl_cons]
        have ih := visitAll_eq_foldl s ids (some f.drawn)
          (f.place s ids ⟨f.drawn, p, .element tag properties children⟩) children
        rw [drawn_place] at ih
        exact ih
  | .element none _ _ => rfl
  | .other => rfl

theorem visitAll_eq_foldl (s : Settings) (ids : Nat → String) (p : Option Nat) (f : Flattening) :
    ∀ ts : List Tree, visitAll s ids (parentName s ids p) f ts =
      (((pruneAll ts).number f.drawn).rows p).foldl (place s ids) f
  | [] => rfl
  | t :: rest => by
      rw [visitAll, pruneAll, Forest.number_append, Forest.rows_append, List.foldl_append,
        ← visit_eq_foldl s ids p f t, visitAll_eq_foldl s ids p _ rest, drawn_visit]

end

end Flattening

/-! ## The compiled content in closed form -/

/-- How often a tag occurs in rows. -/
def occurrences (rs : List (Row Kept)) (tag : String) : Nat :=
  rs.countP fun r => r.label.tag = tag

/-- The styles of a node that stands behind rows. -/
def styleBehind (s : Settings) (before : List (Row Kept)) (tag : String) : Style.Resolved :=
  if Style.isTracked tag then Style.resolve s.options tag (occurrences before tag) else .none

/-- The nodes of rows that stand behind other rows. -/
def nodesBehind (s : Settings) (ids : Nat → String) (before : List (Row Kept)) :
    List (Row Kept) → List Node
  | [] => []
  | r :: rest =>
    rowNode s ids (styleBehind s before r.label.tag) r :: nodesBehind s ids (before ++ [r]) rest

theorem occurrences_concat (rs : List (Row Kept)) (r : Row Kept) (tag : String) :
    occurrences (rs ++ [r]) tag = occurrences rs tag + if tag = r.label.tag then 1 else 0 := by
  simp only [occurrences, List.countP_append, List.countP_singleton, decide_eq_true_eq,
    eq_comm (a := tag)]

/-- The counts of a flattening are right when they are the occurrences in the rows so far. -/
theorem nodes_foldl_place (s : Settings) (ids : Nat → String) (rs : List (Row Kept))
    (f : Flattening) (before : List (Row Kept))
    (hCounts : ∀ tag, Style.isTracked tag = true → f.count tag = occurrences before tag) :
    (rs.foldl (Flattening.place s ids) f).nodes.reverse =
      f.nodes.reverse ++ nodesBehind s ids before rs := by
  induction rs generalizing f before with
  | nil => simp [nodesBehind]
  | cons r rs ih =>
      have hStyle : f.nextStyle s r.label.tag = styleBehind s before r.label.tag := by
        unfold Flattening.nextStyle styleBehind
        by_cases hTracked : Style.isTracked r.label.tag = true
        · rw [if_pos hTracked, if_pos hTracked, hCounts _ hTracked]
        · rw [if_neg hTracked, if_neg hTracked]
      have hNext : ∀ tag, Style.isTracked tag = true →
          (f.place s ids r).count tag = occurrences (before ++ [r]) tag := by
        intro tag hTracked
        rw [occurrences_concat, ← hCounts tag hTracked,
          ← Flattening.count_countTag hTracked f r.label.tag]
        rfl
      rw [List.foldl_cons, ih _ _ hNext, Flattening.place, hStyle]
      simp [nodesBehind]

/-- **The compiled content in closed form**: the nodes of the rows of the tree. -/
theorem compile_nodes (s : Settings) (ids : Nat → String) (t : Tree) :
    (compile s ids t).nodes = nodesBehind s ids [] (layout t) := by
  have hVisit := Flattening.visit_eq_foldl s ids none .start t
  have hNodes := nodes_foldl_place s ids (layout t) .start [] fun _ _ => rfl
  show (Flattening.visit s ids (parentName s ids none) .start t).nodes.reverse = _
  rw [hVisit]
  exact hNodes

/-- Compilation draws one id for each row. -/
theorem drawn_compile (s : Settings) (ids : Nat → String) (t : Tree) :
    (Flattening.visit s ids s.containerId .start t).drawn = (layout t).length := by
  rw [Flattening.drawn_visit, layout, Forest.rows_length, Forest.size_number]
  simp [Flattening.start]

theorem nodesBehind_getElem? (s : Settings) (ids : Nat → String) (rs before : List (Row Kept))
    (i : Nat) :
    (nodesBehind s ids before rs)[i]? = rs[i]?.map fun r =>
      rowNode s ids (styleBehind s (before ++ rs.take i) r.label.tag) r := by
  induction rs generalizing before i with
  | nil => simp [nodesBehind]
  | cons r rs ih =>
      cases i with
      | zero => simp [nodesBehind]
      | succ i =>
          simp only [nodesBehind, List.getElem?_cons_succ, ih, List.take_succ_cons,
            List.append_assoc, List.singleton_append]

/-- The node at a place is the node of the row there, styled by the rows before it. -/
theorem compile_getElem? (s : Settings) (ids : Nat → String) (t : Tree) (i : Nat) :
    (compile s ids t).nodes[i]? = (layout t)[i]?.map fun r =>
      rowNode s ids (styleBehind s ((layout t).take i) r.label.tag) r := by
  rw [compile_nodes, nodesBehind_getElem?, List.nil_append]

/-! ## Fields of a compiled node -/

namespace Kept

@[simp] theorem node_id (s : Settings) (id p : String) (style : Style.Resolved) (k : Kept) :
    (k.node s id p style).id = id := by
  cases k with
  | text value => rfl
  | element tag properties children => exact (elementNode_frame s id p tag style _).id

@[simp] theorem node_parentId (s : Settings) (id p : String) (style : Style.Resolved) (k : Kept) :
    (k.node s id p style).parentId = p := by
  cases k with
  | text value => rfl
  | element tag properties children => exact (elementNode_frame s id p tag style _).parentId

/-- Styles are counted by the tag in the tree and read by the tag of the node: the two differ for
links only, and neither tag of a link is counted. -/
theorem node_tag_tracked (s : Settings) (id p : String) (style : Style.Resolved) (k : Kept) :
    (k.node s id p style).tag = k.tag ∨
      Style.isTracked (k.node s id p style).tag = false ∧ Style.isTracked k.tag = false := by
  cases k with
  | text value => exact .inl rfl
  | element tag properties children =>
      by_cases hLink : tag = "a"
      · subst hLink
        refine .inr ⟨?_, (by decide : Style.isTracked "a" = false)⟩
        rcases elementNode_tag_link s id p style (.element (some "a") properties children)
          with hTag | hTag
        · rw [node, hTag]
          decide
        · rw [node, hTag]
          decide
      · exact .inl (elementNode_tag hLink s id p style _)

end Kept

end PaneEngine.Pane
