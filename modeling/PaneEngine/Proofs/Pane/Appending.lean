import PaneEngine.Proofs.Pane.Index
import PaneEngine.Proofs.Pane.Parenthood

/-!
# Appending blocks

An author who writes on at the end of a pane must not disturb what an editor
knows about the part above.  Ids, counts of tracked tags and numbers in a block
are all handed on in reading order, and neither the flattening nor the index
looks ahead, so what a document gives is the beginning of what a longer one
gives.

Nothing here depends on the ids being distinct.

## Main definitions

* `Index.Extends` — an index continues another one.

## Main results

* `extends_addNode`, `extends_foldl_step` — nodes only add to an index;
* `layout_root_append` — the rows of a longer document;
* `append_conservative` — appending blocks leaves compiled content and index as they were.
-/

namespace PaneEngine.Pane

namespace Index

/-! ## Indices that continue others -/

/-- Every table and every list of links of `x` is the beginning of that of `y`. -/
structure Extends (x y : Index) : Prop where
  table : ∀ k, x.table k <+: y.table k
  targets : ∀ target numbers, x.linksByTarget.get? target = some numbers →
    ∃ numbers', y.linksByTarget.get? target = some numbers' ∧ numbers <+: numbers'

namespace Extends

variable {x y z : Index}

theorem refl (x : Index) : x.Extends x where
  table := fun k => List.prefix_refl (x.table k)
  targets := fun _ numbers h => ⟨numbers, h, List.prefix_refl numbers⟩

theorem trans (hxy : x.Extends y) (hyz : y.Extends z) : x.Extends z where
  table := fun k => (hxy.table k).trans (hyz.table k)
  targets := by
    intro target numbers h
    obtain ⟨numbers', h', hPrefix⟩ := hxy.targets target numbers h
    obtain ⟨numbers'', h'', hPrefix'⟩ := hyz.targets target numbers' h'
    exact ⟨numbers'', h'', hPrefix.trans hPrefix'⟩

end Extends

theorem extends_addNode (x : Index) (block : Nat) (n : Node) : x.Extends (x.addNode block n) where
  table := by
    intro k
    rw [table_addNode]
    exact List.prefix_append _ _
  targets := by
    intro target numbers h
    rw [get?_linksByTarget_addNode]
    split
    · refine ⟨_, rfl, ?_⟩
      have hHere : x.linksTo target = numbers := by rw [linksTo, h, Option.getD_some]
      rw [hHere]
      exact List.prefix_append _ _
    · exact ⟨numbers, h, List.prefix_refl numbers⟩

/-- A node is added to the index or passed over, also where its parent is unknown. -/
theorem extends_step (c : String) (b : Building) (n : Node) :
    b.index.Extends (b.step c n).index := by
  unfold Building.step
  by_cases hTop : n.parentId = c
  · simp only [if_pos hTop]
    exact extends_addNode b.index b.blocks n
  · simp only [if_neg hTop]
    cases b.blockOf.lookup n.parentId with
    | none => exact .refl b.index
    | some block => exact extends_addNode b.index block n

theorem extends_foldl_step (c : String) (ns : List Node) (b : Building) :
    b.index.Extends (ns.foldl (Building.step c) b).index := by
  induction ns generalizing b with
  | nil => exact .refl b.index
  | cons n ns ih => exact (extends_step c b n).trans (ih (b.step c n))

/-- More nodes of the same container continue the index. -/
theorem extends_ofGraph {g g' : Graph} (hContainer : g'.containerId = g.containerId)
    (hNodes : g.nodes <+: g'.nodes) : (ofGraph g).Extends (ofGraph g') := by
  obtain ⟨behind, hBehind⟩ := hNodes
  unfold ofGraph
  rw [hContainer, ← hBehind, List.foldl_append]
  exact extends_foldl_step g.containerId behind _

end Index

/-! ## Rows of a longer document -/

theorem pruneAll_append (xs ys : List Tree) :
    pruneAll (xs ++ ys) = (pruneAll xs).append (pruneAll ys) := by
  induction xs with
  | nil => rfl
  | cons t xs ih => rw [List.cons_append, pruneAll, pruneAll, ih, Forest.append_assoc]

/-- Appended blocks are numbered on from where the document ended. -/
theorem layout_root_append (xs ys : List Tree) :
    layout (.root (xs ++ ys)) =
      layout (.root xs) ++ ((pruneAll ys).number (pruneAll xs).size).rows none := by
  simp only [layout, prune, pruneAll_append, Forest.number_append, Forest.rows_append,
    Nat.zero_add]

/-- Rows that stand behind others are styled by all that stands before them. -/
theorem nodesBehind_append (s : Settings) (ids : Nat → String) (before rs rs' : List (Row Kept)) :
    nodesBehind s ids before (rs ++ rs') =
      nodesBehind s ids before rs ++ nodesBehind s ids (before ++ rs) rs' := by
  induction rs generalizing before with
  | nil => simp [nodesBehind]
  | cons r rs ih =>
      simp only [List.cons_append, nodesBehind, ih, List.append_assoc, List.nil_append]

theorem compile_root_append (s : Settings) (ids : Nat → String) (xs ys : List Tree) :
    (compile s ids (.root (xs ++ ys))).nodes =
      (compile s ids (.root xs)).nodes ++
        nodesBehind s ids (layout (.root xs))
          (((pruneAll ys).number (pruneAll xs).size).rows none) := by
  rw [compile_nodes, compile_nodes, layout_root_append, nodesBehind_append, List.nil_append]

/-- Blocks give as many nodes behind a document as by themselves. -/
theorem length_compile_append (s : Settings) (ids : Nat → String) (xs ys : List Tree) :
    (compile s ids (.root (xs ++ ys))).nodes.length =
      (compile s ids (.root xs)).nodes.length + (compile s ids (.root ys)).nodes.length := by
  simp only [length_compile, layout, prune, pruneAll_append, Forest.rows_length,
    Forest.size_number, Forest.size_append]

/-- **Appending blocks is conservative.**  For all settings, blocks and ids, the nodes of a document
are, field for field, the first nodes of the document with blocks appended, and the nodes behind
them are as many as the appended blocks give by themselves.  Every table of the index is the
beginning of that of the longer document, and so is the list of links of every target. -/
theorem append_conservative (s : Settings) (ids : Nat → String) (xs ys : List Tree) :
    let g := compile s ids (.root xs)
    let g' := compile s ids (.root (xs ++ ys))
    let x := Index.ofGraph g
    let x' := Index.ofGraph g'
    g'.nodes.take g.nodes.length = g.nodes ∧
      g'.nodes.length = g.nodes.length + (compile s ids (.root ys)).nodes.length ∧
      (∀ k, x.table k <+: x'.table k) ∧
      ∀ target numbers, x.linksByTarget.get? target = some numbers →
        ∃ numbers', x'.linksByTarget.get? target = some numbers' ∧ numbers <+: numbers' := by
  intro g g' x x'
  have hNodes : g.nodes <+: g'.nodes := ⟨_, (compile_root_append s ids xs ys).symm⟩
  have hIndex : x.Extends x' := Index.extends_ofGraph rfl hNodes
  exact ⟨List.prefix_iff_eq_take.1 hNodes |>.symm, length_compile_append s ids xs ys, hIndex.table,
    hIndex.targets⟩

end PaneEngine.Pane
