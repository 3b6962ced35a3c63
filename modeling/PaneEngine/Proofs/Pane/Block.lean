import Mathlib.Data.Nat.Count
import PaneEngine.Proofs.Pane.Occurrence

/-!
# Blocks at the top

Every node of compiled content lies in one block at the top: the block of its
ancestor among the children of the container.  A flat list says so only through
ids of parents.  Since it lists a tree before the trees behind it, no block
begins between a node and its parent, so the block of a node is the last one
that has begun; its number is how many blocks have begun before.

Places are counted by `Nat.count`.

## Main definitions

* `Graph.InBlock` — a node lies in the block of a node at the top;
* `Graph.InOrder` — ids are distinct, and parents stand before their children in the same block;
* `Graph.block` — the number of the block that has begun last.

## Main results

* `compile_inOrder` — compiled content is in order;
* `inBlock_iff`, `exists_block` — a node lies in the block that has begun last and in no other.
-/

namespace PaneEngine.Pane

/-! ## Counting places -/

theorem count_eq_of_none {p : Nat → Prop} [DecidablePred p] {i j : Nat} (hLe : i ≤ j)
    (hNone : ∀ l, i ≤ l → l < j → ¬ p l) : Nat.count p j = Nat.count p i := by
  refine Nat.le_antisymm (Nat.le_of_not_lt ?_) (Nat.count_monotone p hLe)
  intro hLt
  obtain ⟨l, hRange, hHere⟩ := Nat.exists_of_count_lt_count hLt
  exact hNone l hRange.1 hRange.2 hHere

theorem count_congr {p q : Nat → Prop} [DecidablePred p] [DecidablePred q] {n : Nat}
    (h : ∀ i, i < n → (p i ↔ q i)) : Nat.count p n = Nat.count q n :=
  Nat.le_antisymm (Nat.count_mono_left fun i hi => (h i hi).1)
    (Nat.count_mono_left fun i hi => (h i hi).2)

/-- Every number below a count is the count at some place. -/
theorem exists_count_eq {p : Nat → Prop} [DecidablePred p] {n t : Nat} (h : t < Nat.count p n) :
    ∃ i, i < n ∧ p i ∧ Nat.count p i = t := by
  induction n with
  | zero => simp at h
  | succ n ih =>
      by_cases hBelow : t < Nat.count p n
      · obtain ⟨i, hi, hHere, hCount⟩ := ih hBelow
        exact ⟨i, by omega, hHere, hCount⟩
      · rw [Nat.count_succ] at h
        by_cases hHere : p n
        · rw [if_pos hHere] at h
          exact ⟨n, by omega, hHere, by omega⟩
        · rw [if_neg hHere] at h
          omega

theorem countP_take {α : Type} (p : α → Bool) (l : List α) (i : Nat) :
    (l.take i).countP p = Nat.count (fun j => l[j]?.any p = true) i := by
  induction i with
  | zero => simp
  | succ i ih =>
      rw [List.take_add_one, List.countP_append, ih, Nat.count_succ]
      cases l[i]? with
      | none => rfl
      | some a => simp [List.countP_singleton]

namespace Graph

/-! ## Blocks -/

/-- `n` lies in the block of `r`, its ancestor at the top. -/
inductive InBlock (g : Graph) (r : Node) : Node → Prop where
  | root : r ∈ g.nodes → r.parentId = g.containerId → g.InBlock r r
  | child {m n : Node} : g.InBlock r m → n ∈ g.nodes → n.parentId = m.id → g.InBlock r n

/-- Whether the node at a place is at the top. -/
def topAt (g : Graph) (i : Nat) : Bool := g.nodes[i]?.any fun n => n.parentId = g.containerId

/-- The number of the block that has begun last at a place. -/
def block (g : Graph) (i : Nat) : Nat := Nat.count (g.topAt · = true) (i + 1) - 1

/-- A list of nodes that tells of every node which block it lies in. -/
structure InOrder (g : Graph) : Prop where
  nodup : (g.nodes.map (·.id)).Nodup
  ne_container : ∀ n ∈ g.nodes, n.id ≠ g.containerId
  /-- A node is at the top, or its parent stands before it and no block begins in between. -/
  parent : ∀ i n, g.nodes[i]? = some n → n.parentId ≠ g.containerId →
    ∃ j m, j < i ∧ g.nodes[j]? = some m ∧ n.parentId = m.id ∧
      ∀ l, j < l → l ≤ i → g.topAt l = false

variable {g : Graph} {n m r : Node} {i j : Nat}

theorem topAt_iff (h : g.nodes[i]? = some n) : g.topAt i = true ↔ n.parentId = g.containerId := by
  simp [topAt, h]

theorem block_of_top (h : g.topAt i = true) : g.block i = Nat.count (g.topAt · = true) i := by
  rw [block, Nat.count_succ, if_pos h]
  omega

/-- Where no block begins, the block stays the same. -/
theorem block_eq_of_none (hLe : j ≤ i) (hNone : ∀ l, j < l → l ≤ i → g.topAt l = false) :
    g.block i = g.block j := by
  have hCount : Nat.count (g.topAt · = true) (i + 1) = Nat.count (g.topAt · = true) (j + 1) := by
    refine count_eq_of_none (by omega) ?_
    intro l hAfter hUpTo hTop
    have hLow := hNone l (by omega) (by omega)
    rw [hLow] at hTop
    cases hTop
  rw [block, block, hCount]

theorem block_mono (h : i ≤ j) : g.block i ≤ g.block j :=
  Nat.sub_le_sub_right (Nat.count_monotone _ (Nat.succ_le_succ h)) 1

/-- At a place where a block begins, its number is that of the node among the roots. -/
theorem roots_getElem?_block (hNode : g.nodes[i]? = some n) (hTop : n.parentId = g.containerId) :
    g.roots[g.block i]? = some n := by
  have hBefore : g.block i = (g.nodes.take i).countP fun n => n.parentId = g.containerId := by
    rw [block_of_top ((topAt_iff hNode).2 hTop), countP_take]
    rfl
  rw [hBefore]
  exact Index.filter_getElem?_countP hNode (by simpa using hTop)

/-! ## The block of a node -/

theorem InBlock.mem (h : g.InBlock r n) : n ∈ g.nodes := by
  cases h with
  | root hMem _ => exact hMem
  | child _ hMem _ => exact hMem

namespace InOrder

variable (hOrder : g.InOrder)

include hOrder

theorem eq_of_id (hn : n ∈ g.nodes) (hm : m ∈ g.nodes) (hId : n.id = m.id) : n = m :=
  List.inj_on_of_nodup_map hOrder.nodup hn hm hId

/-- An id stands at one place only. -/
theorem place_eq_of_id (hn : g.nodes[i]? = some n) (hm : g.nodes[j]? = some m)
    (hId : n.id = m.id) : i = j := by
  have hLt : i < (g.nodes.map (·.id)).length := by
    rw [List.length_map]
    exact (List.getElem?_eq_some_iff.1 hn).1
  refine (List.getElem?_inj hLt hOrder.nodup).1 ?_
  rw [List.getElem?_map, List.getElem?_map, hn, hm, Option.map_some, Option.map_some, hId]

theorem roots_nodup : g.roots.Nodup :=
  (List.Nodup.of_map _ hOrder.nodup).filter _

/-- A root has one number. -/
theorem roots_getElem?_iff {a b : Nat} (hRoot : g.roots[a]? = some r) :
    g.roots[b]? = some r ↔ b = a := by
  constructor
  · intro hSame
    have hLt := (List.getElem?_eq_some_iff.1 hSame).1
    exact (List.getElem?_inj hLt hOrder.roots_nodup).1 (hSame.trans hRoot.symm)
  · rintro rfl
    exact hRoot

/-- A node at the top is a block of its own. -/
theorem inBlock_top_iff (hTop : n.parentId = g.containerId) (hMem : n ∈ g.nodes) :
    g.InBlock r n ↔ n = r := by
  constructor
  · intro h
    cases h with
    | root _ _ => rfl
    | child hm _ hParent =>
        exact absurd (hParent.symm.trans hTop) (hOrder.ne_container _ hm.mem)
  · rintro rfl
    exact .root hMem hTop

/-- Any other node lies in the block of its parent. -/
theorem inBlock_below_iff (hParent : n.parentId = m.id) (hn : n ∈ g.nodes) (hm : m ∈ g.nodes) :
    g.InBlock r n ↔ g.InBlock r m := by
  constructor
  · intro h
    cases h with
    | root _ hTop =>
        exact absurd (hParent.symm.trans hTop) (hOrder.ne_container m hm)
    | child hm' _ hParent' =>
        rw [hOrder.eq_of_id hm hm'.mem (hParent.symm.trans hParent')]
        exact hm'
  · intro h
    exact .child h hn hParent

/-- A node lies in the block that has begun last and in no other. -/
theorem inBlock_iff (hNode : g.nodes[i]? = some n) :
    g.InBlock r n ↔ g.roots[g.block i]? = some r := by
  -- Parents stand earlier, so the induction is on the place of the node.
  induction i using Nat.strong_induction_on generalizing n with
  | _ i ih =>
      have hMem : n ∈ g.nodes := List.mem_of_getElem? hNode
      by_cases hTop : n.parentId = g.containerId
      · rw [hOrder.inBlock_top_iff hTop hMem, roots_getElem?_block hNode hTop, Option.some.injEq]
      · obtain ⟨j, m, hj, hParentNode, hParent, hNone⟩ := hOrder.parent i n hNode hTop
        rw [hOrder.inBlock_below_iff hParent hMem (List.mem_of_getElem? hParentNode),
          ih j hj hParentNode, block_eq_of_none (Nat.le_of_lt hj) hNone]

/-- Every node lies in one block, and this has the number of the block that has begun last. -/
theorem exists_block (hNode : g.nodes[i]? = some n) :
    ∃ r, (∀ r', g.InBlock r' n ↔ r' = r) ∧ ∀ b, g.roots[b]? = some r ↔ b = g.block i := by
  have hRoot : ∃ r, g.roots[g.block i]? = some r := by
    induction i using Nat.strong_induction_on generalizing n with
    | _ i ih =>
        by_cases hTop : n.parentId = g.containerId
        · exact ⟨n, roots_getElem?_block hNode hTop⟩
        · obtain ⟨j, m, hj, hParentNode, _, hNone⟩ := hOrder.parent i n hNode hTop
          rw [block_eq_of_none (Nat.le_of_lt hj) hNone]
          exact ih j hj hParentNode
  obtain ⟨r, hRoot⟩ := hRoot
  refine ⟨r, ?_, fun b => hOrder.roots_getElem?_iff hRoot⟩
  intro r'
  rw [hOrder.inBlock_iff hNode, hRoot, Option.some.injEq]
  exact eq_comm

/-- Two nodes lie in the same block exactly when the numbers of their blocks agree. -/
theorem inBlock_iff_block_eq (hBlock : g.InBlock r n) (hn : g.nodes[i]? = some n)
    (hm : g.nodes[j]? = some m) : g.InBlock r m ↔ g.block j = g.block i := by
  rw [hOrder.inBlock_iff hm]
  exact hOrder.roots_getElem?_iff ((hOrder.inBlock_iff hn).1 hBlock)

end InOrder

end Graph

/-! ## Compiled content -/

/-- Compiled content is in order. -/
theorem compile_inOrder {s : Settings} {ids : Nat → String} {t : Tree}
    (hFresh : FreshIds s ids t) : (compile s ids t).InOrder where
  nodup := nodup_ids hFresh
  ne_container := by
    intro n hMem
    obtain ⟨i, hNode⟩ := List.getElem?_of_mem hMem
    obtain ⟨r, hRow, _, rfl⟩ := row_of_node hNode
    rw [rowNode, Kept.node_id]
    exact hFresh.ne_container _ (number_lt_idsDrawn s ids (List.mem_of_getElem? hRow))
  parent := by
    intro i n hNode hLow
    obtain ⟨r, hRow, hNumber, rfl⟩ := row_of_node hNode
    have hMem : r ∈ layout t := List.mem_of_getElem? hRow
    rw [rowNode, Kept.node_parentId] at hLow ⊢
    have hParentLow : r.parent ≠ none := by
      intro hTop
      rw [hTop] at hLow
      exact hLow rfl
    obtain ⟨q, m, hParent, hLt, hEarlier, hId⟩ := parent_of_row s ids hMem hParentLow
    refine ⟨q, m, by omega, hEarlier, hId.symm, ?_⟩
    intro l hAfter hUpTo
    cases hBetween : (compile s ids t).nodes[l]? with
    | none => simp [Graph.topAt, hBetween]
    | some c =>
        obtain ⟨r', hRow', hNumber', rfl⟩ := row_of_node hBetween
        have hMem' : r' ∈ layout t := List.mem_of_getElem? hRow'
        have hNotTop : r'.parent ≠ none :=
          Forest.rows_parent_between (fun _ h => by cases h) hMem hMem' hParent hParentLow
            (by omega) (by omega)
        refine Bool.eq_false_iff.2 ?_
        intro hTop
        have hContainer := (Graph.topAt_iff hBetween).1 hTop
        rw [rowNode, Kept.node_parentId] at hContainer
        exact hNotTop ((parentName_eq_iff hFresh hMem' fun _ h => by cases h).1 hContainer)

end PaneEngine.Pane
