import PaneEngine.Proofs.Pane.Block

/-!
# The positional index is exact

The index keeps the block of each node it has met and gives a node below
another the block of that one.  In compiled content this is the block that has
begun last, so what the index holds at a place is a count of earlier places:
blocks, nodes of a kind, and nodes of a kind in one block.

## Main definitions

* `Graph.position` — the position of a node by counts of earlier places;
* `Tabled`, `Built` — what a table and an index hold at a place.

## Main results

* `built_step`, `built_foldl` — what one node and the nodes before a place leave;
* `get?_iff` — the positions of a kind;
* `index_exact` — the index lists the nodes of each kind, with exact positions and look-ups.
-/

namespace PaneEngine.Pane

namespace Graph

/-- Whether the node at a place is of a kind. -/
def kindAt (g : Graph) (k : IndexKind) (i : Nat) : Bool :=
  g.nodes[i]?.any fun n => IndexKind.of? n = some k

/-- How many nodes of a kind stand before a place in the block with that number. -/
def nthIn (g : Graph) (k : IndexKind) (block i : Nat) : Nat :=
  Nat.count (fun j => g.kindAt k j = true ∧ g.block j = block) i

def position (g : Graph) (k : IndexKind) (i : Nat) (n : Node) : Position :=
  ⟨n.id, g.block i, g.nthIn k (g.block i) i⟩

theorem kindAt_iff {g : Graph} {k : IndexKind} {i : Nat} {n : Node} (h : g.nodes[i]? = some n) :
    g.kindAt k i = true ↔ IndexKind.of? n = some k := by
  simp [kindAt, h]

/-- Positions of a kind increase lexicographically. -/
theorem position_lt {g : Graph} {k : IndexKind} {i j : Nat} {n m : Node}
    (hKind : g.kindAt k i = true) (hLt : i < j) :
    g.block i < g.block j ∨ g.block i = g.block j ∧
      (g.position k i n).childNth < (g.position k j m).childNth := by
  rcases Nat.lt_or_eq_of_le (g.block_mono (Nat.le_of_lt hLt)) with hBlock | hBlock
  · exact .inl hBlock
  · refine .inr ⟨hBlock, ?_⟩
    show g.nthIn k (g.block i) i < g.nthIn k (g.block j) j
    rw [← hBlock]
    exact Nat.count_strict_mono ⟨hKind, rfl⟩ hLt

end Graph

namespace Index

variable {g : Graph} {k : IndexKind}

/-! ## Tables -/

/-- What a table holds after the nodes before a place.  `inBlock` is what the index counts to number
the next node of the kind in its block. -/
structure Tabled (g : Graph) (k : IndexKind) (i : Nat) (ps : List Position) : Prop where
  length : ps.length = Nat.count (g.kindAt k · = true) i
  inBlock : ∀ a, (ps.countP fun p => p.parentNth = a) = g.nthIn k a i
  entry : ∀ j n, j < i → g.nodes[j]? = some n → IndexKind.of? n = some k →
    ps[Nat.count (g.kindAt k · = true) j]? = some (g.position k j n)

theorem tabled_nil (g : Graph) (k : IndexKind) : Tabled g k 0 [] where
  length := by simp
  inBlock := by simp [Graph.nthIn]
  entry := by
    intro j n hj
    exact absurd hj (Nat.not_lt_zero j)

/-- A node of another kind leaves the table as it is. -/
theorem tabled_skip {i : Nat} {ps : List Position} {n : Node} (h : Tabled g k i ps)
    (hNode : g.nodes[i]? = some n) (hKind : IndexKind.of? n ≠ some k) : Tabled g k (i + 1) ps := by
  have hHere : ¬ g.kindAt k i = true := fun hAt => hKind ((Graph.kindAt_iff hNode).1 hAt)
  refine ⟨?_, ?_, ?_⟩
  · rw [h.length, Nat.count_succ, if_neg hHere, Nat.add_zero]
  · intro a
    rw [h.inBlock, Graph.nthIn, Graph.nthIn, Nat.count_succ, if_neg fun hAt => hHere hAt.1,
      Nat.add_zero]
  · intro j m hj hm hKind'
    rcases Nat.lt_succ_iff_lt_or_eq.1 hj with hj | rfl
    · exact h.entry j m hj hm hKind'
    · rw [hNode] at hm
      cases hm
      exact absurd hKind' hKind

/-- A node of the kind takes the next number. -/
theorem tabled_concat {i : Nat} {ps : List Position} {n : Node} (h : Tabled g k i ps)
    (hNode : g.nodes[i]? = some n) (hKind : IndexKind.of? n = some k) :
    Tabled g k (i + 1) (ps ++ [g.position k i n]) := by
  have hHere : g.kindAt k i = true := (Graph.kindAt_iff hNode).2 hKind
  refine ⟨?_, ?_, ?_⟩
  · rw [List.length_append, h.length, Nat.count_succ, if_pos hHere]
    rfl
  · intro a
    rw [List.countP_append, h.inBlock, Graph.nthIn, Graph.nthIn, Nat.count_succ]
    by_cases hBlock : g.block i = a
    · rw [if_pos ⟨hHere, hBlock⟩]
      simp [Graph.position, hBlock]
    · rw [if_neg fun hAt => hBlock hAt.2]
      simp [Graph.position, hBlock]
  · intro j m hj hm hKind'
    rcases Nat.lt_succ_iff_lt_or_eq.1 hj with hj | rfl
    · have hBefore : Nat.count (g.kindAt k · = true) j < ps.length := by
        rw [h.length]
        exact Nat.count_strict_mono ((Graph.kindAt_iff hm).2 hKind') hj
      rw [List.getElem?_append_left hBefore]
      exact h.entry j m hj hm hKind'
    · rw [hNode] at hm
      cases hm
      rw [← h.length, List.getElem?_concat_length]

/-! ## Building -/

/-- What an index holds after the nodes before a place. -/
structure Built (g : Graph) (i : Nat) (b : Building) : Prop where
  blocks : b.blocks = Nat.count (g.topAt · = true) i
  blockOf : ∀ j n, j < i → g.nodes[j]? = some n → b.blockOf.lookup n.id = some (g.block j)
  tabled : ∀ k, Tabled g k i (b.index.table k)

theorem built_empty (g : Graph) : Built g 0 ⟨empty, 0, []⟩ where
  blocks := by simp
  blockOf := by
    intro j n hj
    exact absurd hj (Nat.not_lt_zero j)
  tabled := by
    intro k
    cases k <;> exact tabled_nil g _

section

variable (hOrder : g.InOrder)

include hOrder

/-- A node enters the block that has begun last. -/
theorem step_eq {i : Nat} {b : Building} {n : Node} (h : Built g i b)
    (hNode : g.nodes[i]? = some n) :
    b.step g.containerId n = ⟨b.index.addNode (g.block i) n,
      Nat.count (g.topAt · = true) (i + 1), (n.id, g.block i) :: b.blockOf⟩ := by
  unfold Building.step
  by_cases hTop : n.parentId = g.containerId
  · have hHere := (Graph.topAt_iff hNode).2 hTop
    rw [if_pos hTop, h.blocks, Graph.block_of_top hHere, Nat.count_succ, if_pos hHere]
  · obtain ⟨j, m, hj, hm, hParent, hNone⟩ := hOrder.parent i n hNode hTop
    have hHere : ¬ g.topAt i = true := fun hAt => hTop ((Graph.topAt_iff hNode).1 hAt)
    rw [if_neg hTop, hParent, h.blockOf j m hj hm, h.blocks, Nat.count_succ, if_neg hHere,
      Graph.block_eq_of_none (Nat.le_of_lt hj) hNone]
    rfl

theorem built_step {i : Nat} {b : Building} {n : Node} (h : Built g i b)
    (hNode : g.nodes[i]? = some n) : Built g (i + 1) (b.step g.containerId n) := by
  rw [step_eq hOrder h hNode]
  refine ⟨rfl, ?_, ?_⟩
  · intro j m hj hm
    rcases Nat.lt_succ_iff_lt_or_eq.1 hj with hj | rfl
    · -- Ids are distinct, so the new entry hides none of the earlier ones.
      have hOther : m.id ≠ n.id := by
        intro hId
        have := hOrder.place_eq_of_id hm hNode hId
        omega
      rw [Dict.lookup_cons_eq_if, if_neg hOther]
      exact h.blockOf j m hj hm
    · rw [hNode] at hm
      cases hm
      rw [Dict.lookup_cons_eq_if, if_pos rfl]
  · intro k
    show Tabled g k (i + 1) ((b.index.addNode (g.block i) n).table k)
    rw [table_addNode, (h.tabled k).inBlock]
    by_cases hKind : IndexKind.of? n = some k
    · rw [if_pos hKind]
      exact tabled_concat (h.tabled k) hNode hKind
    · rw [if_neg hKind, List.append_nil]
      exact tabled_skip (h.tabled k) hNode hKind

/-- After the nodes before a place the index holds what stands before that place. -/
theorem built_foldl {i : Nat} (hi : i ≤ g.nodes.length) :
    Built g i ((g.nodes.take i).foldl (Building.step g.containerId) ⟨empty, 0, []⟩) := by
  induction i with
  | zero => exact built_empty g
  | succ i ih =>
      have hNode : g.nodes[i]? = some g.nodes[i] := List.getElem?_eq_getElem (by omega)
      rw [List.take_add_one, hNode, List.foldl_append]
      exact built_step hOrder (ih (by omega)) hNode

theorem tabled_ofGraph (k : IndexKind) : Tabled g k g.nodes.length ((ofGraph g).table k) := by
  have hBuilt := built_foldl hOrder (Nat.le_refl g.nodes.length)
  rw [List.take_length] at hBuilt
  exact hBuilt.tabled k

/-- The positions of a kind are those of the nodes of that kind, numbered in reading order. -/
theorem get?_iff {t : Nat} {p : Position} :
    (ofGraph g).get? k t = some p ↔
      ∃ i n, g.nodes[i]? = some n ∧ IndexKind.of? n = some k ∧
        Nat.count (g.kindAt k · = true) i = t ∧ g.position k i n = p := by
  have hTable := tabled_ofGraph hOrder k
  constructor
  · intro hGet
    have hLt := (List.getElem?_eq_some_iff.1 hGet).1
    rw [hTable.length] at hLt
    obtain ⟨i, hi, hHere, rfl⟩ := exists_count_eq hLt
    have hNode : g.nodes[i]? = some g.nodes[i] := List.getElem?_eq_getElem hi
    have hKind := (Graph.kindAt_iff hNode).1 hHere
    have hEntry := hTable.entry i _ hi hNode hKind
    exact ⟨i, _, hNode, hKind, rfl, Option.some.inj (hEntry.symm.trans hGet)⟩
  · rintro ⟨i, n, hNode, hKind, rfl, rfl⟩
    exact hTable.entry i n (List.getElem?_eq_some_iff.1 hNode).1 hNode hKind

/-! ## Look-ups -/

theorem get?_lt {i j : Nat} {p q : Position} (hLt : i < j) (hp : (ofGraph g).get? k i = some p)
    (hq : (ofGraph g).get? k j = some q) :
    p.parentNth < q.parentNth ∨ p.parentNth = q.parentNth ∧ p.childNth < q.childNth := by
  obtain ⟨a, n, hn, hKind, rfl, rfl⟩ := (get?_iff hOrder).1 hp
  obtain ⟨b, m, hm, _, rfl, rfl⟩ := (get?_iff hOrder).1 hq
  exact Graph.position_lt ((Graph.kindAt_iff hn).2 hKind) (Nat.lt_of_count_lt_count hLt)

/-- A number is found by its position and no other is. -/
theorem find?_eq_some_iff {a b i : Nat} :
    (ofGraph g).find? k a b = some i ↔
      ∃ p, (ofGraph g).get? k i = some p ∧ p.parentNth = a ∧ p.childNth = b := by
  unfold find? get?
  rw [findIdx?_eq_some_iff_of_unique]
  · simp
  · intro i j p q hp hq hpAt hqAt
    simp only [Bool.and_eq_true, decide_eq_true_eq] at hpAt hqAt
    rcases Nat.lt_trichotomy i j with hLt | hEq | hLt
    · have := get?_lt hOrder hLt hp hq
      omega
    · exact hEq
    · have := get?_lt hOrder hLt hq hp
      omega

open Classical in
/-- The number of a node in its block counts the nodes of its kind before it that lie there. -/
theorem nthIn_eq_countP {i : Nat} {n r : Node} (hNode : g.nodes[i]? = some n)
    (hBlock : g.InBlock r n) :
    g.nthIn k (g.block i) i =
      (g.nodes.take i).countP fun m => IndexKind.of? m = some k ∧ g.InBlock r m := by
  have hLength := (List.getElem?_eq_some_iff.1 hNode).1
  rw [countP_take]
  refine count_congr ?_
  intro j hj
  have hm : g.nodes[j]? = some g.nodes[j] := List.getElem?_eq_getElem (by omega)
  rw [hm, Option.any_some, decide_eq_true_eq, Graph.kindAt_iff hm,
    hOrder.inBlock_iff_block_eq hBlock hNode hm]

end

end Index

/-! ## The index of compiled content -/

open Classical in
/-- **The index is exact.**  For every tree, all fresh ids and each kind: the numbers of the index
run without a gap and name the nodes of the kind in reading order, so none is missing; the positions
increase lexicographically; each position tells which block at the top its node lies in and how
many nodes of the kind stand before it in that block; and the look-ups by position and by id are
inverse to the look-up by number. -/
theorem index_exact (s : Settings) (ids : Nat → String) (t : Tree) (hFresh : FreshIds s ids t)
    (k : IndexKind) :
    let g := compile s ids t
    let x := Index.ofGraph g
    let listed := g.nodes.filter fun n => IndexKind.of? n = some k
    (∀ i, (∃ p, x.get? k i = some p) ↔ i < listed.length) ∧
    (∀ i, (x.get? k i).map (·.nodeId) = listed[i]?.map (·.id)) ∧
    (∀ i j p q, i < j → x.get? k i = some p → x.get? k j = some q →
      p.parentNth < q.parentNth ∨ p.parentNth = q.parentNth ∧ p.childNth < q.childNth) ∧
    (∀ i p, x.get? k i = some p → ∃ place n r,
      g.nodes[place]? = some n ∧ n.id = p.nodeId ∧
        (∀ r', g.InBlock r' n ↔ r' = r) ∧ (∀ b, g.roots[b]? = some r ↔ b = p.parentNth) ∧
        p.childNth =
          (g.nodes.take place).countP fun m => IndexKind.of? m = some k ∧ g.InBlock r m) ∧
    (∀ a b i, x.find? k a b = some i ↔
      ∃ p, x.get? k i = some p ∧ p.parentNth = a ∧ p.childNth = b) ∧
    (∀ id i, x.occurrence? k id = some i ↔ ∃ p, x.get? k i = some p ∧ p.nodeId = id) ∧
    ∀ n ∈ g.nodes, IndexKind.of? n = some k → ∃ i, x.occurrence? k n.id = some i := by
  intro g x listed
  have hOrder : g.InOrder := compile_inOrder hFresh
  have hParents : Index.ParentsKnown g.containerId [] g.nodes := parentsKnown_compile s ids t
  have hIds := Index.get?_nodeId hParents k
  refine ⟨?_, hIds, fun _ _ _ _ => Index.get?_lt hOrder, ?_,
    fun _ _ _ => Index.find?_eq_some_iff hOrder,
    fun _ _ => Index.occurrence?_eq_some_iff hParents hOrder.nodup, ?_⟩
  · intro i
    rw [← Option.isSome_iff_exists, ← Option.isSome_map, hIds, Option.isSome_map,
      Option.isSome_iff_exists]
    exact ⟨fun ⟨_, h⟩ => (List.getElem?_eq_some_iff.1 h).1,
      fun h => ⟨_, List.getElem?_eq_getElem h⟩⟩
  · intro i p hp
    obtain ⟨place, n, hNode, _, _, rfl⟩ := (Index.get?_iff hOrder).1 hp
    obtain ⟨r, hBlock, hRoot⟩ := hOrder.exists_block hNode
    exact ⟨place, n, r, hNode, rfl, hBlock, hRoot,
      Index.nthIn_eq_countP hOrder hNode ((hBlock r).2 rfl)⟩
  · intro n hMem hKind
    obtain ⟨place, hNode⟩ := List.getElem?_of_mem hMem
    exact ⟨_, (Index.occurrence?_of_filter hParents hOrder.nodup hNode hKind).1⟩

/-- Two lists, the first with two links in one item and code in the other. -/
def twoLists : Tree :=
  let link (text : String) : Tree := .element (some "a") .empty [.text text]
  .root
    [.element (some "ul") .empty
      [.element (some "li") .empty [link "x", link "y"],
        .element (some "li") .empty [.element (some "code") .empty [.text "z"]]],
      .element (some "ul") .empty [.element (some "li") .empty [link "w"]]]

/-- The third link is the first in the second list. -/
theorem index_exact_twoLists :
    let g := compile plainSettings (sequentialIds "n") twoLists
    let x := Index.ofGraph g
    FreshIds plainSettings (sequentialIds "n") twoLists ∧
      x.get? .link 2 = some ⟨"n-10", 1, 0⟩ ∧ x.find? .link 1 0 = some 2 ∧
      x.occurrence? .link "n-10" = some 2 ∧
      ∃ n r, n.id = "n-10" ∧ g.roots[1]? = some r ∧ g.InBlock r n := by
  intro g x
  have hFresh := freshIds_markdown (s := plainSettings) rfl twoLists
  have hGet : x.get? .link 2 = some ⟨"n-10", 1, 0⟩ := by decide +kernel
  obtain ⟨_, _, _, hEntry, hFind, hOccurrence, _⟩ :=
    index_exact plainSettings (sequentialIds "n") twoLists hFresh .link
  obtain ⟨_, n, r, _, hId, hBlock, hRoot, _⟩ := hEntry 2 _ hGet
  exact ⟨hFresh, hGet, (hFind 1 0 2).2 ⟨_, hGet, rfl, rfl⟩, (hOccurrence _ 2).2 ⟨_, hGet, rfl⟩,
    n, r, hId, (hRoot 1).2 rfl, (hBlock r).2 rfl⟩

end PaneEngine.Pane
