import PaneEngine.Pane.Index
import PaneEngine.Proofs.Dict

/-!
# What the positional index holds

The index is built by one pass over the nodes.  A node is passed over only if
its parent has not been met, so where parents stand before their children every
node of an indexed kind has its place, and the table of a kind lists the nodes
of that kind in order.

## Main definitions

* `ParentsKnown` — every node lies below the container or below an earlier node.

## Main results

* `table_addNode`, `get?_linksByTarget_addNode` — what a node adds to the tables and to the
  targets;
* `nodeIds_ofGraph` — the table of a kind lists the nodes of that kind;
* `occurrence?_eq_some_iff` — look-ups by id and by number are inverse to each other;
* `occurrence?_of_filter` — a node is found by its id at its own number.
-/

namespace PaneEngine.Pane

namespace Index

theorem table_push (x : Index) (k k' : IndexKind) (p : Position) :
    (x.push k p).table k' = x.table k' ++ if k' = k then [p] else [] := by
  cases k <;> cases k' <;> simp [push, table]

@[simp] theorem table_addTarget (x : Index) (target : String) (i : Nat) (k : IndexKind) :
    (x.addTarget target i).table k = x.table k := by
  cases k <;> rfl

/-- A node enters the table of its kind and no other. -/
theorem table_addNode (x : Index) (block : Nat) (n : Node) (k : IndexKind) :
    (x.addNode block n).table k = x.table k ++
      if IndexKind.of? n = some k then
        [⟨n.id, block, (x.table k).countP fun p => p.parentNth = block⟩] else [] := by
  unfold addNode
  cases hKind : IndexKind.of? n with
  | none => simp
  | some kind =>
      have hPush : (x.push kind ⟨n.id, block,
          ((x.table kind).filter fun p => p.parentNth = block).length⟩).table k = x.table k ++
            if some kind = some k then
              [⟨n.id, block, (x.table k).countP fun p => p.parentNth = block⟩] else [] := by
        rw [table_push, ← List.countP_eq_length_filter]
        by_cases hk : k = kind
        · rw [hk, if_pos rfl, if_pos rfl]
        · rw [if_neg hk, if_neg fun h => hk (Option.some.inj h).symm]
      simp only
      by_cases hLink : kind = .link
      · rw [if_pos hLink]
        cases hTarget : linkTarget? n with
        | none => exact hPush
        | some target =>
            rw [table_addTarget]
            exact hPush
      · rw [if_neg hLink]
        exact hPush

theorem nodeIds_addNode (x : Index) (block : Nat) (n : Node) (k : IndexKind) :
    ((x.addNode block n).table k).map (·.nodeId) =
      (x.table k).map (·.nodeId) ++ if IndexKind.of? n = some k then [n.id] else [] := by
  rw [table_addNode, List.map_append]
  split <;> rfl

theorem linksByTarget_push (x : Index) (k : IndexKind) (p : Position) :
    (x.push k p).linksByTarget = x.linksByTarget := by
  cases k <;> rfl

/-- A link with a target enters the list of that target, with the number it takes, and no other. -/
theorem get?_linksByTarget_addNode (x : Index) (block : Nat) (n : Node) (target : String) :
    (x.addNode block n).linksByTarget.get? target =
      if IndexKind.of? n = some .link ∧ linkTarget? n = some target then
        some (x.linksTo target ++ [x.links.length]) else x.linksByTarget.get? target := by
  unfold addNode
  cases hKind : IndexKind.of? n with
  | none => simp
  | some kind =>
      by_cases hLink : kind = .link
      · subst hLink
        cases hTarget : linkTarget? n with
        | none => simp [linksByTarget_push]
        | some key =>
            simp only [addTarget, linksByTarget_push, Dict.get?_insert, if_true,
              Option.some.injEq, true_and]
            by_cases hKey : target = key
            · rw [if_pos hKey, if_pos hKey.symm, hKey]
              rfl
            · rw [if_neg hKey, if_neg fun h => hKey h.symm]
      · simp only [linksByTarget_push, Option.some.injEq, hLink, false_and, if_false]

/-! ## The pass over the nodes -/

/-- Every node lies below the container, below a known node or below one before it. -/
def ParentsKnown (containerId : String) : List String → List Node → Prop
  | _, [] => True
  | known, n :: rest =>
    (n.parentId = containerId ∨ n.parentId ∈ known) ∧
      ParentsKnown containerId (n.id :: known) rest

theorem lookup_isSome_of_mem {l : List (String × Nat)} {key : String} (h : key ∈ l.map (·.1)) :
    ∃ block, l.lookup key = some block := by
  induction l with
  | nil => simp at h
  | cons e rest ih =>
      obtain ⟨key', block⟩ := e
      by_cases hEq : key = key'
      · exact ⟨block, by simp [hEq]⟩
      · have hRest : key ∈ rest.map (·.1) := by simpa [hEq] using h
        obtain ⟨block', hBlock⟩ := ih hRest
        have hBeq : (key == key') = false := by simpa using hEq
        exact ⟨block', by simpa [List.lookup_cons, hBeq] using hBlock⟩

/-- A node with a known parent is added, and its own block is noted. -/
theorem step_of_known {c : String} {b : Building} {n : Node}
    (h : n.parentId = c ∨ n.parentId ∈ b.blockOf.map (·.1)) :
    ∃ block blocks,
      b.step c n = ⟨b.index.addNode block n, blocks, (n.id, block) :: b.blockOf⟩ := by
  unfold Building.step
  by_cases hTop : n.parentId = c
  · exact ⟨b.blocks, b.blocks + 1, by simp [hTop]⟩
  · have hMem : n.parentId ∈ b.blockOf.map (·.1) := by
      rcases h with h | h
      · exact absurd h hTop
      · exact h
    obtain ⟨block, hBlock⟩ := lookup_isSome_of_mem hMem
    exact ⟨block, b.blocks, by simp [hTop, hBlock]⟩

theorem nodeIds_foldl_step {c : String} {ns : List Node} {b : Building}
    (h : ParentsKnown c (b.blockOf.map (·.1)) ns) (k : IndexKind) :
    ((ns.foldl (Building.step c) b).index.table k).map (·.nodeId) =
      (b.index.table k).map (·.nodeId) ++
        (ns.filter fun n => IndexKind.of? n = some k).map (·.id) := by
  induction ns generalizing b with
  | nil => simp
  | cons n rest ih =>
      obtain ⟨hParent, hRest⟩ := h
      obtain ⟨block, blocks, hStep⟩ := step_of_known hParent
      have hTail := ih (b := ⟨b.index.addNode block n, blocks, (n.id, block) :: b.blockOf⟩) hRest
      rw [List.foldl_cons, hStep, hTail, nodeIds_addNode, List.append_assoc, List.filter_cons]
      by_cases hKind : IndexKind.of? n = some k
      · simp [hKind]
      · simp [hKind]

/-- **The table of a kind lists the nodes of that kind in order.** -/
theorem nodeIds_ofGraph {g : Graph} (h : ParentsKnown g.containerId [] g.nodes) (k : IndexKind) :
    ((ofGraph g).table k).map (·.nodeId) =
      (g.nodes.filter fun n => IndexKind.of? n = some k).map (·.id) := by
  have hFold := nodeIds_foldl_step (b := ⟨empty, 0, []⟩) h k
  have hEmpty : empty.table k = [] := by cases k <;> rfl
  rw [hEmpty] at hFold
  exact hFold

/-- The number of a node is its number among the nodes of its kind. -/
theorem get?_nodeId {g : Graph} (h : ParentsKnown g.containerId [] g.nodes) (k : IndexKind)
    (i : Nat) : ((ofGraph g).get? k i).map (·.nodeId) =
      (g.nodes.filter fun n => IndexKind.of? n = some k)[i]?.map (·.id) := by
  have hTable := congrArg (fun ids => ids[i]?) (nodeIds_ofGraph h k)
  simpa only [get?, List.getElem?_map] using hTable

/-- Parents that stand before their children are known. -/
theorem parentsKnown_of_earlier {c : String} {ns : List Node} {known : List String}
    (h : ∀ (i : Nat) (n : Node), ns[i]? = some n → n.parentId = c ∨ n.parentId ∈ known ∨
      ∃ (j : Nat) (m : Node), j < i ∧ ns[j]? = some m ∧ m.id = n.parentId) :
    ParentsKnown c known ns := by
  induction ns generalizing known with
  | nil => trivial
  | cons n rest ih =>
      constructor
      · rcases h 0 n rfl with hTop | hKnown | ⟨j, m, hj, _⟩
        · exact .inl hTop
        · exact .inr hKnown
        · exact absurd hj (Nat.not_lt_zero j)
      · refine ih ?_
        intro i m hm
        rcases h (i + 1) m hm with hTop | hKnown | ⟨j, m', hj, hm', hId⟩
        · exact .inl hTop
        · exact .inr (.inl (List.mem_cons_of_mem _ hKnown))
        · cases j with
          | zero =>
              have hHead : n = m' := by simpa using hm'
              exact .inr (.inl (by simp [← hId, hHead]))
          | succ j => exact .inr (.inr ⟨j, m', by omega, hm', hId⟩)

/-! ## The number of a node -/

/-- Among those that satisfy a predicate, an element has the number of those before it. -/
theorem filter_getElem?_countP {α : Type} {p : α → Bool} {l : List α} {i : Nat} {a : α}
    (h : l[i]? = some a) (ha : p a = true) : (l.filter p)[(l.take i).countP p]? = some a := by
  induction l generalizing i with
  | nil => simp at h
  | cons x rest ih =>
      cases i with
      | zero =>
          have hHead : x = a := by simpa using h
          simp [hHead, ha]
      | succ i =>
          have hRest := ih (i := i) (by simpa using h)
          by_cases hx : p x = true
          · simpa [hx] using hRest
          · simpa [hx] using hRest

/-- Where a predicate holds of one element at most, its look-up is inverse to that at a place. -/
theorem findIdx?_eq_some_iff_of_unique {α : Type} {p : α → Bool} {l : List α}
    (hUnique : ∀ (i j : Nat) (a b : α),
      l[i]? = some a → l[j]? = some b → p a = true → p b = true → i = j)
    {i : Nat} : l.findIdx? p = some i ↔ ∃ a, l[i]? = some a ∧ p a = true := by
  rw [List.findIdx?_eq_some_iff_getElem]
  constructor
  · rintro ⟨hLt, hHere, _⟩
    exact ⟨l[i], List.getElem?_eq_getElem hLt, hHere⟩
  · rintro ⟨a, ha, hHere⟩
    obtain ⟨hLt, rfl⟩ := List.getElem?_eq_some_iff.1 ha
    refine ⟨hLt, hHere, ?_⟩
    intro j hj hEarlier
    have hSame := hUnique j i l[j] l[i] (List.getElem?_eq_getElem (by omega)) ha hEarlier hHere
    omega

/-- Where ids are distinct, the look-up of a node by its id is inverse to that by its number. -/
theorem occurrence?_eq_some_iff {g : Graph} (hParents : ParentsKnown g.containerId [] g.nodes)
    (hIds : (g.nodes.map (·.id)).Nodup) {k : IndexKind} {id : String} {i : Nat} :
    (ofGraph g).occurrence? k id = some i ↔
      ∃ p, (ofGraph g).get? k i = some p ∧ p.nodeId = id := by
  have hNodup : (((ofGraph g).table k).map (·.nodeId)).Nodup := by
    rw [nodeIds_ofGraph hParents]
    exact hIds.sublist (List.filter_sublist.map _)
  unfold occurrence? get?
  rw [findIdx?_eq_some_iff_of_unique]
  · simp
  · intro i j p q hp hq hpId hqId
    have hLt : i < (((ofGraph g).table k).map (·.nodeId)).length := by
      rw [List.length_map]
      exact (List.getElem?_eq_some_iff.1 hp).1
    refine (List.getElem?_inj hLt hNodup).1 ?_
    rw [List.getElem?_map, List.getElem?_map, hp, hq, Option.map_some, Option.map_some,
      of_decide_eq_true hpId, of_decide_eq_true hqId]

/-- Where ids are distinct, a node of a kind is found at the number of those before it. -/
theorem occurrence?_of_filter {g : Graph} (hParents : ParentsKnown g.containerId [] g.nodes)
    (hIds : (g.nodes.map (·.id)).Nodup) {k : IndexKind} {i : Nat} {n : Node}
    (hNode : g.nodes[i]? = some n) (hKind : IndexKind.of? n = some k) :
    let number := (g.nodes.take i).countP fun m => IndexKind.of? m = some k
    (ofGraph g).occurrence? k n.id = some number ∧
      ∃ p, (ofGraph g).get? k number = some p ∧ p.nodeId = n.id := by
  intro number
  have hAt : ((ofGraph g).get? k number).map (·.nodeId) = some n.id := by
    rw [get?_nodeId hParents, filter_getElem?_countP hNode (by simpa using hKind)]
    rfl
  obtain ⟨p, hp, hId⟩ := Option.map_eq_some_iff.1 hAt
  exact ⟨(occurrence?_eq_some_iff hParents hIds).2 ⟨p, hp, hId⟩, p, hp, hId⟩

end Index

end PaneEngine.Pane
