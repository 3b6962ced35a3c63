import Mathlib.Data.Set.Function
import PaneEngine.Proofs.Pane.Occurrence

/-!
# Ids are names

A compilation hands the ids that it draws on to nodes and compares them only
when it indexes the nodes by their parents.  So two compilations of a tree that
draw from different sources differ by a renaming, as long as neither source
names two nodes alike or a node like the container.

Flattening compares no ids: it commutes with every renaming that leaves the
container its name.  Only the index needs a renaming that keeps ids apart.

## Main definitions

* `Node.rename`, `Graph.rename`, `Index.rename` — content and index under other ids;
* `exchange` — each id of a source becomes the id that another source draws at its turn.

## Main results

* `compile_rename` — flattening commutes with renaming;
* `Index.ofGraph_rename` — indexing commutes with renaming where ids stay apart;
* `compile_id_independent` — compilations with different ids differ by a renaming.
-/

namespace PaneEngine.Pane

/-! ## Renaming -/

/-- A node under another id, below a parent under another id. -/
def Node.rename (f : String → String) (n : Node) : Node :=
  { n with id := f n.id, parentId := f n.parentId }

/-- Content whose nodes have other ids. -/
def Graph.rename (f : String → String) (g : Graph) : Graph :=
  { g with nodes := g.nodes.map (Node.rename f) }

/-- The position of a node under another id. -/
def Position.rename (f : String → String) (p : Position) : Position :=
  { p with nodeId := f p.nodeId }

namespace Index

/-- An index of nodes that have other ids. -/
def rename (f : String → String) (x : Index) : Index :=
  { x with
    images := x.images.map (Position.rename f)
    listItems := x.listItems.map (Position.rename f)
    codeItems := x.codeItems.map (Position.rename f)
    links := x.links.map (Position.rename f) }

/-- A partly built index of nodes that have other ids. -/
def Building.rename (f : String → String) (b : Building) : Building :=
  ⟨b.index.rename f, b.blocks, b.blockOf.map fun e => (f e.1, e.2)⟩

end Index

/-- Each of the first ids of a source becomes the id that the other source draws at its turn; other
ids stay. -/
def exchange (ids ids' : Nat → String) : Nat → String → String
  | 0, id => id
  | n + 1, id => if id = ids n then ids' n else exchange ids ids' n id

theorem exchange_of_ne {ids ids' : Nat → String} {n : Nat} {id : String}
    (h : ∀ i, i < n → ids i ≠ id) : exchange ids ids' n id = id := by
  induction n with
  | zero => rfl
  | succ n ih =>
      rw [exchange, if_neg fun hEq => h n (Nat.lt_succ_self n) hEq.symm]
      exact ih fun i hi => h i (Nat.lt_succ_of_lt hi)

theorem exchange_at {ids ids' : Nat → String} {n : Nat}
    (hDistinct : ∀ i j, i < n → j < n → ids i = ids j → i = j) {i : Nat} (hi : i < n) :
    exchange ids ids' n (ids i) = ids' i := by
  induction n with
  | zero => exact absurd hi (Nat.not_lt_zero i)
  | succ n ih =>
      rw [exchange]
      by_cases hEq : ids i = ids n
      · rw [if_pos hEq, hDistinct i n hi (Nat.lt_succ_self n) hEq]
      · have hLt : i < n := by
          have hNe : i ≠ n := fun hEq' => hEq (hEq' ▸ rfl)
          omega
        rw [if_neg hEq]
        exact ih (fun a b ha hb => hDistinct a b (by omega) (by omega)) hLt

/-! ## Flattening -/

theorem withCode_rename (f : String → String) (children : List Tree) (n : Node) :
    withCode children (n.rename f) = (withCode children n).rename f := by
  unfold withCode
  split <;> rfl

theorem withImage_rename (f : String → String) (s : Settings) (src alt : Option String)
    (n : Node) : withImage s src alt (n.rename f) = (withImage s src alt n).rename f := by
  unfold withImage
  split <;> rfl

theorem withLink_rename (f : String → String) (s : Settings) (href : Option String) (n : Node) :
    withLink s href (n.rename f) = (withLink s href n).rename f := by
  unfold withLink
  split
  · rfl
  · split <;> rfl

/-- The ids of a node do not enter its other fields. -/
theorem Kept.node_rename (f : String → String) (s : Settings) (id p : String)
    (style : Style.Resolved) (k : Kept) :
    k.node s (f id) (f p) style = (k.node s id p style).rename f := by
  cases k with
  | text value => rfl
  | element tag properties children =>
      have hFrame : { Node.bare (f id) (f p) tag with
            css := style.css, overrides := style.overrides } =
          (frameNode id p tag style).rename f := rfl
      simp only [Kept.node, elementNode, hFrame, withCode_rename, withImage_rename,
        withLink_rename, apply_ite (Node.rename f)]
      rfl

theorem parentName_rename {f : String → String} {s : Settings} {ids ids' : Nat → String}
    {p : Option Nat} (hContainer : f s.containerId = s.containerId)
    (hp : ∀ q, p = some q → f (ids q) = ids' q) :
    f (parentName s ids p) = parentName s ids' p := by
  cases p with
  | none => exact hContainer
  | some q => exact hp q rfl

/-- Rows give the same nodes under other ids. -/
theorem nodesBehind_rename {f : String → String} {s : Settings} {ids ids' : Nat → String}
    (before : List (Row Kept)) {rs : List (Row Kept)}
    (hNumber : ∀ r ∈ rs, f (ids r.number) = ids' r.number)
    (hParent : ∀ r ∈ rs, f (parentName s ids r.parent) = parentName s ids' r.parent) :
    nodesBehind s ids' before rs = (nodesBehind s ids before rs).map (Node.rename f) := by
  induction rs generalizing before with
  | nil => rfl
  | cons r rs ih =>
      have hNode := Kept.node_rename f s (ids r.number) (parentName s ids r.parent)
        (styleBehind s before r.label.tag) r.label
      rw [hNumber r List.mem_cons_self, hParent r List.mem_cons_self] at hNode
      rw [nodesBehind, nodesBehind, List.map_cons, rowNode, rowNode, hNode,
        ih (before ++ [r]) (fun r' h => hNumber r' (List.mem_cons_of_mem r h))
          fun r' h => hParent r' (List.mem_cons_of_mem r h)]

/-- **Flattening commutes with renaming.**  It compares no ids, so nothing is asked of them but that
the container keeps its name. -/
theorem compile_rename {f : String → String} {s : Settings} {ids ids' : Nat → String} {t : Tree}
    (hContainer : f s.containerId = s.containerId)
    (hIds : ∀ i, i < idsDrawn s ids t → f (ids i) = ids' i) :
    compile s ids' t = (compile s ids t).rename f := by
  have hNodes : (compile s ids' t).nodes = (compile s ids t).nodes.map (Node.rename f) := by
    rw [compile_nodes, compile_nodes]
    refine nodesBehind_rename [] ?_ ?_
    · intro r hMem
      exact hIds r.number (number_lt_idsDrawn s ids hMem)
    · intro r hMem
      refine parentName_rename hContainer ?_
      intro q hq
      have hNumber := number_lt_idsDrawn s ids hMem
      obtain ⟨q', hq', _, hLt⟩ :=
        (Forest.rows_parent_lt hMem).resolve_left fun hTop => by simp [hTop] at hq
      have hSame : q' = q := Option.some.inj (hq'.symm.trans hq)
      exact hIds q (by omega)
  exact congrArg (Graph.mk s.containerId) hNodes

/-! ## Indexing -/

namespace Index

theorem table_rename (f : String → String) (x : Index) (k : IndexKind) :
    (x.rename f).table k = (x.table k).map (Position.rename f) := by
  cases k <;> rfl

theorem push_rename (f : String → String) (x : Index) (k : IndexKind) (p : Position) :
    (x.rename f).push k (p.rename f) = (x.push k p).rename f := by
  cases k <;> simp [push, rename]

theorem addTarget_rename (f : String → String) (x : Index) (target : String) (i : Nat) :
    (x.rename f).addTarget target i = (x.addTarget target i).rename f := rfl

/-- Where a node is entered depends on its fields other than its ids. -/
theorem addNode_rename (f : String → String) (x : Index) (block : Nat) (n : Node) :
    (x.rename f).addNode block (n.rename f) = (x.addNode block n).rename f := by
  unfold addNode
  have hKind : IndexKind.of? (n.rename f) = IndexKind.of? n := rfl
  have hTarget : linkTarget? (n.rename f) = linkTarget? n := rfl
  rw [hKind, hTarget]
  cases IndexKind.of? n with
  | none => rfl
  | some kind =>
      have hNth : (((x.rename f).table kind).filter fun p => p.parentNth = block).length =
          ((x.table kind).filter fun p => p.parentNth = block).length := by
        rw [table_rename, List.filter_map, List.length_map]
        rfl
      have hPush := push_rename f x kind
        ⟨n.id, block, ((x.table kind).filter fun p => p.parentNth = block).length⟩
      have hLength : ((x.rename f).table kind).length = (x.table kind).length := by
        rw [table_rename, List.length_map]
      simp only [hNth, hLength]
      by_cases hLink : kind = .link
      · rw [if_pos hLink, if_pos hLink]
        cases linkTarget? n with
        | none => exact hPush
        | some target =>
            have hAdd := congrArg (fun y : Index => y.addTarget target (x.table kind).length) hPush
            exact hAdd.trans (addTarget_rename f _ target _)
      · rw [if_neg hLink, if_neg hLink]
        exact hPush

/-- A block is found under the new name of its node if no other node has come by that name. -/
theorem lookup_rename {f : String → String} {key : String} {l : List (String × Nat)}
    (h : ∀ e ∈ l, f key = f e.1 → key = e.1) :
    (l.map fun e => (f e.1, e.2)).lookup (f key) = l.lookup key := by
  induction l with
  | nil => rfl
  | cons e l ih =>
      have hRest := ih fun e' he' => h e' (List.mem_cons_of_mem e he')
      rw [List.map_cons, Dict.lookup_cons_eq_if, Dict.lookup_cons_eq_if, hRest]
      by_cases hEq : key = e.1
      · rw [if_pos hEq, if_pos (congrArg f hEq)]
      · rw [if_neg hEq, if_neg fun hSame => hEq (h e List.mem_cons_self hSame)]

variable {f : String → String} {c : String} {names : Set String}

/-- One step of the pass over the nodes, among names that the renaming keeps apart. -/
theorem step_rename (hApart : Set.InjOn f names) (hMem : c ∈ names) (hContainer : f c = c)
    {b : Building} (hKnown : ∀ e ∈ b.blockOf, e.1 ∈ names) {n : Node}
    (hParent : n.parentId ∈ names) :
    (b.rename f).step c (n.rename f) = (b.step c n).rename f := by
  have hTop : (n.rename f).parentId = c ↔ n.parentId = c := by
    constructor
    · intro h
      exact hApart hParent hMem (h.trans hContainer.symm)
    · intro h
      exact (congrArg f h).trans hContainer
  have hLookup : (b.rename f).blockOf.lookup (n.rename f).parentId =
      b.blockOf.lookup n.parentId :=
    lookup_rename fun e he hSame => hApart hParent (hKnown e he) hSame
  unfold Building.step
  simp only [hTop, hLookup]
  by_cases hRoot : n.parentId = c
  · simp only [if_pos hRoot]
    simp only [Building.rename, addNode_rename, List.map_cons]
    rfl
  · simp only [if_neg hRoot]
    cases b.blockOf.lookup n.parentId with
    | none => rfl
    | some block =>
        simp only [Option.map_some, Building.rename, addNode_rename, List.map_cons]
        rfl

theorem blockOf_step {b : Building} {n : Node} (hKnown : ∀ e ∈ b.blockOf, e.1 ∈ names)
    (hId : n.id ∈ names) : ∀ e ∈ (b.step c n).blockOf, e.1 ∈ names := by
  unfold Building.step
  simp only
  split
  · exact hKnown
  · exact List.forall_mem_cons.2 ⟨hId, hKnown⟩

theorem foldl_step_rename (hApart : Set.InjOn f names) (hMem : c ∈ names) (hContainer : f c = c)
    {ns : List Node} (hNodes : ∀ n ∈ ns, n.id ∈ names ∧ n.parentId ∈ names) {b : Building}
    (hKnown : ∀ e ∈ b.blockOf, e.1 ∈ names) :
    (ns.map (Node.rename f)).foldl (Building.step c) (b.rename f) =
      (ns.foldl (Building.step c) b).rename f := by
  induction ns generalizing b with
  | nil => rfl
  | cons n ns ih =>
      obtain ⟨hHead, hRest⟩ := List.forall_mem_cons.1 hNodes
      rw [List.map_cons, List.foldl_cons, List.foldl_cons,
        step_rename hApart hMem hContainer hKnown hHead.2]
      exact ih hRest (blockOf_step hKnown hHead.1)

/-- **Indexing commutes with renaming** where the renaming keeps the container its name and the ids
apart. -/
theorem ofGraph_rename {g : Graph} (hApart : Set.InjOn f names) (hMem : g.containerId ∈ names)
    (hContainer : f g.containerId = g.containerId)
    (hNodes : ∀ n ∈ g.nodes, n.id ∈ names ∧ n.parentId ∈ names) :
    ofGraph (g.rename f) = (ofGraph g).rename f :=
  congrArg Building.index
    (foldl_step_rename (b := ⟨empty, 0, []⟩) hApart hMem hContainer hNodes fun _ h => by cases h)

end Index

/-! ## Two sources of ids -/

/-- The names in compiled content: the container and the ids that were drawn. -/
def namesOf (s : Settings) (ids : Nat → String) (t : Tree) : Set String :=
  {name | name = s.containerId ∨ ∃ i, i < idsDrawn s ids t ∧ name = ids i}

theorem mem_namesOf (s : Settings) (ids : Nat → String) (t : Tree) :
    ∀ n ∈ (compile s ids t).nodes, n.id ∈ namesOf s ids t ∧ n.parentId ∈ namesOf s ids t := by
  intro n hMem
  obtain ⟨i, hNode⟩ := List.getElem?_of_mem hMem
  obtain ⟨r, hRow, _, rfl⟩ := row_of_node hNode
  have hLayout : r ∈ layout t := List.mem_of_getElem? hRow
  have hNumber := number_lt_idsDrawn s ids hLayout
  rw [rowNode, Kept.node_id, Kept.node_parentId]
  refine ⟨.inr ⟨r.number, hNumber, rfl⟩, ?_⟩
  rcases Forest.rows_parent_lt hLayout with hTop | ⟨q, hq, _, hLt⟩
  · rw [hTop]
    exact .inl rfl
  · rw [hq]
    exact .inr ⟨q, by omega, rfl⟩

/-- An exchange between two sources keeps the names in compiled content apart. -/
theorem injOn_namesOf {f : String → String} {s : Settings} {ids ids' : Nat → String} {t : Tree}
    (hFresh' : FreshIds s ids' t) (hContainer : f s.containerId = s.containerId)
    (hIds : ∀ i, i < idsDrawn s ids t → f (ids i) = ids' i)
    (hDrawn : idsDrawn s ids' t = idsDrawn s ids t) : Set.InjOn f (namesOf s ids t) := by
  rintro a (rfl | ⟨i, hi, rfl⟩) b (rfl | ⟨j, hj, rfl⟩) hSame
  · rfl
  · rw [hContainer, hIds j hj] at hSame
    exact absurd hSame.symm (hFresh'.ne_container j (hDrawn ▸ hj))
  · rw [hContainer, hIds i hi] at hSame
    exact absurd hSame (hFresh'.ne_container i (hDrawn ▸ hi))
  · rw [hIds i hi, hIds j hj] at hSame
    rw [hFresh'.distinct i j (hDrawn ▸ hi) (hDrawn ▸ hj) hSame]

/-- **Compilation does not depend on the ids.**  For all settings and trees and any two sources of
distinct ids, the two compilations have the same number of nodes, and the second is the first with
the i-th id of one source replaced by the i-th id of the other, in the ids of nodes and parents and
nowhere else.  The indexes differ by the same replacement. -/
theorem compile_id_independent (s : Settings) (ids ids' : Nat → String) (t : Tree)
    (hFresh : FreshIds s ids t) (hFresh' : FreshIds s ids' t) :
    let g := compile s ids t
    let g' := compile s ids' t
    let f := exchange ids ids' g.nodes.length
    (∀ i, i < g.nodes.length → f (ids i) = ids' i) ∧ f s.containerId = s.containerId ∧
      g'.nodes.length = g.nodes.length ∧ g' = g.rename f ∧
      Index.ofGraph g' = (Index.ofGraph g).rename f := by
  intro g g' f
  have hCount : idsDrawn s ids t = g.nodes.length := idsDrawn_eq_length s ids t
  have hDrawn : idsDrawn s ids' t = idsDrawn s ids t := by
    rw [idsDrawn_eq_length, idsDrawn_eq_length, length_compile, length_compile]
  have hIds : ∀ i, i < g.nodes.length → f (ids i) = ids' i := by
    intro i hi
    exact exchange_at (hCount ▸ hFresh.distinct) hi
  have hContainer : f s.containerId = s.containerId :=
    exchange_of_ne (hCount ▸ hFresh.ne_container)
  have hRename : g' = g.rename f := compile_rename hContainer (hCount ▸ hIds)
  have hApart : Set.InjOn f (namesOf s ids t) :=
    injOn_namesOf hFresh' hContainer (hCount ▸ hIds) hDrawn
  refine ⟨hIds, hContainer, ?_, hRename, ?_⟩
  · rw [length_compile, length_compile]
  · rw [hRename]
    exact Index.ofGraph_rename hApart (.inl rfl) hContainer (mem_namesOf s ids t)

/-- The ids of the one source are those of the other one place on, so that no id may be replaced
twice. -/
theorem compile_id_independent_shifted :
    let g := compile plainSettings (sequentialIds "n") nestedList
    let g' := compile plainSettings (fun i => sequentialIds "n" (i + 1)) nestedList
    FreshIds plainSettings (sequentialIds "n") nestedList ∧
      FreshIds plainSettings (fun i => sequentialIds "n" (i + 1)) nestedList ∧
      g'.nodes.length = g.nodes.length ∧
      g' = g.rename (exchange (sequentialIds "n") (fun i => sequentialIds "n" (i + 1)) 6) ∧
      (Index.ofGraph g').links.map (·.nodeId) = [sequentialIds "n" 3] := by
  intro g g'
  have hFresh := freshIds_markdown (s := plainSettings) rfl nestedList
  have hFresh' : FreshIds plainSettings (fun i => sequentialIds "n" (i + 1)) nestedList := by
    constructor
    · intro i j _ _ hSame
      exact Nat.succ_injective (sequentialIds_injective "n" hSame)
    · intro i _ hSame
      have hChars := congrArg (fun text => text.toList.head?) hSame
      simp [sequentialIds, plainSettings] at hChars
  have hLength : g.nodes.length = 6 := rfl
  obtain ⟨hIds, _, hCount, hRename, hIndex⟩ :=
    compile_id_independent plainSettings _ _ nestedList hFresh hFresh'
  rw [hLength] at hIds
  refine ⟨hFresh, hFresh', hCount, hRename, ?_⟩
  rw [hIndex]
  exact congrArg (fun id => [id]) (hIds 2 (by omega))

end PaneEngine.Pane
