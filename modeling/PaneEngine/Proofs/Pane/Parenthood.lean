import PaneEngine.Proofs.Pane.Outline

/-!
# Parents and children of compiled nodes

A compiled node knows its parent by id only.  When the ids that a compilation
draws are distinct and none is the container's, these ids say exactly what the
numbers of the outline say, so the tree can be read back from the flat list.

## Main definitions

* `idsDrawn`, `FreshIds` — the ids that a compilation draws, and that they name its nodes;
* `outline` — the outline of a tree with its nodes numbered.

## Main results

* `sequentialIds_injective` — sequential ids are distinct;
* `compile_faithful` — compiled content is the pre-order listing of the outline, and parents and
  children are those of the outline.
-/

namespace PaneEngine.Pane

/-! ## Ids -/

/-- How many ids the compilation of a tree draws. -/
def idsDrawn (s : Settings) (ids : Nat → String) (t : Tree) : Nat :=
  (Flattening.visit s ids s.containerId .start t).drawn

/-- The ids that are drawn are pairwise distinct, and none is the container's. -/
structure FreshIds (s : Settings) (ids : Nat → String) (t : Tree) : Prop where
  distinct : ∀ i j, i < idsDrawn s ids t → j < idsDrawn s ids t → ids i = ids j → i = j
  ne_container : ∀ i, i < idsDrawn s ids t → ids i ≠ s.containerId

/-- The decimal digits of a number determine it. -/
theorem sequentialIds_injective (start : String) : Function.Injective (sequentialIds start) := by
  intro m n h
  unfold sequentialIds at h
  have hDigits : Nat.toDigits 10 m = Nat.toDigits 10 n := by
    have hText := (String.append_right_inj _).1 h
    rw [Nat.toString_eq_ofList_toDigits, Nat.toString_eq_ofList_toDigits] at hText
    exact String.ofList_injective hText
  rw [← Nat.ofDigitChars_ten_toDigits (n := m), hDigits, Nat.ofDigitChars_ten_toDigits]

/-! ## Nodes and rows -/

/-- The outline of a tree, its nodes numbered in reading order. -/
def outline (t : Tree) : Forest (Nat × Kept) := (prune t).number 0

theorem layout_eq_rows (t : Tree) : layout t = (outline t).rows none := rfl

theorem length_layout (t : Tree) : (layout t).length = (outline t).listing.length := by
  rw [layout_eq_rows, Forest.rows_length, Forest.listing_length]

theorem length_compile (s : Settings) (ids : Nat → String) (t : Tree) :
    (compile s ids t).nodes.length = (layout t).length := by
  refine Nat.le_antisymm ?_ ?_
  · refine List.getElem?_eq_none_iff.1 ?_
    rw [compile_getElem?, List.getElem?_eq_none (Nat.le_refl _)]
    rfl
  · refine List.getElem?_eq_none_iff.1 ?_
    have hNone := List.getElem?_eq_none (Nat.le_refl (compile s ids t).nodes.length)
    rw [compile_getElem?] at hNone
    exact Option.map_eq_none_iff.1 hNone

theorem idsDrawn_eq_length (s : Settings) (ids : Nat → String) (t : Tree) :
    idsDrawn s ids t = (compile s ids t).nodes.length := by
  rw [length_compile]
  exact drawn_compile s ids t

theorem number_lt_idsDrawn (s : Settings) (ids : Nat → String) {t : Tree} {r : Row Kept}
    (h : r ∈ layout t) : r.number < idsDrawn s ids t := by
  have hRange := (Forest.rows_number_range h).2
  rw [idsDrawn_eq_length, length_compile, layout_eq_rows, Forest.rows_length, outline,
    Forest.size_number]
  omega

/-- The number of a row determines it. -/
theorem row_eq_of_number {t : Tree} {r r' : Row Kept} (h : r ∈ layout t) (h' : r' ∈ layout t)
    (hNumber : r'.number = r.number) : r' = r := by
  obtain ⟨i, hi⟩ := List.getElem?_of_mem h
  obtain ⟨j, hj⟩ := List.getElem?_of_mem h'
  have hij : j = i := by
    rw [← Forest.number_of_rows_getElem? hi, ← Forest.number_of_rows_getElem? hj]
    exact hNumber
  rw [hij, hi] at hj
  exact (Option.some.inj hj).symm

/-- Every node comes from the row at its place. -/
theorem row_of_node {s : Settings} {ids : Nat → String} {t : Tree} {i : Nat} {n : Node}
    (h : (compile s ids t).nodes[i]? = some n) :
    ∃ r, (layout t)[i]? = some r ∧ r.number = i ∧
      n = rowNode s ids (styleBehind s ((layout t).take i) r.label.tag) r := by
  rw [compile_getElem?] at h
  obtain ⟨r, hRow, hNode⟩ := Option.map_eq_some_iff.1 h
  exact ⟨r, hRow, Forest.number_of_rows_getElem? hRow, hNode.symm⟩

/-- Every row has its node at the place of its number. -/
theorem node_of_row (s : Settings) (ids : Nat → String) {t : Tree} {r : Row Kept}
    (h : r ∈ layout t) :
    ∃ style, (compile s ids t).nodes[r.number]? = some (rowNode s ids style r) := by
  obtain ⟨i, hi⟩ := List.getElem?_of_mem h
  have hNumber : r.number = i := Forest.number_of_rows_getElem? hi
  refine ⟨styleBehind s ((layout t).take i) r.label.tag, ?_⟩
  rw [hNumber, compile_getElem?, hi]
  rfl

/-- The parent of a row has its node at an earlier place. -/
theorem parent_of_row (s : Settings) (ids : Nat → String) {t : Tree} {r : Row Kept}
    (h : r ∈ layout t) (hLow : r.parent ≠ none) :
    ∃ q m, r.parent = some q ∧ q < r.number ∧ (compile s ids t).nodes[q]? = some m ∧
      m.id = parentName s ids r.parent := by
  obtain ⟨i, hRow⟩ := List.getElem?_of_mem h
  have hNumber : r.number = i := Forest.number_of_rows_getElem? hRow
  obtain ⟨q, hParent, _, hLt⟩ := (Forest.rows_parent_lt h).resolve_left hLow
  have hEarlier : q < (layout t).length := by
    have := (List.getElem?_eq_some_iff.1 hRow).1
    omega
  have hRow' : (layout t)[q]? = some (layout t)[q] := List.getElem?_eq_getElem hEarlier
  have hNumber' : (layout t)[q].number = q := Forest.number_of_rows_getElem? hRow'
  obtain ⟨style, hNode⟩ := node_of_row s ids (List.mem_of_getElem? hRow')
  rw [hNumber'] at hNode
  refine ⟨q, _, hParent, hLt, hNode, ?_⟩
  rw [rowNode, Kept.node_id, hNumber', hParent]
  rfl

theorem nodes_map_some (s : Settings) (ids : Nat → String) (t : Tree) :
    (compile s ids t).nodes.map some =
      (layout t).map fun r => (compile s ids t).nodes[r.number]? := by
  refine List.ext_getElem? ?_
  intro i
  rw [List.getElem?_map, List.getElem?_map, compile_getElem?]
  cases hRow : (layout t)[i]? with
  | none => rfl
  | some r =>
      have hNumber : r.number = i := Forest.number_of_rows_getElem? hRow
      simp only [Option.map_some, hNumber, compile_getElem?, hRow]

/-- Which parent a node names is which parent its row has. -/
theorem parentName_eq_iff {s : Settings} {ids : Nat → String} {t : Tree}
    (hFresh : FreshIds s ids t) {r : Row Kept} (h : r ∈ layout t) {p : Option Nat}
    (hp : ∀ q, p = some q → q < idsDrawn s ids t) :
    parentName s ids r.parent = parentName s ids p ↔ r.parent = p := by
  have hParent : ∀ q, r.parent = some q → q < idsDrawn s ids t := by
    intro q hq
    have hNumber := number_lt_idsDrawn s ids h
    rcases Forest.rows_parent_lt h with hTop | ⟨q', hq', _, hLt⟩
    · rw [hTop] at hq
      cases hq
    · have : q' = q := by simpa [hq] using hq'.symm
      omega
  constructor
  · intro hName
    cases hr : r.parent with
    | none =>
        cases p with
        | none => rfl
        | some q =>
            rw [hr] at hName
            exact absurd hName.symm (hFresh.ne_container q (hp q rfl))
    | some q =>
        cases p with
        | none =>
            rw [hr] at hName
            exact absurd hName (hFresh.ne_container q (hParent q hr))
        | some q' =>
            rw [hr] at hName
            rw [hFresh.distinct q q' (hParent q hr) (hp q' rfl) hName]
  · intro hEq
    rw [hEq]

/-- The nodes that name a parent are those of the rows under it. -/
theorem childrenOf_eq_rows {s : Settings} {ids : Nat → String} {t : Tree}
    (hFresh : FreshIds s ids t) {p : Option Nat} (hp : ∀ q, p = some q → q < idsDrawn s ids t) :
    ((compile s ids t).childrenOf (parentName s ids p)).map some =
      ((layout t).filter fun r => r.parent = p).map fun r =>
        (compile s ids t).nodes[r.number]? := by
  let named : Option Node → Bool := fun n? => n?.any fun n => n.parentId = parentName s ids p
  have hNodes : ((compile s ids t).childrenOf (parentName s ids p)).map some =
      ((compile s ids t).nodes.map some).filter named := by
    rw [List.filter_map]
    rfl
  rw [hNodes, nodes_map_some, List.filter_map]
  refine congrArg (List.map _) (List.filter_congr ?_)
  intro r hMem
  obtain ⟨style, hNode⟩ := node_of_row s ids hMem
  have hIff := parentName_eq_iff hFresh hMem hp
  simp only [Function.comp_apply, named, hNode, Option.any_some, rowNode, Kept.node_parentId,
    hIff]

/-! ## Compiled content and the outline -/

/-- The nodes of a compilation are those of the outline in reading order, each with its own id. -/
theorem node_of_listing (s : Settings) (ids : Nat → String) {t : Tree} {i : Nat} {e : Nat × Kept}
    (h : (outline t).listing[i]? = some e) :
    e.1 = i ∧ ∃ n style, (compile s ids t).nodes[i]? = some n ∧ n.id = ids i ∧
      n = e.2.node s (ids i) n.parentId style := by
  rw [← Forest.rows_label none, ← layout_eq_rows, List.getElem?_map] at h
  obtain ⟨r, hRow, rfl⟩ := Option.map_eq_some_iff.1 h
  have hNumber : r.number = i := Forest.number_of_rows_getElem? hRow
  refine ⟨hNumber, rowNode s ids (styleBehind s ((layout t).take i) r.label.tag) r,
    styleBehind s ((layout t).take i) r.label.tag, ?_, ?_, ?_⟩
  · rw [compile_getElem?, hRow]
    rfl
  · rw [rowNode, Kept.node_id, hNumber]
  · rw [rowNode, Kept.node_parentId, hNumber]

/-- Every node comes from the entry of the outline at its place. -/
theorem listing_of_node {s : Settings} {ids : Nat → String} {t : Tree} {i : Nat} {n : Node}
    (h : (compile s ids t).nodes[i]? = some n) :
    ∃ k style, (outline t).listing[i]? = some (i, k) ∧ n.id = ids i ∧
      n = k.node s (ids i) n.parentId style := by
  obtain ⟨r, hRow, hNumber, rfl⟩ := row_of_node h
  refine ⟨r.label, styleBehind s ((layout t).take i) r.label.tag, ?_, ?_, ?_⟩
  · rw [← Forest.rows_label none, ← layout_eq_rows, List.getElem?_map, hRow, ← hNumber]
    rfl
  · rw [rowNode, Kept.node_id, hNumber]
  · rw [rowNode, Kept.node_parentId, hNumber]

/-- The nodes below the container are the top of the outline. -/
theorem roots_eq_heads {s : Settings} {ids : Nat → String} {t : Tree}
    (hFresh : FreshIds s ids t) :
    (compile s ids t).roots.map some =
      (outline t).heads.map fun c => (compile s ids t).nodes[c.1]? := by
  have hRows := childrenOf_eq_rows hFresh (p := none) fun q hq => by cases hq
  have hTop := Forest.rows_filter_top (prune t) (n := 0) (p := none) fun q hq => by cases hq
  calc
    (compile s ids t).roots.map some =
        ((layout t).filter fun r => r.parent = none).map fun r =>
          (compile s ids t).nodes[r.number]? := hRows
    _ = (((layout t).filter fun r => r.parent = none).map fun r => (r.number, r.label)).map
          fun c => (compile s ids t).nodes[c.1]? := by
        rw [List.map_map]
        rfl
    _ = (outline t).heads.map fun c => (compile s ids t).nodes[c.1]? := by
        rw [layout_eq_rows, outline, hTop]

/-- The nodes below a node are its children in the outline. -/
theorem childrenOf_eq_family {s : Settings} {ids : Nat → String} {t : Tree}
    (hFresh : FreshIds s ids t) {e : (Nat × Kept) × List (Nat × Kept)}
    (h : e ∈ (outline t).families) :
    ((compile s ids t).childrenOf (ids e.1.1)).map some =
      e.2.map fun c => (compile s ids t).nodes[c.1]? := by
  have hLt : e.1.1 < idsDrawn s ids t := by
    have hRange := (Forest.family_number_range h).2
    rw [idsDrawn_eq_length, length_compile, layout_eq_rows, Forest.rows_length, outline,
      Forest.size_number]
    omega
  have hRows := childrenOf_eq_rows hFresh (p := some e.1.1) fun q hq => by
    cases hq
    exact hLt
  have hFamily := Forest.rows_filter_family (p := none) (fun q hq => by cases hq) h
  calc
    ((compile s ids t).childrenOf (ids e.1.1)).map some =
        ((layout t).filter fun r => r.parent = some e.1.1).map fun r =>
          (compile s ids t).nodes[r.number]? := hRows
    _ = (((layout t).filter fun r => r.parent = some e.1.1).map
          fun r => (r.number, r.label)).map fun c => (compile s ids t).nodes[c.1]? := by
        rw [List.map_map]
        rfl
    _ = e.2.map fun c => (compile s ids t).nodes[c.1]? := by
        rw [layout_eq_rows, outline, hFamily]

/-- A node names the container exactly when it stands at the top of the outline. -/
theorem parentId_eq_container_iff {s : Settings} {ids : Nat → String} {t : Tree}
    (hFresh : FreshIds s ids t) {i : Nat} {n : Node}
    (h : (compile s ids t).nodes[i]? = some n) :
    n.parentId = s.containerId ↔ i ∈ (outline t).heads.map (·.1) := by
  obtain ⟨r, hRow, hNumber, rfl⟩ := row_of_node h
  have hMem : r ∈ layout t := List.mem_of_getElem? hRow
  have hIff := parentName_eq_iff hFresh hMem (p := none) fun q hq => by cases hq
  have hTop := Forest.rows_filter_top (prune t) (n := 0) (p := none) fun q hq => by cases hq
  rw [rowNode, Kept.node_parentId, show s.containerId = parentName s ids none from rfl, hIff,
    outline, ← hTop, List.map_map, ← hNumber]
  constructor
  · intro hParent
    exact List.mem_map.2 ⟨r, List.mem_filter.2 ⟨hMem, by simpa using hParent⟩, rfl⟩
  · intro hTopMem
    obtain ⟨r', hr', hEq⟩ := List.mem_map.1 hTopMem
    obtain ⟨hMem', hParent'⟩ := List.mem_filter.1 hr'
    have hSame : r' = r := row_eq_of_number hMem hMem' hEq
    simpa [hSame] using hParent'

/-- A node behind a parent in the outline names that parent, which stands earlier. -/
theorem parentId_of_family {s : Settings} {ids : Nat → String} {t : Tree}
    {e : (Nat × Kept) × List (Nat × Kept)} (h : e ∈ (outline t).families) {c : Nat × Kept}
    (hc : c ∈ e.2) :
    e.1.1 < c.1 ∧ ∃ n, (compile s ids t).nodes[c.1]? = some n ∧ n.parentId = ids e.1.1 := by
  have hFamily := Forest.rows_filter_family (p := none) (fun q hq => by cases hq) h
  rw [← hFamily] at hc
  obtain ⟨r, hr, rfl⟩ := List.mem_map.1 hc
  obtain ⟨hMem, hParent⟩ := List.mem_filter.1 hr
  have hParent : r.parent = some e.1.1 := by simpa using hParent
  constructor
  · rcases Forest.rows_parent_lt hMem with hTop | ⟨q, hq, _, hLt⟩
    · rw [hTop] at hParent
      cases hParent
    · have : q = e.1.1 := by simpa [hq] using hParent
      omega
  · obtain ⟨style, hNode⟩ := node_of_row s ids hMem
    refine ⟨_, hNode, ?_⟩
    rw [rowNode, Kept.node_parentId, hParent]
    rfl

/-- **Compiled content is its outline.**  For every tree and all distinct ids, the nodes are the
outline in reading order, the i-th of them with the i-th id, and no further id is drawn.  The node
of a top-level entry names the container and no other node does; every other entry is a child of
an entry, and its node names the node of that entry, which stands earlier; and the children of
each node, and of the container, are those of the outline in order.  Sequential ids are
distinct. -/
theorem compile_faithful (s : Settings) (ids : Nat → String) (t : Tree)
    (hFresh : FreshIds s ids t) :
    let g := compile s ids t
    let o := outline t
    idsDrawn s ids t = g.nodes.length ∧ g.nodes.length = o.listing.length ∧
      (∀ i e, o.listing[i]? = some e →
        e.1 = i ∧ ∃ n style, g.nodes[i]? = some n ∧ n.id = ids i ∧
          n = e.2.node s (ids i) n.parentId style) ∧
      (∀ i n, g.nodes[i]? = some n →
        (n.parentId = s.containerId ↔ i ∈ o.heads.map (·.1))) ∧
      (∀ c ∈ o.listing, c ∈ o.heads ∨ ∃ e ∈ o.families, c ∈ e.2) ∧
      (∀ e ∈ o.families, ∀ c ∈ e.2,
        e.1.1 < c.1 ∧ ∃ n, g.nodes[c.1]? = some n ∧ n.parentId = ids e.1.1) ∧
      o.families.map (·.1) = o.listing ∧
      (∀ e ∈ o.families,
        (g.childrenOf (ids e.1.1)).map some = e.2.map fun c => g.nodes[c.1]?) ∧
      g.roots.map some = o.heads.map (fun c => g.nodes[c.1]?) ∧
      ∀ start, Function.Injective (sequentialIds start) := by
  refine ⟨idsDrawn_eq_length s ids t, ?_, ?_, ?_, ?_, ?_, Forest.families_label _, ?_, ?_,
    sequentialIds_injective⟩
  · rw [length_compile, length_layout]
  · intro i e h
    exact node_of_listing s ids h
  · intro i n h
    exact parentId_eq_container_iff hFresh h
  · intro c hc
    exact Forest.mem_heads_or_family hc
  · intro e he c hc
    exact parentId_of_family he hc
  · intro e he
    exact childrenOf_eq_family hFresh he
  · exact roots_eq_heads hFresh

/-! ## A tree with everything that is left out -/

/-- Settings without options or files, on the home page. -/
def plainSettings : Settings := ⟨.empty, [], ⟨"hello", false, "hello"⟩, "markdown", ""⟩

/-- An inner root, an ignored node, an element without a tag, and code with an element in it. -/
def mixedTree : Tree :=
  .root [.element (some "p") .empty [.text "a", .root [.text "b", .other], .text "c"],
    .element none .empty [.text "lost"],
    .root [.element (some "code") .empty [.element (some "p") .empty []]]]

theorem freshIds_sequential (s : Settings) (t : Tree) {start : String}
    (hContainer : ∀ i, sequentialIds start i ≠ s.containerId) :
    FreshIds s (sequentialIds start) t :=
  ⟨fun _ _ _ _ h => sequentialIds_injective start h, fun i _ => hContainer i⟩

theorem freshIds_markdown {s : Settings} (hContainer : s.containerId = "markdown") (t : Tree) :
    FreshIds s (sequentialIds "n") t := by
  refine freshIds_sequential s t ?_
  intro i h
  have hChars := congrArg (fun text => text.toList.head?) (h.trans hContainer)
  simp [sequentialIds] at hChars

/-- The paragraph keeps its three texts, the code stands beside it and has no children. -/
theorem compile_faithful_mixedTree :
    FreshIds plainSettings (sequentialIds "n") mixedTree ∧
      (compile plainSettings (sequentialIds "n") mixedTree).nodes.length = 5 ∧
      ((compile plainSettings (sequentialIds "n") mixedTree).childrenOf
          (sequentialIds "n" 0)).map some =
        [1, 2, 3].map (fun i => (compile plainSettings (sequentialIds "n") mixedTree).nodes[i]?) ∧
      (compile plainSettings (sequentialIds "n") mixedTree).roots.map some =
        [0, 4].map fun i => (compile plainSettings (sequentialIds "n") mixedTree).nodes[i]? := by
  have hFresh := freshIds_markdown (s := plainSettings) rfl mixedTree
  obtain ⟨_, hLength, _, _, _, _, _, hChildren, hRoots, _⟩ :=
    compile_faithful plainSettings (sequentialIds "n") mixedTree hFresh
  have hParagraph := hChildren _ List.mem_cons_self
  exact ⟨hFresh, hLength, hParagraph, hRoots⟩

end PaneEngine.Pane
