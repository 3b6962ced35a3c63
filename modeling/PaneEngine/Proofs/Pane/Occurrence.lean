import PaneEngine.Proofs.Pane.Index
import PaneEngine.Proofs.Pane.Parenthood

/-!
# Two counts of the same occurrences

Styles are chosen while a tree is flattened, by a count kept for every tracked
tag.  The positional index counts again, over the finished list and by parents.
Both counts are the number of earlier nodes with the same tag: a link may change
its tag on the way, but neither of its tags is tracked.

## Main definitions

* `countedKinds` — the kinds of the index that are known by one tag.

## Main results

* `occurrences_take` — the rows before a place have the tags of the nodes before it;
* `occurrence_agrees` — styles and index number a node alike.
-/

namespace PaneEngine.Pane

/-! ## Counting nodes instead of rows -/

theorem nodesBehind_take (s : Settings) (ids : Nat → String) (before rs : List (Row Kept))
    (i : Nat) : (nodesBehind s ids before rs).take i = nodesBehind s ids before (rs.take i) := by
  induction rs generalizing before i with
  | nil => simp [nodesBehind]
  | cons r rs ih =>
      cases i with
      | zero => rfl
      | succ i =>
          show _ :: (nodesBehind s ids (before ++ [r]) rs).take i = _
          rw [ih]
          rfl

/-- A node has a tracked tag exactly when its row has. -/
theorem rowNode_tag_iff {tag : String} (h : Style.isTracked tag = true) (s : Settings)
    (ids : Nat → String) (style : Style.Resolved) (r : Row Kept) :
    (rowNode s ids style r).tag = tag ↔ r.label.tag = tag := by
  unfold rowNode
  rcases r.label.node_tag_tracked s (ids r.number) (parentName s ids r.parent) style
    with hSame | ⟨hNode, hRow⟩
  · rw [hSame]
  · constructor
    · intro hEq
      rw [hEq, h] at hNode
      cases hNode
    · intro hEq
      rw [hEq, h] at hRow
      cases hRow

theorem countP_nodesBehind {tag : String} (h : Style.isTracked tag = true) (s : Settings)
    (ids : Nat → String) (before rs : List (Row Kept)) :
    (nodesBehind s ids before rs).countP (fun n => n.tag = tag) = occurrences rs tag := by
  induction rs generalizing before with
  | nil => rfl
  | cons r rs ih =>
      have hHead := rowNode_tag_iff h s ids (styleBehind s before r.label.tag) r
      rw [nodesBehind, List.countP_cons, ih, occurrences, occurrences, List.countP_cons]
      simp only [hHead]

/-- The rows before a place have as many occurrences of a tracked tag as the nodes before it. -/
theorem occurrences_take {tag : String} (h : Style.isTracked tag = true) (s : Settings)
    (ids : Nat → String) (t : Tree) (i : Nat) :
    occurrences ((layout t).take i) tag =
      ((compile s ids t).nodes.take i).countP fun n => n.tag = tag := by
  rw [compile_nodes, nodesBehind_take, countP_nodesBehind h]

/-! ## Styles -/

theorem styleBehind_untracked {tag : String} (h : Style.isTracked tag = false) (s : Settings)
    (before : List (Row Kept)) : styleBehind s before tag = .none := by
  simp [styleBehind, h]

/-- A compiled node has the styles it is given; a text is given none. -/
theorem rowNode_style (s : Settings) (ids : Nat → String) (before : List (Row Kept))
    (r : Row Kept) :
    let n := rowNode s ids (styleBehind s before r.label.tag) r
    n.css = (styleBehind s before r.label.tag).css ∧
      n.overrides = (styleBehind s before r.label.tag).overrides := by
  obtain ⟨number, parent, label⟩ := r
  cases label with
  | text value =>
      have hText : Style.isTracked "text" = false := by decide
      simp only [Kept.tag, styleBehind_untracked hText]
      exact ⟨rfl, rfl⟩
  | element tag properties children =>
      have hFrame := elementNode_frame s (ids number) (parentName s ids parent) tag
        (styleBehind s before tag) (.element (some tag) properties children)
      exact ⟨hFrame.css, hFrame.overrides⟩

/-- The styles of a node are those of the tag it ends up with. -/
theorem styleBehind_rowNode_tag (s : Settings) (ids : Nat → String) (before : List (Row Kept))
    (style : Style.Resolved) (r : Row Kept) :
    styleBehind s before (rowNode s ids style r).tag = styleBehind s before r.label.tag := by
  unfold rowNode
  rcases r.label.node_tag_tracked s (ids r.number) (parentName s ids r.parent) style
    with hSame | ⟨hNode, hRow⟩
  · rw [hSame]
  · rw [styleBehind_untracked hNode, styleBehind_untracked hRow]

/-- A node is styled by its tag and by how many nodes before it have the same tag. -/
theorem style_of_countP (s : Settings) (ids : Nat → String) (t : Tree) {i : Nat} {n : Node}
    (h : (compile s ids t).nodes[i]? = some n) :
    let k := ((compile s ids t).nodes.take i).countP fun m => m.tag = n.tag
    let style := if Style.isTracked n.tag then Style.resolve s.options n.tag k else .none
    n.css = style.css ∧ n.overrides = style.overrides := by
  intro k style
  have hStyle : styleBehind s ((layout t).take i) n.tag = style := by
    unfold styleBehind
    by_cases hTracked : Style.isTracked n.tag = true
    · simp only [style, if_pos hTracked, k, occurrences_take hTracked s ids t i]
    · simp only [style, if_neg hTracked]
  obtain ⟨r, _, _, hNode⟩ := row_of_node h
  have hTag : styleBehind s ((layout t).take i) n.tag =
      styleBehind s ((layout t).take i) r.label.tag := by
    rw [hNode]
    exact styleBehind_rowNode_tag s ids _ _ r
  rw [← hStyle, hTag, hNode]
  exact rowNode_style s ids _ r

/-! ## The index -/

/-- The kinds of the index that are known by one tag. -/
def countedKinds : List (String × IndexKind) :=
  [("img", .image), ("li", .listItem), ("code", .codeItem)]

theorem IndexKind.of?_eq_some_iff {tag : String} {kind : IndexKind}
    (h : (tag, kind) ∈ countedKinds) (n : Node) : of? n = some kind ↔ n.tag = tag := by
  simp only [countedKinds, List.mem_cons, Prod.mk.injEq, List.not_mem_nil, or_false] at h
  rcases h with ⟨rfl, rfl⟩ | ⟨rfl, rfl⟩ | ⟨rfl, rfl⟩ <;> grind [of?]

/-- The parent of a compiled node is the container or stands before it. -/
theorem parentsKnown_compile (s : Settings) (ids : Nat → String) (t : Tree) :
    Index.ParentsKnown s.containerId [] (compile s ids t).nodes := by
  refine Index.parentsKnown_of_earlier ?_
  intro i n hNode
  obtain ⟨r, hRow, hNumber, rfl⟩ := row_of_node hNode
  rw [rowNode, Kept.node_parentId]
  have hMem : r ∈ layout t := List.mem_of_getElem? hRow
  by_cases hTop : r.parent = none
  · rw [hTop]
    exact .inl rfl
  · obtain ⟨q, m, _, hLt, hEarlier, hId⟩ := parent_of_row s ids hMem hTop
    exact .inr (.inr ⟨q, m, by omega, hEarlier, hId⟩)

theorem nodup_ids {s : Settings} {ids : Nat → String} {t : Tree} (hFresh : FreshIds s ids t) :
    ((compile s ids t).nodes.map (·.id)).Nodup := by
  have hId : ∀ i (hi : i < (compile s ids t).nodes.length),
      (compile s ids t).nodes[i].id = ids i := by
    intro i hi
    obtain ⟨r, _, hNumber, hEq⟩ := row_of_node (List.getElem?_eq_getElem hi)
    rw [hEq, rowNode, Kept.node_id, hNumber]
  refine List.pairwise_iff_getElem.2 ?_
  intro i j hi hj hLt hSame
  rw [List.length_map] at hi hj
  rw [List.getElem_map, List.getElem_map, hId i hi, hId j hj] at hSame
  have hDrawn := idsDrawn_eq_length s ids t
  have hEq := hFresh.distinct i j (by omega) (by omega) hSame
  omega

/-- **Styles and index number a node alike.**  Let `k` be the number of earlier nodes with the tag
of a node.  If the tag is tracked, the node has exactly the styles of occurrence `k` of that tag,
and otherwise it has none.  An image, a list item or a code node is number `k` of its kind in the
index of the content. -/
theorem occurrence_agrees (s : Settings) (ids : Nat → String) (t : Tree)
    (hFresh : FreshIds s ids t) :
    let g := compile s ids t
    ∀ i n, g.nodes[i]? = some n →
      let k := (g.nodes.take i).countP fun m => m.tag = n.tag
      (Style.isTracked n.tag = true →
        n.css = (Style.resolve s.options n.tag k).css ∧
          n.overrides = (Style.resolve s.options n.tag k).overrides) ∧
      (Style.isTracked n.tag = false → n.css = none ∧ n.overrides = none) ∧
      ∀ kind, (n.tag, kind) ∈ countedKinds →
        (Index.ofGraph g).occurrence? kind n.id = some k ∧
          ∃ p, (Index.ofGraph g).get? kind k = some p ∧ p.nodeId = n.id := by
  intro g i n hNode k
  have hStyle := style_of_countP s ids t hNode
  refine ⟨?_, ?_, ?_⟩
  · intro hTracked
    simpa only [if_pos hTracked] using hStyle
  · intro hUntracked
    simp only [hUntracked, Bool.false_eq_true, if_false] at hStyle
    exact hStyle
  · intro kind hKind
    have hCount : (g.nodes.take i).countP (fun m => IndexKind.of? m = some kind) = k := by
      simp only [IndexKind.of?_eq_some_iff hKind, k]
    rw [← hCount]
    exact Index.occurrence?_of_filter (parentsKnown_compile s ids t) (nodup_ids hFresh) hNode
      ((IndexKind.of?_eq_some_iff hKind n).2 rfl)

/-- List items that take turns between two classes. -/
def zebraSettings : Settings :=
  { plainSettings with
    options := { Options.empty with classes := .ofList [("li", .alternates ["odd", "even"])] } }

/-- A list with a link in its first item and code in its second. -/
def nestedList : Tree :=
  .element (some "ul") .empty
    [.element (some "li") .empty [.element (some "a") .empty [.text "x"]],
      .element (some "li") .empty [.element (some "code") .empty [.text "y"]]]

/-- The second item is styled as number one of its tag and is number one in the index. -/
theorem occurrence_agrees_nestedList :
    FreshIds zebraSettings (sequentialIds "n") nestedList ∧
      ∃ n, (compile zebraSettings (sequentialIds "n") nestedList).nodes[4]? = some n ∧
        n.tag = "li" ∧ n.css = some "even" ∧
        (Index.ofGraph (compile zebraSettings (sequentialIds "n") nestedList)).occurrence?
          .listItem n.id = some 1 := by
  have hFresh := freshIds_markdown (s := zebraSettings) rfl nestedList
  have hNode := compile_getElem? zebraSettings (sequentialIds "n") nestedList 4
  obtain ⟨hTracked, _, hIndex⟩ :=
    occurrence_agrees zebraSettings (sequentialIds "n") nestedList hFresh 4 _ hNode
  have hStyle := (hTracked rfl).1
  have hNumber := (hIndex .listItem (by decide)).1
  exact ⟨hFresh, _, hNode, rfl, hStyle, hNumber⟩

end PaneEngine.Pane
