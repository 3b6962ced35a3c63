import PaneEngine.Proofs.Button
import PaneEngine.Proofs.Pane.Block

/-!
# Links stay indexed

A link of the tree may end up as a button, and its address may be replaced or
dropped.  The index sees only what it ended up as.  What it needs is still
there: a node has a payload only if it was a link with a bound address, and the
payload keeps its action.  So the index can tell links from authored buttons,
and the target it notes is the one that was written down.

The numbers under a target are collected while the table of links grows, each
number being larger than those before it.

## Main definitions

* `Kept.isLink`, `Kept.target?` — links of the tree and where they were meant to lead;
* `Index.Grouped` — links are collected under their targets.

## Main results

* `of?_node_eq_link_iff`, `linkTarget?_node` — what the index sees of a link;
* `grouped_addNode`, `grouped_foldl_step` — what one node and the pass over the nodes collect;
* `exists_get?_iff` — a node is listed in the table of its kind and in no other;
* `links_indexed` — the index lists the links of the tree, each under its own target.
-/

namespace PaneEngine.Pane

/-! ## Links of the tree -/

/-- Where a link with an address leads: to the action of the button bound to the address, or else
to the address. -/
def Settings.targetOf (s : Settings) (address : String) : String :=
  match s.options.buttons.get? address with
  | some button => button.callback
  | none => address

namespace Kept

/-- Whether a node is a link in the tree. -/
def isLink (k : Kept) : Bool := k.tag = "a"

/-- The target of a link of the tree; a link whose address is no string has none. -/
def target? (s : Settings) : Kept → Option String
  | text _ => none
  | element tag properties children =>
    if tag = "a" then
      ((Tree.element (some tag) properties children).property? "href").map s.targetOf
    else none

theorem isLink_iff (k : Kept) :
    k.isLink = true ↔ ∃ properties children, k = .element "a" properties children := by
  rw [isLink, decide_eq_true_iff]
  constructor
  · intro hTag
    cases k with
    | text value => exact absurd hTag (by decide : "text" ≠ "a")
    | element tag properties children =>
        obtain rfl : tag = "a" := hTag
        exact ⟨properties, children, rfl⟩
  · rintro ⟨properties, children, rfl⟩
    rfl

end Kept

/-! ## What the index sees of a link -/

theorem IndexKind.of?_eq_link_iff (n : Node) :
    of? n = some .link ↔ n.tag = "a" ∨ n.tag = "button" ∧ n.button.isSome = true := by
  grind [of?]

section

variable (s : Settings) (id p : String) (style : Style.Resolved)

theorem withLink_of_unbound {address : String} (h : s.options.buttons.get? address = none)
    (n : Node) : withLink s (some address) n = { n with href := some address } := by
  simp only [withLink, h]

theorem withLink_of_bound {address : String} {b : Button}
    (h : s.options.buttons.get? address = some b) (n : Node) :
    withLink s (some address) n =
      { n with
        tag := (b.rendering s.page).tag, href := (b.rendering s.page).href
        button := some (b.rendering s.page).button } := by
  simp only [withLink, h]

/-- A link that has become a button has a payload, which keeps its action. -/
theorem withLink_seen (href : Option String) {n : Node} (hTag : n.tag = "a")
    (hButton : n.button = none) (hHref : n.href = none) :
    IndexKind.of? (withLink s href n) = some .link ∧
      Index.linkTarget? (withLink s href n) = href.map s.targetOf := by
  rw [IndexKind.of?_eq_link_iff]
  cases href with
  | none =>
      refine ⟨.inl hTag, ?_⟩
      simp [withLink, Index.linkTarget?, hButton, hHref]
  | some address =>
      cases hBound : s.options.buttons.get? address with
      | none =>
          rw [withLink_of_unbound s hBound]
          refine ⟨.inl hTag, ?_⟩
          simp [Index.linkTarget?, hButton, Settings.targetOf, hBound]
      | some button =>
          rw [withLink_of_bound s hBound]
          constructor
          · exact (rendering_tag s.page button).imp_right fun hShown => ⟨hShown, rfl⟩
          · simp [Index.linkTarget?, Settings.targetOf, hBound, Button.rendering_callback]

theorem link_seen (properties : Dict Json) (children : List Tree) :
    let k := Kept.element "a" properties children
    IndexKind.of? (k.node s id p style) = some .link ∧
      Index.linkTarget? (k.node s id p style) = k.target? s :=
  withLink_seen s ((Tree.element (some "a") properties children).property? "href")
    (n := frameNode id p "a" style) rfl rfl rfl

/-- The index takes the links of the tree for links, and no other node. -/
theorem of?_node_eq_link_iff (k : Kept) :
    IndexKind.of? (k.node s id p style) = some .link ↔ k.isLink = true := by
  rw [Kept.isLink_iff]
  constructor
  · rw [IndexKind.of?_eq_link_iff]
    intro hKind
    cases k with
    | text value => exact absurd hKind (by simp [Kept.node, textNode, Node.bare])
    | element tag properties children =>
        by_cases hLink : tag = "a"
        · exact ⟨properties, children, by rw [hLink]⟩
        · -- An authored button has no payload.
          have hTag := elementNode_tag hLink s id p style (.element (some tag) properties children)
          have hButton := elementNode_button hLink s id p style
            (.element (some tag) properties children)
          rcases hKind with hShown | ⟨_, hPayload⟩
          · exact absurd (hTag.symm.trans hShown) hLink
          · simp [Kept.node, hButton] at hPayload
  · rintro ⟨properties, children, rfl⟩
    exact (link_seen s id p style properties children).1

/-- The index notes the target that was written down. -/
theorem linkTarget?_node {k : Kept} (h : k.isLink = true) :
    Index.linkTarget? (k.node s id p style) = k.target? s := by
  obtain ⟨properties, children, rfl⟩ := k.isLink_iff.1 h
  exact (link_seen s id p style properties children).2

end

/-! ## Collecting links under their targets -/

namespace Index

/-- The links among nodes, each with its target. -/
def linkTargets (ns : List Node) : List (Option String) :=
  (ns.filter fun n => IndexKind.of? n = some .link).map linkTarget?

/-- The index has so many links as there are targets, and collects their numbers under them. -/
structure Grouped (targets : List (Option String)) (x : Index) : Prop where
  length : x.links.length = targets.length
  sorted : ∀ target numbers, x.linksByTarget.get? target = some numbers →
    numbers.Pairwise (· < ·)
  mem : ∀ target k, k ∈ x.linksTo target ↔ targets[k]? = some (some target)

theorem grouped_empty : Grouped [] empty where
  length := rfl
  sorted := by
    intro target numbers h
    cases h
  mem := by
    intro target k
    exact iff_of_false (List.not_mem_nil) (by simp)

theorem linksTo_of_get? {x : Index} {target : String} {numbers : List Nat}
    (h : x.linksByTarget.get? target = some numbers) : x.linksTo target = numbers := by
  rw [linksTo, h, Option.getD_some]

/-- What is found under a target is what is collected under it. -/
theorem mem_linksTo_iff {x : Index} {target : String} {k : Nat} :
    k ∈ x.linksTo target ↔ ∃ numbers, x.linksByTarget.get? target = some numbers ∧ k ∈ numbers := by
  rw [linksTo]
  cases x.linksByTarget.get? target with
  | none => simp
  | some numbers => simp

variable {targets : List (Option String)} {x : Index}

/-- Every number that is collected is that of a link. -/
theorem Grouped.lt_length (h : Grouped targets x) {target : String} {k : Nat}
    (hMem : k ∈ x.linksTo target) : k < targets.length :=
  (List.getElem?_eq_some_iff.1 ((h.mem target k).1 hMem)).1

theorem Grouped.linksTo_sorted (h : Grouped targets x) (target : String) :
    (x.linksTo target).Pairwise (· < ·) := by
  cases hGet : x.linksByTarget.get? target with
  | none =>
      rw [linksTo, hGet]
      exact .nil
  | some numbers =>
      rw [linksTo_of_get? hGet]
      exact h.sorted target numbers hGet

/-- A node that is no link leaves everything collected as it is. -/
theorem grouped_skip (h : Grouped targets x) {n : Node} (hKind : IndexKind.of? n ≠ some .link)
    (block : Nat) : Grouped targets (x.addNode block n) := by
  have hGet : ∀ target,
      (x.addNode block n).linksByTarget.get? target = x.linksByTarget.get? target := by
    intro target
    rw [get?_linksByTarget_addNode, if_neg fun hLink => hKind hLink.1]
  refine ⟨?_, ?_, ?_⟩
  · have hTable := table_addNode x block n .link
    rw [if_neg hKind, List.append_nil] at hTable
    exact (congrArg List.length hTable).trans h.length
  · intro target numbers hHere
    exact h.sorted target numbers (hGet target ▸ hHere)
  · intro target k
    rw [linksTo, hGet]
    exact h.mem target k

/-- A link takes the next number, which is collected under its target. -/
theorem grouped_concat (h : Grouped targets x) {n : Node} (hKind : IndexKind.of? n = some .link)
    (block : Nat) : Grouped (targets ++ [linkTarget? n]) (x.addNode block n) := by
  have hLinksTo : ∀ target, (x.addNode block n).linksTo target =
      x.linksTo target ++ if linkTarget? n = some target then [targets.length] else [] := by
    intro target
    rw [linksTo, get?_linksByTarget_addNode]
    by_cases hTarget : linkTarget? n = some target
    · rw [if_pos ⟨hKind, hTarget⟩, if_pos hTarget, h.length, Option.getD_some]
    · rw [if_neg fun hLink => hTarget hLink.2, if_neg hTarget, List.append_nil, linksTo]
  refine ⟨?_, ?_, ?_⟩
  · have hTable := table_addNode x block n .link
    rw [if_pos hKind] at hTable
    have hLength := congrArg List.length hTable
    rw [List.length_append] at hLength
    rw [List.length_append, ← h.length]
    exact hLength
  · intro target numbers hHere
    rw [← linksTo_of_get? hHere, hLinksTo]
    refine List.pairwise_append.2 ⟨h.linksTo_sorted target, ?_, ?_⟩
    · split <;> simp
    · intro k hk l hl
      have hNew : l = targets.length := by
        split at hl
        · exact List.mem_singleton.1 hl
        · cases hl
      rw [hNew]
      exact h.lt_length hk
  · intro target k
    rw [hLinksTo, List.mem_append, h.mem]
    rcases Nat.lt_trichotomy k targets.length with hLt | rfl | hLt
    · rw [List.getElem?_append_left hLt]
      refine or_iff_left ?_
      split
      · simpa using Nat.ne_of_lt hLt
      · exact List.not_mem_nil
    · rw [List.getElem?_concat_length, List.getElem?_eq_none (Nat.le_refl _), Option.some.injEq]
      by_cases hTarget : linkTarget? n = some target
      · simp [hTarget]
      · simp [hTarget]
    · rw [List.getElem?_eq_none (Nat.le_of_lt hLt),
        List.getElem?_eq_none (by rw [List.length_append]; exact hLt)]
      refine iff_of_false ?_ (by simp)
      split
      · simpa using Nat.ne_of_gt hLt
      · simp

theorem grouped_addNode (h : Grouped targets x) (block : Nat) (n : Node) :
    Grouped (targets ++ linkTargets [n]) (x.addNode block n) := by
  by_cases hKind : IndexKind.of? n = some .link
  · have hOne : linkTargets [n] = [linkTarget? n] := by simp [linkTargets, hKind]
    rw [hOne]
    exact grouped_concat h hKind block
  · have hNone : linkTargets [n] = [] := by simp [linkTargets, hKind]
    rw [hNone, List.append_nil]
    exact grouped_skip h hKind block

theorem grouped_foldl_step {c : String} {ns : List Node} {b : Building}
    (hParents : ParentsKnown c (b.blockOf.map (·.1)) ns) (h : Grouped targets b.index) :
    Grouped (targets ++ linkTargets ns) (ns.foldl (Building.step c) b).index := by
  induction ns generalizing b targets with
  | nil =>
      rw [show linkTargets [] = [] from rfl, List.append_nil]
      exact h
  | cons n rest ih =>
      obtain ⟨hParent, hRest⟩ := hParents
      obtain ⟨block, blocks, hStep⟩ := step_of_known hParent
      have hSplit : linkTargets (n :: rest) = linkTargets [n] ++ linkTargets rest := by
        rw [linkTargets, linkTargets, linkTargets, ← List.map_append, ← List.filter_append]
        rfl
      rw [List.foldl_cons, hStep, hSplit, ← List.append_assoc]
      exact ih (b := ⟨b.index.addNode block n, blocks, (n.id, block) :: b.blockOf⟩) hRest
        (grouped_addNode h block n)

theorem grouped_ofGraph {g : Graph} (hParents : ParentsKnown g.containerId [] g.nodes) :
    Grouped (linkTargets g.nodes) (ofGraph g) :=
  grouped_foldl_step (b := ⟨empty, 0, []⟩) hParents grouped_empty

/-- A node is listed in the table of its kind and in no other. -/
theorem exists_get?_iff {g : Graph} (hParents : ParentsKnown g.containerId [] g.nodes)
    (hIds : (g.nodes.map (·.id)).Nodup) {k : IndexKind} {n : Node} (hNode : n ∈ g.nodes) :
    (∃ i p, (ofGraph g).get? k i = some p ∧ p.nodeId = n.id) ↔ IndexKind.of? n = some k := by
  constructor
  · rintro ⟨i, p, hGet, hId⟩
    have hListed := get?_nodeId hParents k i
    rw [hGet, Option.map_some, hId] at hListed
    obtain ⟨m, hm, hSame⟩ := Option.map_eq_some_iff.1 hListed.symm
    obtain ⟨hMem, hKind⟩ := List.mem_filter.1 (List.mem_of_getElem? hm)
    rw [← List.inj_on_of_nodup_map hIds hMem hNode hSame]
    exact of_decide_eq_true hKind
  · intro hKind
    obtain ⟨place, hPlace⟩ := List.getElem?_of_mem hNode
    obtain ⟨_, p, hGet, hId⟩ := occurrence?_of_filter hParents hIds hPlace hKind
    exact ⟨_, p, hGet, hId⟩

end Index

/-! ## The links of compiled content -/

/-- The links of a tree in reading order, with their numbers in the outline. -/
def linksOf (t : Tree) : List (Nat × Kept) := (outline t).listing.filter fun e => e.2.isLink

section

variable (s : Settings) (ids : Nat → String) (t : Tree)

theorem links_nodesBehind (before rs : List (Row Kept)) :
    ((nodesBehind s ids before rs).filter fun n => IndexKind.of? n = some .link).map
        (fun n => (n.id, Index.linkTarget? n)) =
      (rs.filter fun r => r.label.isLink).map fun r => (ids r.number, r.label.target? s) := by
  induction rs generalizing before with
  | nil => rfl
  | cons r rs ih =>
      have hKind := of?_node_eq_link_iff s (ids r.number) (parentName s ids r.parent)
        (styleBehind s before r.label.tag) r.label
      rw [nodesBehind, List.filter_cons, List.filter_cons, rowNode]
      by_cases hLink : r.label.isLink = true
      · rw [if_pos hLink, if_pos (by simpa using hKind.2 hLink), List.map_cons, List.map_cons, ih,
          Kept.node_id, linkTarget?_node s _ _ _ hLink]
      · rw [if_neg hLink, if_neg (by simpa using fun h => hLink (hKind.1 h)), ih]

/-- The links among the compiled nodes are the links of the tree, with their targets. -/
theorem links_compile :
    ((compile s ids t).nodes.filter fun n => IndexKind.of? n = some .link).map
        (fun n => (n.id, Index.linkTarget? n)) =
      (linksOf t).map fun e => (ids e.1, e.2.target? s) := by
  rw [compile_nodes, links_nodesBehind, linksOf, ← Forest.rows_label none, ← layout_eq_rows,
    List.filter_map, List.map_map]
  rfl

/-- The table of links lists the links of the tree. -/
theorem get?_link (k : Nat) :
    ((Index.ofGraph (compile s ids t)).get? .link k).map (·.nodeId) =
      (linksOf t)[k]?.map fun e => ids e.1 := by
  have hIds := congrArg (List.map Prod.fst) (links_compile s ids t)
  rw [List.map_map, List.map_map] at hIds
  rw [Index.get?_nodeId (parentsKnown_compile s ids t), ← List.getElem?_map, ← List.getElem?_map]
  exact congrArg (fun l => l[k]?) hIds

/-- The links are collected under the targets that they have in the tree. -/
theorem grouped_compile :
    Index.Grouped ((linksOf t).map fun e => e.2.target? s) (Index.ofGraph (compile s ids t)) := by
  have hTargets := congrArg (List.map Prod.snd) (links_compile s ids t)
  rw [List.map_map, List.map_map] at hTargets
  exact hTargets ▸ Index.grouped_ofGraph (parentsKnown_compile s ids t)

end

/-- **Links stay indexed whatever they render as.**  For every tree and all fresh ids: a compiled
node is in the table of links exactly if it comes from a link of the tree, and the table lists the
links of the tree in reading order.  The number of a link is collected under its target and nowhere
else, the target being the action bound to its address or else the address, so a link without an
address is collected nowhere; nothing but numbers of links is collected.  Every list of numbers
increases strictly, so that the links with a target are found in reading order. -/
theorem links_indexed (s : Settings) (ids : Nat → String) (t : Tree) (hFresh : FreshIds s ids t) :
    let g := compile s ids t
    let x := Index.ofGraph g
    (∀ (i : Nat) (e : Nat × Kept) (n : Node),
      (outline t).listing[i]? = some e → g.nodes[i]? = some n →
        ((∃ k p, x.get? .link k = some p ∧ p.nodeId = n.id) ↔
          ∃ properties children, e.2 = .element "a" properties children)) ∧
    (∀ k, (x.get? .link k).map (·.nodeId) = (linksOf t)[k]?.map fun e => ids e.1) ∧
    (∀ target k, (∃ numbers, x.linksByTarget.get? target = some numbers ∧ k ∈ numbers) ↔
      ∃ e, (linksOf t)[k]? = some e ∧ e.2.target? s = some target) ∧
    (∀ target numbers, x.linksByTarget.get? target = some numbers →
      numbers.Pairwise (· < ·)) ∧
    ∀ target, (x.linksTo target).Pairwise (· < ·) ∧
      ∀ k, k ∈ x.linksTo target ↔ ∃ e, (linksOf t)[k]? = some e ∧ e.2.target? s = some target := by
  intro g x
  have hGrouped := grouped_compile s ids t
  have hMem : ∀ target k, k ∈ x.linksTo target ↔
      ∃ e, (linksOf t)[k]? = some e ∧ e.2.target? s = some target := by
    intro target k
    rw [hGrouped.mem, List.getElem?_map, Option.map_eq_some_iff]
  refine ⟨?_, get?_link s ids t, ?_, hGrouped.sorted, fun target =>
    ⟨hGrouped.linksTo_sorted target, hMem target⟩⟩
  · intro i e n hEntry hNode
    obtain ⟨k, style, hPlace, _, hMade⟩ := listing_of_node hNode
    obtain rfl : e = (i, k) := Option.some.inj (hEntry.symm.trans hPlace)
    rw [Index.exists_get?_iff (parentsKnown_compile s ids t) (nodup_ids hFresh)
      (List.mem_of_getElem? hNode), ← Kept.isLink_iff,
      ← of?_node_eq_link_iff s (ids i) n.parentId style, ← hMade]
  · intro target k
    rw [← hMem, Index.mem_linksTo_iff]

/-- Settings under which links to `#watch` start a video. -/
def watchSettings : Settings :=
  { plainSettings with
    options := { Options.empty with
      buttons := .ofList
        [("#watch", ⟨"(bunnyMoment (vid 5))", none, .empty, .empty, none, none⟩)] } }

/-- A paragraph with two links to a video, a plain link between them, a link without an address and
an authored button. -/
def mixedLinks : Tree :=
  let link (properties : Dict Json) : Tree := .element (some "a") properties [.text "x"]
  let href (address : String) : Dict Json := .ofList [("href", .string address)]
  .element (some "p") .empty
    [link (href "#watch"), link (href "/docs"), link (href "#watch"), link .empty,
      .element (some "button") (href "#watch") []]

/-- The links to the video are found under its action, the link without an address under nothing,
and the authored button is no link. -/
theorem links_indexed_mixedLinks :
    let g := compile watchSettings (sequentialIds "n") mixedLinks
    let x := Index.ofGraph g
    FreshIds watchSettings (sequentialIds "n") mixedLinks ∧
      0 ∈ x.linksTo "(bunnyMoment (vid 5))" ∧ 2 ∈ x.linksTo "(bunnyMoment (vid 5))" ∧
      1 ∈ x.linksTo "/docs" ∧ (∀ target, 3 ∉ x.linksTo target) ∧
      ∃ n, g.nodes[9]? = some n ∧ n.tag = "button" ∧
        ¬ ∃ k p, x.get? .link k = some p ∧ p.nodeId = n.id := by
  intro g x
  have hFresh := freshIds_markdown (s := watchSettings) rfl mixedLinks
  obtain ⟨hTable, _, _, _, hLinksTo⟩ :=
    links_indexed watchSettings (sequentialIds "n") mixedLinks hFresh
  have hButton := compile_getElem? watchSettings (sequentialIds "n") mixedLinks 9
  refine ⟨hFresh, ((hLinksTo _).2 0).2 ⟨_, rfl, by decide +kernel⟩,
    ((hLinksTo _).2 2).2 ⟨_, rfl, by decide +kernel⟩,
    ((hLinksTo _).2 1).2 ⟨_, rfl, by decide +kernel⟩, ?_, _, hButton, rfl, ?_⟩
  · intro target hMem
    obtain ⟨e, hEntry, hTarget⟩ := ((hLinksTo target).2 3).1 hMem
    cases hEntry
    cases hTarget
  · rw [hTable 9 _ _ rfl hButton]
    rintro ⟨properties, children, hLink⟩
    have hTag : "button" = "a" := congrArg Kept.tag hLink
    exact absurd hTag (by decide)

end PaneEngine.Pane
