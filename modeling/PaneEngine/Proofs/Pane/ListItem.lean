import Mathlib.Data.List.Forall2
import PaneEngine.Proofs.Pane.Face
import PaneEngine.Proofs.Pane.Parenthood

/-!
# Hints of list items

The hint of a list item is made from its children in the tree, but it is read
beside the children that have been compiled.  The two lists of children are the
same except for inner roots: a list item passes over an inner root with all it
holds, while the flattening leaves the children of the root in its place.

## Main definitions

* `shownHint` — the hint that compiled children ask for;
* `spliceAll` — children with those of inner roots in their place.

## Main results

* `childrenOf_heads` — the compiled children of a node are the heads of what lies below it;
* `shownHint_childrenOf` — compiled children ask for the hint of the spliced children;
* `hint_agrees_iff` — hints agree with what is shown exactly if inner roots make no difference.
-/

namespace PaneEngine.Pane

/-! ## Hints by what is shown -/

/-- The hint that the compiled children of a list item ask for.  A text is known by its copy, an
element may have the tag of a text. -/
def shownHint : List Node → Option String
  | [] => none
  | first :: rest =>
    if first.tag = "img" then some "img"
    else if first.tag = "code" then some "widget"
    else if first.tag = "text" then
      match first.copy, rest with
      | none, _ => none
      | some copy, [] => some (if 80 < copy.length then "p" else "h3")
      | some _, _ :: _ => some "p"
    else none

mutual

/-- A node, or the children that an inner root leaves in its place. -/
def splice : Tree → List Tree
  | .root children => spliceAll children
  | t => [t]

/-- Children with those of inner roots in their place. -/
def spliceAll : List Tree → List Tree
  | [] => []
  | t :: rest => splice t ++ spliceAll rest

end

namespace Kept

/-- What the node above sees. -/
def face : Kept → Face
  | text value => .text value
  | element tag _ _ => .element tag

/-- What is kept of what a node holds. -/
def below : Kept → Forest Kept
  | text _ => .nil
  | element tag _ children => if tag = "code" then .nil else pruneAll children

end Kept

/-! ## Children in the outline -/

mutual

/-- The children of a kept node are the heads of what is kept below it. -/
theorem children_of_mem_families :
    ∀ {t : Tree} {e : Kept × List Kept}, e ∈ (prune t).families → e.2 = e.1.below.heads
  | .root children, _, h => by
      rw [prune] at h
      exact children_of_mem_families_all h
  | .text value, _, h => by
      rw [prune, Forest.families] at h
      cases List.mem_singleton.1 h
      rfl
  | .element (some tag) properties children, _, h => by
      rw [prune, Forest.families, List.mem_cons] at h
      rcases h with rfl | h
      · rfl
      · rw [Forest.families, List.append_nil] at h
        by_cases hCode : tag = "code"
        · rw [if_pos hCode] at h
          cases h
        · rw [if_neg hCode] at h
          exact children_of_mem_families_all h
  | .element none _ _, _, h => by
      rw [prune] at h
      cases h
  | .other, _, h => by
      rw [prune] at h
      cases h

theorem children_of_mem_families_all :
    ∀ {ts : List Tree} {e : Kept × List Kept}, e ∈ (pruneAll ts).families → e.2 = e.1.below.heads
  | [], _, h => by
      rw [pruneAll] at h
      cases h
  | t :: rest, _, h => by
      rw [pruneAll, Forest.families_append, List.mem_append] at h
      rcases h with h | h
      · exact children_of_mem_families h
      · exact children_of_mem_families_all h

end

mutual

/-- What a tree leaves at the top is seen like the tree with inner roots spliced. -/
theorem faces_splice : ∀ t : Tree, faces (splice t) = (prune t).heads.map Kept.face
  | .root children => by
      rw [splice, prune]
      exact faces_spliceAll children
  | .text value => rfl
  | .element (some tag) properties children => rfl
  | .element none properties children => rfl
  | .other => rfl

theorem faces_spliceAll : ∀ ts : List Tree, faces (spliceAll ts) = (pruneAll ts).heads.map Kept.face
  | [] => rfl
  | t :: rest => by
      rw [spliceAll, pruneAll, faces_append, Forest.heads_append, List.map_append, faces_splice t,
        faces_spliceAll rest]

end

/-- Inner roots that leave nothing are not seen either way. -/
theorem faces_spliceAll_of_empty {children : List Tree}
    (h : ∀ cs, .root cs ∈ children → pruneAll cs = .nil) :
    faces (spliceAll children) = faces children := by
  induction children with
  | nil => rfl
  | cons t rest ih =>
      have hFirst : faces (splice t) = (face? t).toList := by
        rcases t with cs | ⟨_ | tag, properties, cs⟩ | value | _
        · rw [faces_splice, prune, h cs List.mem_cons_self]
          rfl
        · rfl
        · rfl
        · rfl
        · rfl
      rw [spliceAll, faces_append, hFirst, faces_cons,
        ih fun cs hMem => h cs (List.mem_cons_of_mem _ hMem)]

/-! ## Compiled children -/

/-- A node is compiled from a kept node, with whatever id, parent and styles. -/
def CompiledFrom (s : Settings) (n : Node) (k : Kept) : Prop :=
  ∃ id p style, n = k.node s id p style

theorem forall₂_of_map_some {α β : Type} {R : α → β → Prop} {as : List α} {bs : List β}
    {look : β → Option α} (h : as.map some = bs.map look)
    (hLook : ∀ b ∈ bs, ∃ a, look b = some a ∧ R a b) : List.Forall₂ R as bs := by
  induction bs generalizing as with
  | nil =>
      rw [List.map_nil, List.map_eq_nil_iff] at h
      rw [h]
      exact .nil
  | cons b bs ih =>
      obtain ⟨a, ha, hRel⟩ := hLook b List.mem_cons_self
      cases as with
      | nil => cases h
      | cons a' as =>
          rw [List.map_cons, List.map_cons, ha, List.cons.injEq, Option.some.injEq] at h
          rw [h.1]
          exact .cons hRel (ih h.2 fun b hMem => hLook b (List.mem_cons_of_mem _ hMem))

section

variable {s : Settings} {ids : Nat → String} {t : Tree}

/-- The compiled children of a node are the heads of what is kept below it. -/
theorem childrenOf_heads (hFresh : FreshIds s ids t) {i : Nat} {e : Nat × Kept}
    (h : (outline t).listing[i]? = some e) :
    List.Forall₂ (CompiledFrom s) ((compile s ids t).childrenOf (ids i)) e.2.below.heads := by
  obtain ⟨hNumber, _⟩ := node_of_listing s ids h
  have hMem : e ∈ (outline t).families.map (·.1) := by
    rw [Forest.families_label]
    exact List.mem_of_getElem? h
  obtain ⟨family, hFamily, rfl⟩ := List.mem_map.1 hMem
  have hChildren : family.2.map (·.2) = family.1.2.below.heads := by
    refine children_of_mem_families (t := t) (e := (family.1.2, family.2.map (·.2))) ?_
    rw [← Forest.families_number (prune t) 0]
    exact List.mem_map_of_mem hFamily
  rw [← hChildren, List.forall₂_map_right_iff, ← hNumber]
  refine forall₂_of_map_some (childrenOf_eq_family hFresh hFamily) ?_
  intro c hc
  obtain ⟨j, hj⟩ := List.getElem?_of_mem (Forest.mem_listing_of_family hFamily hc)
  obtain ⟨hPlace, n, style, hNode, _, hMade⟩ := node_of_listing s ids hj
  exact ⟨n, hPlace ▸ hNode, _, _, style, hMade⟩

end

/-! ## Two classifications -/

/-- Compiled children ask for the hint that the faces they come from give. -/
theorem shownHint_eq {s : Settings} {ns : List Node} {ks : List Kept}
    (h : List.Forall₂ (CompiledFrom s) ns ks) : shownHint ns = hintOf (ks.map Kept.face) := by
  cases h with
  | nil => rfl
  | @cons _ k _ _ hFirst hRest =>
      obtain ⟨id, p, style, rfl⟩ := hFirst
      cases k with
      | text value =>
          cases hRest with
          | nil => rfl
          | cons _ _ => rfl
      | element tag properties children =>
          have hMade : Kept.node s id p style (.element tag properties children) =
              elementNode s id p tag style (.element (some tag) properties children) := rfl
          by_cases hLink : tag = "a"
          · -- A link keeps no tag of its own, but neither of its tags is asked for.
            subst hLink
            rcases elementNode_tag_link s id p style (.element (some "a") properties children)
              with hTag | hTag <;>
              simp [shownHint, hintOf, Kept.face, hMade, hTag]
          · have hTag := elementNode_tag hLink s id p style
              (.element (some tag) properties children)
            by_cases hCode : tag = "code"
            · subst hCode
              simp [shownHint, hintOf, Kept.face, hMade, hTag]
            · have hCopy := elementNode_copy hCode s id p style
                (.element (some tag) properties children)
              simp [shownHint, hintOf, Kept.face, hMade, hTag, hCopy]

/-! ## Hints -/

/-- Nodes with the tag of a list item come from list items. -/
theorem Kept.eq_listItem {s : Settings} {id p : String} {style : Style.Resolved} {k : Kept}
    (h : (k.node s id p style).tag = "li") :
    ∃ properties children, k = .element "li" properties children := by
  cases k with
  | text value => exact absurd h (by decide : "text" ≠ "li")
  | element tag properties children =>
      by_cases hLink : tag = "a"
      · subst hLink
        rcases elementNode_tag_link s id p style (.element (some "a") properties children)
          with hTag | hTag
        · exact absurd (hTag.symm.trans h) (by decide)
        · exact absurd (hTag.symm.trans h) (by decide)
      · have hTag := elementNode_tag hLink s id p style (.element (some tag) properties children)
        obtain rfl : tag = "li" := hTag.symm.trans h
        exact ⟨properties, children, rfl⟩

section

variable {s : Settings} {ids : Nat → String} {t : Tree}

/-- Compiled children ask for the hint of the children with inner roots spliced. -/
theorem shownHint_childrenOf (hFresh : FreshIds s ids t) {i number : Nat}
    {properties : Dict Json} {children : List Tree}
    (h : (outline t).listing[i]? = some (number, .element "li" properties children)) :
    shownHint ((compile s ids t).childrenOf (ids i)) = listItemHint (spliceAll children) := by
  rw [shownHint_eq (childrenOf_heads hFresh h), listItemHint_eq, faces_spliceAll]
  rfl

end

/-- **Hints agree with what is shown exactly if inner roots make no difference.**  For every tree
and all fresh ids, each list item node of compiled content comes from a list item of the tree, and
its compiled children ask for the hint that the children of that item give with those of inner
roots in their place.  So its own hint is what its compiled children ask for if and only if splicing
the inner roots does not change the hint of its children; in particular if it has no inner root, or
none that leaves anything. -/
theorem hint_agrees_iff (s : Settings) (ids : Nat → String) (t : Tree)
    (hFresh : FreshIds s ids t) :
    let g := compile s ids t
    ∀ (i : Nat) (n : Node), g.nodes[i]? = some n → n.tag = "li" →
      ∃ properties children,
        (outline t).listing[i]? = some (i, .element "li" properties children) ∧
          shownHint (g.childrenOf n.id) = listItemHint (spliceAll children) ∧
          (n.hint = shownHint (g.childrenOf n.id) ↔
            listItemHint children = listItemHint (spliceAll children)) ∧
          ((∀ cs, .root cs ∈ children → pruneAll cs = .nil) →
            n.hint = shownHint (g.childrenOf n.id)) := by
  intro g i n hNode hItem
  obtain ⟨k, style, hEntry, hId, hMade⟩ := listing_of_node hNode
  obtain ⟨properties, children, rfl⟩ := Kept.eq_listItem (hMade ▸ hItem)
  have hShown : shownHint (g.childrenOf n.id) = listItemHint (spliceAll children) := by
    rw [hId]
    exact shownHint_childrenOf hFresh hEntry
  have hHint : n.hint = listItemHint children := by
    rw [hMade]
    rfl
  refine ⟨properties, children, hEntry, hShown, by rw [hShown, hHint], ?_⟩
  intro hEmpty
  rw [hShown, hHint, listItemHint_eq, listItemHint_eq, faces_spliceAll_of_empty hEmpty]

/-- A list with a text in an inner root, and the same text as it is. -/
def rootedItem : Tree :=
  .element (some "ul") .empty
    [.element (some "li") .empty [.root [.text "x"]], .element (some "li") .empty [.text "x"]]

/-- Both items show one short text; only the second has its hint. -/
theorem hint_agrees_iff_rootedItem :
    let g := compile plainSettings (sequentialIds "n") rootedItem
    FreshIds plainSettings (sequentialIds "n") rootedItem ∧
      ∃ n m, g.nodes[1]? = some n ∧ n.tag = "li" ∧ g.nodes[3]? = some m ∧ m.tag = "li" ∧
        shownHint (g.childrenOf n.id) = some "h3" ∧ n.hint ≠ shownHint (g.childrenOf n.id) ∧
        m.hint = shownHint (g.childrenOf m.id) := by
  intro g
  have hFresh := freshIds_markdown (s := plainSettings) rfl rootedItem
  have hFirst := compile_getElem? plainSettings (sequentialIds "n") rootedItem 1
  have hSecond := compile_getElem? plainSettings (sequentialIds "n") rootedItem 3
  obtain ⟨properties, children, hEntry, hShown, hIff, _⟩ :=
    hint_agrees_iff plainSettings (sequentialIds "n") rootedItem hFresh 1 _ hFirst rfl
  cases hEntry
  obtain ⟨properties, children, hEntry, _, _, hAgrees⟩ :=
    hint_agrees_iff plainSettings (sequentialIds "n") rootedItem hFresh 3 _ hSecond rfl
  cases hEntry
  refine ⟨hFresh, _, _, hFirst, rfl, hSecond, rfl, ?_, ?_, ?_⟩
  · rw [hShown]
    decide +kernel
  · rw [Ne, hIff]
    decide +kernel
  · refine hAgrees ?_
    intro cs hMem
    simp at hMem

end PaneEngine.Pane
