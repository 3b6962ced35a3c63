import PaneEngine.Proofs.Json.Canonical
import PaneEngine.Proofs.Json.Limit
import PaneEngine.Tree.Json

/-!
# Trees that are written and read again

A tree is written with the kind of every node as a name, which is known again at
any depth.  The properties of an element are an object of their own, so none of
their keys is taken for a field of the node.  Fields that a node was read without
are written empty, so what is written may nest one array or object deeper than
what was read, but no more.

## Main definitions

* `Tree.IsCanonical` — the trees whose properties are in canonical form;
* `Tree.Fits` — what holds of the tree of a document that nests so deep;
* `deepDocument`, `deepTree` — elements in elements that say no more than they have to.

## Main results

* `ofValue?_toJson` — the document of a tree is read as the tree, at any depth;
* `fits_of_ofValue?` — what is read is canonical, and how deep it nests;
* `ofValue?_object_eq_other_iff` — which objects are read as nodes that are ignored;
* `read?_text_toJson` — the text of a tree is read as the tree, if it does not nest too deep;
* `reread_exact` — all of this about trees and about texts that are accepted;
* `deepest_not_reread` — a text within the limit whose tree is written past it.
-/

namespace PaneEngine.Tree

open Json (canonical? defaulted depthLimit dictOf? itemsDepth membersDepth ofDict optional)

/-! ## Canonical trees -/

mutual

/-- The properties of every element are in canonical form. -/
def IsCanonical : Tree → Prop
  | root children => AreCanonical children
  | element _ properties children => (ofDict properties).IsCanonical ∧ AreCanonical children
  | text _ => True
  | other => True

/-- All of the trees are canonical. -/
def AreCanonical : List Tree → Prop
  | [] => True
  | t :: rest => t.IsCanonical ∧ AreCanonical rest

end

/-! ## The document of a tree -/

theorem isReadable_root (children : List Tree) :
    (root children).toJson.isReadable = (toJsons children).all Json.isReadable := by
  rw [toJson, Json.isReadable_object, ← Json.isReadable_array]
  simp only [List.all_cons, List.all_nil, Bool.and_true]
  rfl

theorem isReadable_element (tag : Option String) (properties : Dict Json)
    (children : List Tree) :
    (element tag properties children).toJson.isReadable =
      ((ofDict properties).isReadable && (toJsons children).all Json.isReadable) := by
  rw [toJson, Json.isReadable_object, ← Json.isReadable_array]
  cases tag with
  | none =>
      simp only [Option.map_none, Option.toList_none, List.cons_append, List.nil_append,
        List.all_cons, List.all_nil, Bool.and_true]
      rfl
  | some tag =>
      simp only [Option.map_some, Option.toList_some, List.cons_append, List.nil_append,
        List.all_cons, List.all_nil, Bool.and_true]
      rfl

mutual

/-- Every part of the document of a canonical tree has a value. -/
theorem isReadable_toJson : ∀ {t : Tree}, t.IsCanonical → t.toJson.isReadable = true
  | root children, h => by
      rw [isReadable_root]
      exact all_isReadable_toJsons h
  | element tag properties children, h => by
      rw [isReadable_element, h.1.isReadable, all_isReadable_toJsons h.2]
      rfl
  | text _, _ => rfl
  | other, _ => rfl

theorem all_isReadable_toJsons : ∀ {ts : List Tree}, AreCanonical ts →
    (toJsons ts).all Json.isReadable = true
  | [], _ => rfl
  | _ :: _, h => by
      rw [toJsons, List.all_cons, isReadable_toJson h.1, all_isReadable_toJsons h.2]
      rfl

end

theorem depth_root (children : List Tree) :
    (root children).toJson.depth = itemsDepth (toJsons children) + 2 := by
  simp [toJson, Json.depth, membersDepth]

theorem depth_element (tag : Option String) (properties : Dict Json) (children : List Tree) :
    (element tag properties children).toJson.depth =
      max (ofDict properties).depth (itemsDepth (toJsons children) + 1) + 1 := by
  cases tag <;> simp [toJson, Json.depth, membersDepth]

/-! ## Reading it -/

theorem ofValue?_root (below : Bool) (children : List Tree) :
    ofValue? below (root children).toJson = (ofValues? (toJsons children)).map root := by
  rw [toJson]
  rfl

/-- Of an element the reader looks at the three fields alone, whatever keys are in the second. -/
theorem ofValue?_element (below : Bool) (tag : Option String) (properties : Dict Json)
    (children : List Tree) :
    ofValue? below (element tag properties children).toJson = do
      let ps ← dictOf? canonical? (ofDict properties)
      let ts ← ofValues? (toJsons children)
      return element tag ps ts := by
  rw [toJson]
  cases tag with
  | none => rfl
  | some tag => rfl

mutual

/-- **The document of a tree is read as the tree**, at the root and below. -/
theorem ofValue?_toJson : ∀ {t : Tree}, t.IsCanonical → ∀ below : Bool,
    ofValue? below t.toJson = some t
  | root children, h, below => by
      rw [ofValue?_root, ofValues?_toJsons h]
      rfl
  | element tag properties children, h, below => by
      have hProperties : dictOf? canonical? (ofDict properties) = some properties :=
        Json.dictOf?_canonical?_eq_some_iff.2 h.1
      rw [ofValue?_element, hProperties, ofValues?_toJsons h.2]
      rfl
  | text value, _, below => rfl
  | other, _, below => rfl

theorem ofValues?_toJsons : ∀ {ts : List Tree}, AreCanonical ts →
    ofValues? (toJsons ts) = some ts
  | [], _ => rfl
  | _ :: _, h => by
      rw [toJsons, ofValues?, ofValue?_toJson h.1, ofValues?_toJsons h.2]
      rfl

end

/-! ## What is read from a document -/

/-- What holds of the tree of a document that nests so deep. -/
structure Fits (depth : Nat) (t : Tree) : Prop where
  isCanonical : t.IsCanonical
  depth_le : t.toJson.depth ≤ depth + 1

/-- What holds of the trees of an array that nests so deep. -/
structure ChildrenFit (depth : Nat) (ts : List Tree) : Prop where
  areCanonical : AreCanonical ts
  depth_le : itemsDepth (toJsons ts) ≤ depth

theorem Fits.mono {depth depth' : Nat} {t : Tree} (h : Fits depth t) (hLe : depth ≤ depth') :
    Fits depth' t :=
  ⟨h.isCanonical, Nat.le_trans h.depth_le (Nat.succ_le_succ hLe)⟩

theorem fits_other (depth : Nat) : Fits depth other := ⟨trivial, Nat.le_add_left 1 depth⟩

theorem fits_text (depth : Nat) (value : String) : Fits depth (text value) :=
  ⟨trivial, Nat.le_add_left 1 depth⟩

theorem ChildrenFit.mono {depth depth' : Nat} {ts : List Tree} (h : ChildrenFit depth ts)
    (hLe : depth ≤ depth') : ChildrenFit depth' ts :=
  ⟨h.areCanonical, Nat.le_trans h.depth_le hLe⟩

theorem childrenFit_nil (depth : Nat) : ChildrenFit depth [] := ⟨trivial, Nat.zero_le depth⟩

theorem Fits.cons {depth : Nat} {t : Tree} {ts : List Tree} (hHead : Fits depth t)
    (hRest : ChildrenFit (depth + 1) ts) : ChildrenFit (depth + 1) (t :: ts) := by
  refine ⟨⟨hHead.isCanonical, hRest.areCanonical⟩, ?_⟩
  rw [toJsons, itemsDepth]
  exact Nat.max_le.2 ⟨hHead.depth_le, hRest.depth_le⟩

/-- The properties that are read are in canonical form and nest no deeper than they did. -/
theorem properties_fit {fields : List (String × Json)} {depth : Nat} {properties : Dict Json}
    (hFields : ∀ m ∈ fields, m.2.depth ≤ depth)
    (h : defaulted fields "properties" (dictOf? canonical?) .empty = some properties) :
    (ofDict properties).IsCanonical ∧ (ofDict properties).depth ≤ depth + 1 := by
  unfold defaulted at h
  split at h
  · cases h
    exact ⟨rfl, Nat.le_add_left 1 depth⟩
  · next j hLookup =>
    have hCanonical := Json.dictOf?_canonical?_eq_some_iff.1 h
    have hDepth : j.depth ≤ depth := hFields _ (Dict.mem_of_lookup hLookup)
    refine ⟨Json.isCanonical_of_canonical? hCanonical, ?_⟩
    exact Nat.le_succ_of_le (Nat.le_trans (Json.depth_canonical?_le hCanonical) hDepth)

theorem children_fit {lists : List (String × Option (List Tree))} {depth : Nat}
    {children : List Tree} (hLists : ∀ l ∈ lists, ∀ ts, l.2 = some ts → ChildrenFit depth ts)
    (h : (lists.lookup "children").getD (some []) = some children) :
    ChildrenFit depth children := by
  cases hLookup : lists.lookup "children" with
  | none =>
      rw [hLookup] at h
      cases h
      exact childrenFit_nil depth
  | some l =>
      rw [hLookup] at h
      exact hLists _ (Dict.mem_of_lookup hLookup) children h

theorem fits_of_ofFields? {k : Kind} {fields : List (String × Json)}
    {lists : List (String × Option (List Tree))} {depth : Nat} {t : Tree}
    (hFields : ∀ m ∈ fields, m.2.depth ≤ depth)
    (hLists : ∀ l ∈ lists, ∀ ts, l.2 = some ts → ChildrenFit depth ts)
    (h : ofFields? k fields lists = some t) : Fits (depth + 1) t := by
  cases k with
  | root =>
      obtain ⟨children, hChildren, rfl⟩ := Option.map_eq_some_iff.1 h
      have hFit := children_fit hLists hChildren
      refine ⟨hFit.areCanonical, ?_⟩
      rw [depth_root]
      exact Nat.add_le_add_right hFit.depth_le 2
  | element =>
      obtain ⟨tag, _, h⟩ := Option.bind_eq_some_iff.1 h
      obtain ⟨properties, hProperties, h⟩ := Option.bind_eq_some_iff.1 h
      obtain ⟨children, hChildren, h⟩ := Option.bind_eq_some_iff.1 h
      cases h
      have hFit := children_fit hLists hChildren
      obtain ⟨hCanonical, hDepth⟩ := properties_fit hFields hProperties
      refine ⟨⟨hCanonical, hFit.areCanonical⟩, ?_⟩
      rw [depth_element]
      exact Nat.succ_le_succ (Nat.max_le.2 ⟨hDepth, Nat.succ_le_succ hFit.depth_le⟩)
  | text =>
      obtain ⟨value, _, rfl⟩ := Option.map_eq_some_iff.1 h
      exact fits_text _ value
  | other =>
      cases h
      exact fits_other _

/-- The fields of a record lie inside the document. -/
theorem depth_lt_of_record? {names : List String} {j : Json} {fields : List (String × Json)}
    (h : j.record? names = some fields) : ∀ m ∈ fields, m.2.depth < j.depth := by
  intro m hMem
  cases j with
  | object members =>
      simp only [Json.record?] at h
      split at h
      · cases h
        exact Nat.lt_succ_of_le
          (Json.membersDepth_le_iff.1 (Nat.le_refl _) m (List.mem_filter.1 hMem).1)
      · cases h
  | array items =>
      simp only [Json.record?] at h
      split at h
      · cases h
        exact Nat.lt_succ_of_le
          (Json.itemsDepth_le_iff.1 (Nat.le_refl _) m.2 (List.of_mem_zip hMem).2)
      · cases h
  | _ => cases h

theorem fits_of_ofMembers? {below : Bool} {members : List (String × Json)}
    {lists : List (String × Option (List Tree))} {t : Tree}
    (hLists : ∀ l ∈ lists, ∀ ts, l.2 = some ts → ChildrenFit (membersDepth members) ts)
    (h : ofMembers? below members lists = some t) : Fits (membersDepth members + 1) t := by
  unfold ofMembers? at h
  split at h
  · obtain ⟨k, _, h⟩ := Option.bind_eq_some_iff.1 h
    split at h
    · cases h
      exact fits_other _
    · obtain ⟨fields, hRecord, h⟩ := Option.bind_eq_some_iff.1 h
      refine fits_of_ofFields? ?_ hLists h
      intro m hMem
      exact Nat.le_of_lt_succ (depth_lt_of_record? hRecord m hMem)
  · cases h

theorem fits_of_ofItems? {below : Bool} {items : List Json}
    {lists : List (Option (List Tree))} {t : Tree}
    (hLists : ∀ l ∈ lists, ∀ ts, l = some ts → ChildrenFit (itemsDepth items) ts)
    (h : ofItems? below items lists = some t) : Fits (itemsDepth items + 1) t := by
  cases items with
  | nil => cases h
  | cons tag rest =>
      obtain ⟨k, _, h⟩ := Option.bind_eq_some_iff.1 h
      obtain ⟨fields, hRecord, h⟩ := Option.bind_eq_some_iff.1 h
      refine fits_of_ofFields? ?_ ?_ h
      · intro m hMem
        exact Nat.le_trans (Nat.le_of_lt_succ (depth_lt_of_record? hRecord m hMem))
          (Nat.le_max_right _ _)
      · intro l hMem
        exact hLists l.2 (List.mem_of_mem_drop (List.of_mem_zip hMem).2)

mutual

/-- **What is read from a document** is canonical, and nests at most one deeper when written. -/
theorem fits_of_ofValue? : ∀ {j : Json} {below : Bool} {t : Tree},
    ofValue? below j = some t → Fits j.depth t
  | .object members, _, _, h => fits_of_ofMembers? (fit_of_memberLists members) h
  | .array items, _, _, h => fits_of_ofItems? (fit_of_itemLists items) h
  | .null, _, _, h => nomatch h
  | .bool _, _, _, h => nomatch h
  | .number _, _, _, h => nomatch h
  | .string _, _, _, h => nomatch h
  | .unreadable, _, _, h => nomatch h

theorem fit_of_listOf? : ∀ {j : Json} {ts : List Tree}, listOf? j = some ts → ChildrenFit j.depth ts
  | .array _, _, h => fit_of_ofValues? h
  | .object _, _, h => nomatch h
  | .null, _, h => nomatch h
  | .bool _, _, h => nomatch h
  | .number _, _, h => nomatch h
  | .string _, _, h => nomatch h
  | .unreadable, _, h => nomatch h

theorem fit_of_ofValues? : ∀ {items : List Json} {ts : List Tree},
    ofValues? items = some ts → ChildrenFit (itemsDepth items + 1) ts
  | [], _, h => by
      cases h
      exact childrenFit_nil _
  | j :: rest, _, h => by
      obtain ⟨t, hHead, h⟩ := Option.bind_eq_some_iff.1 h
      obtain ⟨ts, hRest, h⟩ := Option.bind_eq_some_iff.1 h
      cases h
      have hDepth : itemsDepth (j :: rest) = max j.depth (itemsDepth rest) := rfl
      rw [hDepth]
      exact ((fits_of_ofValue? hHead).mono (Nat.le_max_left _ _)).cons
        ((fit_of_ofValues? hRest).mono (Nat.succ_le_succ (Nat.le_max_right _ _)))

theorem fit_of_memberLists : ∀ (members : List (String × Json)), ∀ l ∈ memberLists members,
    ∀ ts, l.2 = some ts → ChildrenFit (membersDepth members) ts
  | [], _, hMem, _, _ => nomatch hMem
  | (_, j) :: rest, l, hMem, ts, h => by
      rcases List.mem_cons.1 hMem with rfl | hRest
      · exact (fit_of_listOf? h).mono (Nat.le_max_left _ _)
      · exact (fit_of_memberLists rest l hRest ts h).mono (Nat.le_max_right _ _)

theorem fit_of_itemLists : ∀ (items : List Json), ∀ l ∈ itemLists items,
    ∀ ts, l = some ts → ChildrenFit (itemsDepth items) ts
  | [], _, hMem, _, _ => nomatch hMem
  | j :: rest, l, hMem, ts, h => by
      rcases List.mem_cons.1 hMem with rfl | hRest
      · exact (fit_of_listOf? h).mono (Nat.le_max_left _ _)
      · exact (fit_of_itemLists rest l hRest ts h).mono (Nat.le_max_right _ _)

end

/-! ## Nodes that are ignored -/

theorem ne_other_of_ofFields? {k : Kind} {fields : List (String × Json)}
    {lists : List (String × Option (List Tree))} (hKind : k ≠ .other) :
    ofFields? k fields lists ≠ some other := by
  intro h
  cases k with
  | root =>
      obtain ⟨_, _, hEq⟩ := Option.map_eq_some_iff.1 h
      cases hEq
  | element =>
      obtain ⟨_, _, h⟩ := Option.bind_eq_some_iff.1 h
      obtain ⟨_, _, h⟩ := Option.bind_eq_some_iff.1 h
      obtain ⟨_, _, h⟩ := Option.bind_eq_some_iff.1 h
      cases h
  | text =>
      obtain ⟨_, _, hEq⟩ := Option.map_eq_some_iff.1 h
      cases hEq
  | other => exact hKind rfl

/-- **An object is read as a node that is ignored** exactly if its kind, told once, is not one of
the three that are known, whatever else it holds. -/
theorem ofValue?_object_eq_other_iff (below : Bool) (members : List (String × Json)) :
    ofValue? below (.object members) = some other ↔
      ∃ m, members.filter (fun m => m.1 = "type") = [m] ∧
        Kind.ofJson? below m.2 = some .other := by
  show ofMembers? below members (memberLists members) = some other ↔ _
  unfold ofMembers?
  constructor
  · intro h
    split at h
    · next name tag hType =>
      obtain ⟨k, hKind, h⟩ := Option.bind_eq_some_iff.1 h
      split at h
      · next hOther => exact ⟨_, hType, hOther ▸ hKind⟩
      · next hKnown =>
        obtain ⟨fields, _, h⟩ := Option.bind_eq_some_iff.1 h
        exact absurd h (ne_other_of_ofFields? hKnown)
    · cases h
  · rintro ⟨⟨name, tag⟩, hType, hKind⟩
    rw [hType]
    show (Kind.ofJson? below tag).bind _ = _
    rw [hKind]
    rfl

/-! ## Texts -/

/-- The text of a canonical tree is read as the tree if it nests within the limit, and not at all
if it nests deeper. -/
theorem read?_text_toJson {t : Tree} (h : t.IsCanonical)
    (hNumbers : ∀ n ∈ t.toJson.numbers, n.ReadsBack) :
    read? t.toJson.text = if t.toJson.depth ≤ depthLimit then some t else none := by
  have hText : read? t.toJson.text = ofJson? (Json.cut 0 t.toJson) := by
    rw [read?, Json.read?_text hNumbers, Option.bind_some]
  have hValue := isReadable_toJson h
  have hCut := Json.isReadable_cut t.toJson (Nat.zero_le depthLimit)
  rw [Nat.zero_add] at hCut
  rw [hText, ofJson?]
  by_cases hDepth : t.toJson.depth ≤ depthLimit
  · rw [if_pos (hCut.2 hDepth), if_pos hDepth, Json.cut_eq_self t.toJson hValue (by omega),
      ofValue?_toJson h]
  · rw [if_neg hDepth, if_neg fun hRead => hDepth (hCut.1 hRead)]

/-- Where all numbers are integers of 64 bits, nothing has to be granted. -/
theorem read?_text_toJson_of_integers {t : Tree} (h : t.IsCanonical)
    (hNumbers : ∀ n ∈ t.toJson.numbers, ∃ i : Int,
      n = .int i ∧ -(Nat.pow 2 63 : Nat) ≤ i ∧ i < (Nat.pow 2 64 : Nat))
    (hDepth : t.toJson.depth ≤ depthLimit) : read? t.toJson.text = some t := by
  rw [read?_text_toJson h, if_pos hDepth]
  intro n hMem
  obtain ⟨i, rfl, hLow, hHigh⟩ := hNumbers n hMem
  exact Json.readsBack_int hLow hHigh

/-- A text that is accepted nests within the limit, and what is read fits it. -/
theorem fits_of_read? {s : String} {t : Tree} (h : read? s = some t) :
    ∃ j, Json.read? s = some j ∧ j.depth ≤ depthLimit ∧ Fits j.depth t := by
  obtain ⟨j, hRead, h⟩ := Option.bind_eq_some_iff.1 h
  rw [ofJson?] at h
  split at h
  · next hValue =>
    exact ⟨j, hRead, Json.depth_le_of_read? hRead hValue, fits_of_ofValue? h⟩
  · cases h

/-- **Trees are reread exactly, as far as they nest.**  A tree whose properties are values — no key
twice, every part readable — is read back from its text as it is exactly if that text nests within
the limit, granted that its numbers are; of integers of 64 bits that need not be granted.  What a
text is read as is such a tree, so of its own text the same holds.  That text may nest one deeper
than the text that was read, since fields that a node left out are written empty, but no more; so it
is refused only if the text that was read is as deep as the limit allows.  At the root (`below` is
false) as at any depth below it, an object is read as a node that is ignored exactly if the kind it
tells is none of the known ones. -/
theorem reread_exact :
    (∀ t : Tree, t.IsCanonical → (∀ n ∈ t.toJson.numbers, n.ReadsBack) →
      read? t.toJson.text = if t.toJson.depth ≤ depthLimit then some t else none) ∧
    (∀ t : Tree, t.IsCanonical →
      (∀ n ∈ t.toJson.numbers, ∃ i : Int,
        n = .int i ∧ -(Nat.pow 2 63 : Nat) ≤ i ∧ i < (Nat.pow 2 64 : Nat)) →
      t.toJson.depth ≤ depthLimit → read? t.toJson.text = some t) ∧
    (∀ (s : String) (t : Tree), read? s = some t →
      t.IsCanonical ∧
      (∃ j, Json.read? s = some j ∧ j.depth ≤ depthLimit ∧ t.toJson.depth ≤ j.depth + 1 ∧
        ((∀ n ∈ t.toJson.numbers, n.ReadsBack) →
          (read? t.toJson.text = if t.toJson.depth ≤ depthLimit then some t else none) ∧
          (j.depth < depthLimit → read? t.toJson.text = some t)))) ∧
    (∀ (below : Bool) (members : List (String × Json)),
      ofValue? below (.object members) = some other ↔
        ∃ m, members.filter (fun m => m.1 = "type") = [m] ∧
          Kind.ofJson? below m.2 = some .other) := by
  refine ⟨fun t h hNumbers => read?_text_toJson h hNumbers,
    fun t h hNumbers hDepth => read?_text_toJson_of_integers h hNumbers hDepth, ?_,
    ofValue?_object_eq_other_iff⟩
  intro s t hRead
  obtain ⟨j, hJson, hLimit, hFits⟩ := fits_of_read? hRead
  refine ⟨hFits.isCanonical, j, hJson, hLimit, hFits.depth_le, ?_⟩
  intro hNumbers
  have hOwn := read?_text_toJson hFits.isCanonical hNumbers
  refine ⟨hOwn, ?_⟩
  intro hBelow
  rw [hOwn, if_pos (Nat.le_trans hFits.depth_le hBelow)]

/-- The properties of an element, called like the fields of a node. -/
def confusingProperties : Dict Json :=
  .ofList [("type", .string "text"), ("tagName", .object [("children", .array [.int 3, .null])]),
    ("children", .number (.double ⟨true, 0x3FF8000000000000, by decide⟩))]

/-- An element without a tag name, one with a tag name and a comment. -/
def confusingTree : Tree :=
  .root [.element none confusingProperties [.text "a \"b\"", .other],
    .element (some "p") .empty []]

/-- A document of the tree, in which a key of a property is repeated, fields are left out and
others are unknown. -/
def confusingDocument : Json :=
  .object [("type", .string "root"), ("children", .array [
    .object [("properties", .object (("type", .bool true) :: confusingProperties.entries)),
      ("type", .string "element"), ("position", .null),
      ("children", .array [.object [("type", .string "text"), ("value", .string "a \"b\"")],
        .object [("value", .string "x"), ("type", .string "comment")]])],
    .object [("tagName", .string "p"), ("type", .string "element")]])]

/-- The tree is read from the document, with the comment as a node that is ignored, and again from
its own text. -/
theorem reread_exact_confusingTree :
    confusingTree.IsCanonical ∧ (∀ n ∈ confusingTree.toJson.numbers, n.ReadsBack) ∧
      confusingTree.toJson.depth ≤ depthLimit ∧
      read? confusingTree.toJson.text = some confusingTree ∧
      read? confusingDocument.text = some confusingTree ∧
      ofValue? true (.object [("value", .string "x"), ("type", .string "comment")]) =
        some other := by
  obtain ⟨hTree, _, hText, hIgnored⟩ := reread_exact
  have hNumbers : ∀ n ∈ confusingTree.toJson.numbers, n.ReadsBack := by decide +kernel
  have hDepth : confusingTree.toJson.depth ≤ depthLimit := by decide
  have hSource : Json.read? confusingDocument.text = some confusingDocument :=
    Json.read?_text_of_depth_le (by decide +kernel) rfl (by decide)
  have hRead : read? confusingDocument.text = some confusingTree := by
    rw [read?, hSource]
    rfl
  obtain ⟨hCanonical, _, _⟩ := hText _ _ hRead
  have hOwn := hTree _ hCanonical hNumbers
  rw [if_pos hDepth] at hOwn
  exact ⟨hCanonical, hNumbers, hDepth, hOwn, hRead, (hIgnored _ _).2 ⟨_, rfl, rfl⟩⟩

/-! ## The deepest documents -/

/-- An element in elements, with no more members than it takes to say so. -/
def deepDocument : Nat → Json
  | 0 => .object [("type", .string "element")]
  | n + 1 => .object [("type", .string "element"), ("children", .array [deepDocument n])]

/-- The tree of such a document. -/
def deepTree : Nat → Tree
  | 0 => .element none .empty []
  | n + 1 => .element none .empty [deepTree n]

theorem depth_deepDocument (n : Nat) : (deepDocument n).depth = 2 * n + 1 := by
  induction n with
  | zero => rfl
  | succ n ih =>
      simp only [deepDocument, Json.depth, membersDepth, itemsDepth, ih]
      omega

theorem isReadable_deepDocument (n : Nat) : (deepDocument n).isReadable = true := by
  induction n with
  | zero => rfl
  | succ n ih =>
      have hItems : (Json.array [deepDocument n]).isReadable = true := by
        rw [Json.isReadable_array, List.all_cons, ih]
        rfl
      rw [deepDocument, Json.isReadable_object, List.all_cons, List.all_cons, hItems]
      rfl

theorem numbers_deepDocument (n : Nat) : (deepDocument n).numbers = [] := by
  induction n with
  | zero => rfl
  | succ n ih => simp [deepDocument, Json.numbers, Json.memberNumbers, Json.itemNumbers, ih]

theorem ofValue?_deepDocument (n : Nat) (below : Bool) :
    ofValue? below (deepDocument n) = some (deepTree n) := by
  induction n generalizing below with
  | zero => rfl
  | succ n ih =>
      have hLists :
          memberLists [("type", .string "element"), ("children", .array [deepDocument n])] =
            [("type", none), ("children", some [deepTree n])] := by
        simp [memberLists, listOf?, ofValues?, ih]
      rw [deepDocument, ofValue?, hLists]
      rfl

theorem numbers_deepTree (n : Nat) : (deepTree n).toJson.numbers = [] := by
  induction n with
  | zero => rfl
  | succ n ih =>
      rw [deepTree, toJson]
      simp [toJsons, Json.numbers, Json.memberNumbers, Json.itemNumbers, ofDict, Dict.empty, ih]

/-- The innermost element is written with properties and children that it was read without, so
however deep such a document nests, what is written of its tree nests one deeper. -/
theorem depth_deepTree (n : Nat) : (deepTree n).toJson.depth = 2 * n + 2 := by
  induction n with
  | zero => rfl
  | succ n ih =>
      rw [deepTree, depth_element, toJsons, toJsons, itemsDepth, itemsDepth, ih]
      show max 1 _ + 1 = _
      omega

/-- **The deepest documents are not all reread.**  A document of 127 arrays and objects in each
other is read, but what is written of its tree is 128 deep and is refused. -/
theorem deepest_not_reread :
    (deepDocument 63).depth = depthLimit ∧
      Json.read? (deepDocument 63).text = some (deepDocument 63) ∧
      read? (deepDocument 63).text = some (deepTree 63) ∧
      (deepTree 63).toJson.numbers = [] ∧
      (deepTree 63).toJson.depth = depthLimit + 1 ∧
      read? (deepTree 63).toJson.text = none := by
  have hNumbers : (deepTree 63).toJson.numbers = [] := numbers_deepTree 63
  have hSource : Json.read? (deepDocument 63).text = some (deepDocument 63) := by
    refine Json.read?_text_of_depth_le ?_ (isReadable_deepDocument 63) ?_
    · rw [numbers_deepDocument]
      exact fun n hMem => nomatch hMem
    · rw [depth_deepDocument]
      decide
  have hRead : read? (deepDocument 63).text = some (deepTree 63) := by
    rw [read?, hSource, Option.bind_some, ofJson?, if_pos (isReadable_deepDocument 63),
      ofValue?_deepDocument]
  have hOwn : read? (deepTree 63).toJson.text = none := by
    have hCanonical := (fits_of_ofValue? (ofValue?_deepDocument 63 false)).isCanonical
    rw [read?_text_toJson hCanonical (by simp [hNumbers]), depth_deepTree]
    rfl
  exact ⟨depth_deepDocument 63, hSource, hRead, hNumbers, depth_deepTree 63, hOwn⟩

end PaneEngine.Tree
