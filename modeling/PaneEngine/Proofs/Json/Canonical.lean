import PaneEngine.Proofs.Json.Encoding
import PaneEngine.Proofs.Json.Nesting

/-!
# Documents in canonical form

A document is in canonical form if bringing it into that form leaves it as it
is: every part has a value, and the members of every object stand by ascending
key, each key once.  Bringing a document into canonical form only sorts and
drops members, so it never nests deeper than before.

## Main definitions

* `Json.IsCanonical` — a document in canonical form.

## Main results

* `isCanonical_of_canonical?` — the canonical form is in canonical form;
* `depth_canonical?_le` — and does not nest deeper;
* `dictOf?_canonical?_eq_some_iff` — which dictionary an object is read as.
-/

namespace PaneEngine.Json

/-- The document is in canonical form. -/
def IsCanonical (j : Json) : Prop := j.canonical? = some j

theorem IsCanonical.isReadable {j : Json} (h : j.IsCanonical) : j.isReadable = true := by
  unfold Json.isReadable
  rw [h]
  rfl

/-! ## The canonical form -/

theorem canonicalItems?_eq_self {items : List Json} (h : ∀ j ∈ items, j.IsCanonical) :
    canonicalItems? items = some items := by
  induction items with
  | nil => rfl
  | cons j rest ih =>
      obtain ⟨hHead, hRest⟩ := List.forall_mem_cons.1 h
      rw [canonicalItems?, hHead, ih hRest]
      rfl

theorem canonicalMembers?_eq_self {members : List (String × Json)}
    (h : ∀ m ∈ members, m.2.IsCanonical) : canonicalMembers? members = some members := by
  induction members with
  | nil => rfl
  | cons m rest ih =>
      obtain ⟨k, j⟩ := m
      obtain ⟨hHead, hRest⟩ := List.forall_mem_cons.1 h
      rw [canonicalMembers?, show j.canonical? = some j from hHead, ih hRest]
      rfl

theorem isCanonical_ofDict {d : Dict Json} (h : ∀ m ∈ d.entries, m.2.IsCanonical) :
    (ofDict d).IsCanonical := by
  show (canonicalMembers? d.entries).map _ = _
  rw [canonicalMembers?_eq_self h, Option.map_some, Dict.ofList_entries]
  rfl

mutual

/-- **The canonical form is in canonical form.** -/
theorem isCanonical_of_canonical? : ∀ {raw j : Json}, raw.canonical? = some j → j.IsCanonical
  | null, _, h => by
      cases h
      rfl
  | bool _, _, h => by
      cases h
      rfl
  | number _, _, h => by
      cases h
      rfl
  | string _, _, h => by
      cases h
      rfl
  | array _, _, h => by
      obtain ⟨items, hItems, rfl⟩ := Option.map_eq_some_iff.1 h
      show (canonicalItems? items).map array = _
      rw [canonicalItems?_eq_self (isCanonical_of_canonicalItems? hItems)]
      rfl
  | object _, _, h => by
      obtain ⟨members, hMembers, rfl⟩ := Option.map_eq_some_iff.1 h
      refine isCanonical_ofDict ?_
      intro m hMem
      exact isCanonical_of_canonicalMembers? hMembers m (Dict.mem_of_mem_ofList hMem)
  | unreadable, _, h => nomatch h

theorem isCanonical_of_canonicalItems? : ∀ {raw items : List Json},
    canonicalItems? raw = some items → ∀ j ∈ items, j.IsCanonical
  | [], _, h => by
      cases h
      exact fun j hMem => absurd hMem List.not_mem_nil
  | _ :: _, _, h => by
      obtain ⟨j, hHead, h⟩ := Option.bind_eq_some_iff.1 h
      obtain ⟨rest, hRest, h⟩ := Option.bind_eq_some_iff.1 h
      cases h
      exact List.forall_mem_cons.2
        ⟨isCanonical_of_canonical? hHead, isCanonical_of_canonicalItems? hRest⟩

theorem isCanonical_of_canonicalMembers? : ∀ {raw members : List (String × Json)},
    canonicalMembers? raw = some members → ∀ m ∈ members, m.2.IsCanonical
  | [], _, h => by
      cases h
      exact fun m hMem => absurd hMem List.not_mem_nil
  | (_, _) :: _, _, h => by
      obtain ⟨j, hHead, h⟩ := Option.bind_eq_some_iff.1 h
      obtain ⟨rest, hRest, h⟩ := Option.bind_eq_some_iff.1 h
      cases h
      exact List.forall_mem_cons.2
        ⟨isCanonical_of_canonical? hHead, isCanonical_of_canonicalMembers? hRest⟩

end

/-! ## Its nesting -/

theorem membersDepth_ofList_le (members : List (String × Json)) :
    membersDepth (Dict.ofList members).entries ≤ membersDepth members := by
  refine membersDepth_le_iff.2 ?_
  intro m hMem
  exact membersDepth_le_iff.1 (Nat.le_refl _) m (Dict.mem_of_mem_ofList hMem)

mutual

/-- The canonical form nests no deeper than the document. -/
theorem depth_canonical?_le : ∀ {raw j : Json}, raw.canonical? = some j → j.depth ≤ raw.depth
  | null, _, h => by
      cases h
      exact Nat.le_refl _
  | bool _, _, h => by
      cases h
      exact Nat.le_refl _
  | number _, _, h => by
      cases h
      exact Nat.le_refl _
  | string _, _, h => by
      cases h
      exact Nat.le_refl _
  | array _, _, h => by
      obtain ⟨items, hItems, rfl⟩ := Option.map_eq_some_iff.1 h
      exact Nat.succ_le_succ (itemsDepth_canonicalItems?_le hItems)
  | object _, _, h => by
      obtain ⟨members, hMembers, rfl⟩ := Option.map_eq_some_iff.1 h
      exact Nat.succ_le_succ (Nat.le_trans (membersDepth_ofList_le members)
        (membersDepth_canonicalMembers?_le hMembers))
  | unreadable, _, h => nomatch h

theorem itemsDepth_canonicalItems?_le : ∀ {raw items : List Json},
    canonicalItems? raw = some items → itemsDepth items ≤ itemsDepth raw
  | [], _, h => by
      cases h
      exact Nat.le_refl _
  | _ :: _, _, h => by
      obtain ⟨j, hHead, h⟩ := Option.bind_eq_some_iff.1 h
      obtain ⟨rest, hRest, h⟩ := Option.bind_eq_some_iff.1 h
      cases h
      have hHeadDepth := depth_canonical?_le hHead
      have hRestDepth := itemsDepth_canonicalItems?_le hRest
      rw [itemsDepth, itemsDepth]
      omega

theorem membersDepth_canonicalMembers?_le : ∀ {raw members : List (String × Json)},
    canonicalMembers? raw = some members → membersDepth members ≤ membersDepth raw
  | [], _, h => by
      cases h
      exact Nat.le_refl _
  | (_, _) :: _, _, h => by
      obtain ⟨j, hHead, h⟩ := Option.bind_eq_some_iff.1 h
      obtain ⟨rest, hRest, h⟩ := Option.bind_eq_some_iff.1 h
      cases h
      have hHeadDepth := depth_canonical?_le hHead
      have hRestDepth := membersDepth_canonicalMembers?_le hRest
      rw [membersDepth, membersDepth]
      omega

end

/-! ## Dictionaries of documents -/

theorem mapM_canonical? (members : List (String × Json)) :
    (members.mapM fun m => (canonical? m.2).map fun j => (m.1, j)) =
      canonicalMembers? members := by
  induction members with
  | nil => rfl
  | cons m rest ih =>
      obtain ⟨k, j⟩ := m
      rw [List.mapM_cons, ih, canonicalMembers?]
      cases canonical? j with
      | none => rfl
      | some j => rfl

/-- **The dictionary read from a document** is the one that its canonical form is written from. -/
theorem dictOf?_canonical?_eq_some_iff {j : Json} {d : Dict Json} :
    dictOf? canonical? j = some d ↔ j.canonical? = some (ofDict d) := by
  cases j with
  | object members =>
      rw [dictOf?, mapM_canonical?, canonical?, Option.map_eq_some_iff, Option.map_eq_some_iff]
      constructor
      · rintro ⟨ms, hMembers, rfl⟩
        exact ⟨ms, hMembers, rfl⟩
      · rintro ⟨ms, hMembers, hObject⟩
        exact ⟨ms, hMembers, Dict.ext_entries (object.inj hObject)⟩
  | array items =>
      constructor
      · intro h
        cases h
      · intro h
        obtain ⟨_, _, hArray⟩ := Option.map_eq_some_iff.1 h
        cases hArray
  | _ =>
      constructor
      · intro h
        cases h
      · intro h
        cases h

end PaneEngine.Json
