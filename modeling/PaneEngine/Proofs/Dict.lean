import PaneEngine.Dict

/-!
# Look-ups in dictionaries

What the operations of a dictionary do to its look-ups.

## Main results

* `get?_insert`, `get?_filter`, `get?_erase` — which look-ups an operation changes;
* `get?_ofList`, `get?_map`, `get?_filterMap` — the look-ups of pairs and of mapped values;
* `mem_entries_iff` — the entries are the look-ups that have an answer;
* `ext_get?` — a dictionary is what its look-ups answer.
-/

namespace PaneEngine.Dict

variable {α β γ : Type}

theorem lookup_cons_eq_if {κ : Type} [DecidableEq κ] (k key : κ) (value : α)
    (es : List (κ × α)) :
    ((key, value) :: es).lookup k = if k = key then some value else es.lookup k := by
  by_cases hk : k = key
  · simp [hk]
  · have hBeq : (k == key) = false := by simpa using hk
    simp [List.lookup_cons, hBeq, hk]

/-- A key that no entry has is not found. -/
theorem lookup_eq_none_of_not_mem {κ : Type} [BEq κ] [LawfulBEq κ] {k : κ} {es : List (κ × α)}
    (h : k ∉ es.map (·.1)) : es.lookup k = none := by
  refine List.lookup_eq_none_iff.2 ?_
  intro e hMem
  have hNe : k ≠ e.1 := fun hEq => h (List.mem_map.2 ⟨e, hMem, hEq.symm⟩)
  simpa using hNe

theorem mem_of_lookup {k : String} {a : α} {es : List (String × α)} (h : es.lookup k = some a) :
    (k, a) ∈ es := by
  obtain ⟨before, after, hEntries, _⟩ := List.lookup_eq_some_iff.1 h
  rw [hEntries]
  exact List.mem_append_right before List.mem_cons_self

/-- The order of the entries does not matter here: a key that is passed over is not the one
looked up. -/
theorem lookup_insertEntry (key k : String) (value : α) (es : List (String × α)) :
    (insertEntry key value es).lookup k = if k = key then some value else es.lookup k := by
  induction es with
  | nil => exact lookup_cons_eq_if k key value []
  | cons entry rest ih =>
      obtain ⟨key', value'⟩ := entry
      unfold insertEntry
      by_cases hLt : key < key'
      · rw [if_pos hLt, lookup_cons_eq_if]
      · rw [if_neg hLt]
        by_cases hEq : key = key'
        · rw [if_pos hEq, ← hEq]
          simp only [lookup_cons_eq_if]
          by_cases hk : k = key
          · simp only [if_pos hk]
          · simp only [if_neg hk]
        · rw [if_neg hEq]
          simp only [lookup_cons_eq_if, ih]
          by_cases hk : k = key'
          · have hne : k ≠ key := fun h => hEq (h.symm.trans hk)
            simp only [if_pos hk, if_neg hne]
          · simp only [if_neg hk]

/-- Inserting a value changes the look-up of its key alone. -/
theorem get?_insert (d : Dict α) (key k : String) (value : α) :
    (d.insert key value).get? k = if k = key then some value else d.get? k :=
  lookup_insertEntry key k value d.entries

theorem lookup_concat (k : String) (es : List (String × α)) (e : String × α) :
    (es ++ [e]).lookup k = (es.lookup k).or (if k = e.1 then some e.2 else none) := by
  rw [List.lookup_append, lookup_cons_eq_if]
  rfl

theorem get?_foldl_insert (pairs : List (String × α)) (d : Dict α) (k : String) :
    (pairs.foldl (fun d p => d.insert p.1 p.2) d).get? k =
      (pairs.reverse.lookup k).or (d.get? k) := by
  induction pairs generalizing d with
  | nil => rfl
  | cons p pairs ih =>
      rw [List.foldl_cons, ih, get?_insert, List.reverse_cons, lookup_concat]
      by_cases hk : k = p.1
      · simp only [if_pos hk, Option.or_assoc, Option.some_or]
      · simp only [if_neg hk, Option.or_none]

/-- Of a list of pairs the last pair of a key is found. -/
theorem get?_ofList (pairs : List (String × α)) (k : String) :
    (ofList pairs).get? k = pairs.reverse.lookup k := by
  rw [ofList, get?_foldl_insert]
  exact Option.or_none

theorem mem_of_mem_foldl_insert {pairs : List (String × α)} {d : Dict α} {e : String × α}
    (h : e ∈ (pairs.foldl (fun d p => d.insert p.1 p.2) d).entries) :
    e ∈ pairs ∨ e ∈ d.entries := by
  induction pairs generalizing d with
  | nil => exact .inr h
  | cons p pairs ih =>
      rcases ih h with hRest | hInserted
      · exact .inl (List.mem_cons_of_mem _ hRest)
      · rcases mem_insertEntry hInserted with rfl | hOld
        · exact .inl List.mem_cons_self
        · exact .inr hOld

theorem mem_of_mem_ofList {pairs : List (String × α)} {e : String × α}
    (h : e ∈ (ofList pairs).entries) : e ∈ pairs := by
  rcases mem_of_mem_foldl_insert h with hPair | hEmpty
  · exact hPair
  · exact absurd hEmpty List.not_mem_nil

theorem lookup_map (f : String → α → β) (es : List (String × α)) (k : String) :
    (es.map fun e => (e.1, f e.1 e.2)).lookup k = (es.lookup k).map (f k) := by
  induction es with
  | nil => rfl
  | cons e es ih =>
      rw [List.map_cons, lookup_cons_eq_if, lookup_cons_eq_if, ih]
      by_cases hk : k = e.1
      · rw [if_pos hk, if_pos hk, hk]
        rfl
      · rw [if_neg hk, if_neg hk]

theorem get?_map (f : String → α → β) (d : Dict α) (k : String) :
    (d.map f).get? k = (d.get? k).map (f k) :=
  lookup_map f d.entries k

/-! ## Removing -/

/-- Keys alone decide here, so that the entries of one key all stay or all go. -/
theorem lookup_filter_key (keep : String → Bool) (k : String) (es : List (String × α)) :
    (es.filter fun e => keep e.1).lookup k = if keep k then es.lookup k else none := by
  induction es with
  | nil => simp
  | cons entry rest ih =>
      obtain ⟨key, value⟩ := entry
      rw [List.filter_cons, lookup_cons_eq_if]
      by_cases hk : k = key
      · subst hk
        by_cases hKeep : keep k = true
        · rw [if_pos hKeep, if_pos hKeep, if_pos rfl, lookup_cons_eq_if, if_pos rfl]
        · rw [if_neg hKeep, if_neg hKeep, ih, if_neg hKeep]
      · rw [if_neg hk, ← ih]
        by_cases hKeep : keep key = true
        · rw [if_pos hKeep, lookup_cons_eq_if, if_neg hk]
        · rw [if_neg hKeep]

theorem get?_filter (keep : String → Bool) (d : Dict α) (k : String) :
    (d.filter fun key _ => keep key).get? k = if keep k then d.get? k else none :=
  lookup_filter_key keep k d.entries

theorem get?_erase (d : Dict α) (key k : String) :
    (d.erase key).get? k = if k = key then none else d.get? k := by
  have hFilter := get?_filter (fun k' => decide (k' ≠ key)) d k
  refine hFilter.trans ?_
  by_cases hk : k = key
  · simp [hk]
  · simp [hk]

theorem contains_iff (d : Dict α) (key : String) : d.contains key = true ↔ d.get? key ≠ none :=
  Option.isSome_iff_ne_none

theorem map_map (f : String → α → β) (g : String → β → γ) (d : Dict α) :
    (d.map f).map g = d.map fun k a => g k (f k a) := by
  unfold map
  simp only [List.map_map]
  rfl

/-- Where every image is read as a value, mapping and reading is mapping at once. -/
theorem entries_filterMap_map {f : String → α → β} {g : String → β → Option γ} {h : α → γ}
    {d : Dict α} (hRead : ∀ e ∈ d.entries, g e.1 (f e.1 e.2) = some (h e.2)) :
    ((d.map f).filterMap g).entries = d.entries.map fun e => (e.1, h e.2) := by
  show (d.entries.map fun e => (e.1, f e.1 e.2)).filterMap _ = _
  generalize d.entries = es at hRead
  induction es with
  | nil => rfl
  | cons e es ih =>
      rw [List.map_cons, List.filterMap_cons_some (by rw [hRead e List.mem_cons_self]; rfl),
        ih fun e' hMem => hRead e' (List.mem_cons_of_mem _ hMem)]
      rfl

/-! ## Extensionality -/

theorem lookup_eq_none_of_lt {k : String} {es : List (String × α)} (h : ∀ e ∈ es, k < e.1) :
    es.lookup k = none := by
  refine lookup_eq_none_of_not_mem ?_
  intro hMem
  obtain ⟨e, hEntry, hKey⟩ := List.mem_map.1 hMem
  exact String.lt_irrefl k (hKey ▸ h e hEntry)

/-- A first key that comes before all keys of the other list is not found there. -/
theorem not_lt_of_lookup {a b : String × α} {as bs : List (String × α)}
    (hb : (b :: bs).Pairwise fun x y => x.1 < y.1)
    (h : ∀ k, (a :: as).lookup k = (b :: bs).lookup k) : ¬ a.1 < b.1 := by
  intro hLt
  have hNone : (b :: bs).lookup a.1 = none := by
    refine lookup_eq_none_of_lt ?_
    intro e hMem
    rcases List.mem_cons.1 hMem with rfl | hRest
    · exact hLt
    · exact String.lt_trans hLt ((List.pairwise_cons.1 hb).1 e hRest)
  rw [← h, lookup_cons_eq_if, if_pos rfl] at hNone
  cases hNone

theorem key_eq_of_lookup {a b : String × α} {as bs : List (String × α)}
    (ha : (a :: as).Pairwise fun x y => x.1 < y.1) (hb : (b :: bs).Pairwise fun x y => x.1 < y.1)
    (h : ∀ k, (a :: as).lookup k = (b :: bs).lookup k) : a.1 = b.1 := by
  by_cases hEq : a.1 = b.1
  · exact hEq
  · have hAfter : b.1 < a.1 := lt_of_not_lt_of_ne (not_lt_of_lookup hb h) hEq
    exact absurd hAfter (not_lt_of_lookup ha fun k => (h k).symm)

theorem eq_of_lookup {as bs : List (String × α)} (ha : as.Pairwise fun x y => x.1 < y.1)
    (hb : bs.Pairwise fun x y => x.1 < y.1) (h : ∀ k, as.lookup k = bs.lookup k) : as = bs := by
  induction as generalizing bs with
  | nil =>
      cases bs with
      | nil => rfl
      | cons b bs =>
          have hFound := h b.1
          rw [lookup_cons_eq_if, if_pos rfl] at hFound
          cases hFound
  | cons a as ih =>
      cases bs with
      | nil =>
          have hFound := h a.1
          rw [lookup_cons_eq_if, if_pos rfl] at hFound
          cases hFound
      | cons b bs =>
          obtain ⟨key, value⟩ := a
          obtain ⟨key', value'⟩ := b
          have hKey : key = key' := key_eq_of_lookup ha hb h
          subst hKey
          have hValue := h key
          simp only [lookup_cons_eq_if, if_true] at hValue
          obtain ⟨haHead, haRest⟩ := List.pairwise_cons.1 ha
          obtain ⟨hbHead, hbRest⟩ := List.pairwise_cons.1 hb
          have hRest : as = bs := by
            refine ih haRest hbRest ?_
            intro k
            by_cases hk : k = key
            · rw [hk, lookup_eq_none_of_lt haHead, lookup_eq_none_of_lt hbHead]
            · have hLook := h k
              rw [lookup_cons_eq_if, lookup_cons_eq_if, if_neg hk, if_neg hk] at hLook
              exact hLook
          rw [hRest, Option.some.inj hValue]

theorem nodup_keys (d : Dict α) : (d.entries.map (·.1)).Nodup := by
  refine List.pairwise_map.2 (d.sorted.imp ?_)
  intro a b hLt hEq
  exact String.lt_irrefl _ (hEq ▸ hLt)

/-- Where no key is repeated, it does not matter from which end a key is looked up. -/
theorem lookup_reverse {es : List (String × α)} (h : (es.map (·.1)).Nodup) (k : String) :
    es.reverse.lookup k = es.lookup k := by
  induction es with
  | nil => rfl
  | cons e es ih =>
      obtain ⟨hHead, hRest⟩ := List.nodup_cons.1 h
      rw [List.reverse_cons, lookup_concat, ih hRest, lookup_cons_eq_if]
      by_cases hk : k = e.1
      · rw [if_pos hk, if_pos hk, hk, lookup_eq_none_of_not_mem hHead]
        rfl
      · rw [if_neg hk, if_neg hk, Option.or_none]

/-- As no key is repeated, the entries are just the look-ups that have an answer. -/
theorem mem_entries_iff (d : Dict α) (k : String) (a : α) :
    (k, a) ∈ d.entries ↔ d.get? k = some a := by
  obtain ⟨entries, hSorted⟩ := d
  show (k, a) ∈ entries ↔ entries.lookup k = some a
  induction entries with
  | nil => simp
  | cons e es ih =>
      obtain ⟨key, value⟩ := e
      obtain ⟨hHead, hRest⟩ := List.pairwise_cons.1 hSorted
      rw [lookup_cons_eq_if, List.mem_cons, ih hRest, Prod.mk.injEq]
      by_cases hk : k = key
      · have hNone : es.lookup k = none := by
          rw [hk]
          exact lookup_eq_none_of_lt hHead
        simp [hk ▸ hNone, hk, eq_comm]
      · simp [hk]

/-- As no key is repeated, what is left out under a key is not found under it elsewhere. -/
theorem get?_filterMap (f : String → α → Option β) (d : Dict α) (k : String) :
    (d.filterMap f).get? k = (d.get? k).bind (f k) := by
  refine Option.ext fun b => ?_
  rw [← mem_entries_iff, Option.bind_eq_some_iff]
  constructor
  · intro hMem
    obtain ⟨⟨key, a⟩, hEntry, hValue⟩ := List.mem_filterMap.1 hMem
    obtain ⟨b', hb, hPair⟩ := Option.map_eq_some_iff.1 hValue
    cases hPair
    exact ⟨a, (mem_entries_iff d _ a).1 hEntry, hb⟩
  · rintro ⟨a, ha, hb⟩
    refine List.mem_filterMap.2 ⟨(k, a), (mem_entries_iff d k a).2 ha, ?_⟩
    show (f k a).map _ = _
    rw [hb]
    rfl

theorem ext_entries {d d' : Dict α} (h : d.entries = d'.entries) : d = d' := by
  cases d
  cases d'
  cases h
  rfl

/-- A dictionary is what its look-ups answer. -/
theorem ext_get? {d d' : Dict α} (h : ∀ k, d.get? k = d'.get? k) : d = d' :=
  ext_entries (eq_of_lookup d.sorted d'.sorted h)

theorem ofList_entries (d : Dict α) : ofList d.entries = d := by
  refine ext_get? ?_
  intro k
  rw [get?_ofList, lookup_reverse d.nodup_keys]
  rfl

end PaneEngine.Dict
