/-!
# Dictionaries in key order

A `Dict α` maps strings to values and lists its entries by ascending key, each
key once.  The order is the order of code points, which is also the order of
the UTF-8 bytes.  The entry list carries the proof of its order, so no
operation needs a hypothesis and two dictionaries that answer every look-up
alike are equal.

## Main definitions

* `Dict.get?`, `Dict.insert`, `Dict.erase`, `Dict.filter`, `Dict.map` — the operations;
* `Dict.ofList` — the dictionary of a list of pairs, the last pair of a key winning.
-/

namespace PaneEngine

/-- A finite map from strings, its entries in strictly ascending key order. -/
structure Dict (α : Type) where
  /-- The entries by ascending key. -/
  entries : List (String × α)
  sorted : entries.Pairwise fun a b => a.1 < b.1
deriving DecidableEq

namespace Dict

variable {α β : Type}

/-- The dictionary without entries. -/
def empty : Dict α := ⟨[], .nil⟩

instance : Inhabited (Dict α) := ⟨empty⟩

instance : EmptyCollection (Dict α) := ⟨empty⟩

/-- Whether there is no entry. -/
def isEmpty (d : Dict α) : Bool := d.entries.isEmpty

/-- The keys, ascending. -/
def keys (d : Dict α) : List String := d.entries.map (·.1)

/-- The value under `key`. -/
def get? (d : Dict α) (key : String) : Option α := d.entries.lookup key

/-- Whether `key` has a value. -/
def contains (d : Dict α) (key : String) : Bool := (d.get? key).isSome

/-! ## Inserting -/

/-- Puts `value` at its place in an entry list, over an older value of the same key. -/
def insertEntry (key : String) (value : α) : List (String × α) → List (String × α)
  | [] => [(key, value)]
  | entry :: rest =>
    if key < entry.1 then (key, value) :: entry :: rest
    else if key = entry.1 then (key, value) :: rest
    else entry :: insertEntry key value rest

theorem mem_insertEntry {key : String} {value : α} {e : String × α} {es : List (String × α)} :
    e ∈ insertEntry key value es → e = (key, value) ∨ e ∈ es := by
  induction es with
  | nil => simp [insertEntry]
  | cons entry rest ih =>
    rw [insertEntry]
    split
    · simp
    · split
      · intro h
        rcases List.mem_cons.1 h with h | h
        · exact .inl h
        · exact .inr (List.mem_cons_of_mem _ h)
      · intro h
        rcases List.mem_cons.1 h with h | h
        · exact .inr (h ▸ List.mem_cons_self)
        · rcases ih h with h | h
          · exact .inl h
          · exact .inr (List.mem_cons_of_mem _ h)

/-- Of two distinct strings that are not in ascending order the second comes first. -/
theorem lt_of_not_lt_of_ne {a b : String} (h : ¬ a < b) (hne : a ≠ b) : b < a := by
  have hle : b ≤ a := String.not_lt.1 h
  by_cases hba : b < a
  · exact hba
  · exact absurd (String.le_antisymm (String.not_lt.1 hba) hle) hne

theorem sorted_insertEntry (key : String) (value : α) {es : List (String × α)}
    (h : es.Pairwise fun a b => a.1 < b.1) :
    (insertEntry key value es).Pairwise fun a b => a.1 < b.1 := by
  induction es with
  | nil => simp [insertEntry]
  | cons entry rest ih =>
    obtain ⟨hhead, hrest⟩ := List.pairwise_cons.1 h
    rw [insertEntry]
    split
    · next hlt =>
      refine List.pairwise_cons.2 ⟨?_, h⟩
      intro e he
      rcases List.mem_cons.1 he with rfl | he
      · exact hlt
      · exact String.lt_trans hlt (hhead e he)
    · next hlt =>
      split
      · next heq =>
        exact List.pairwise_cons.2 ⟨fun e he => heq ▸ hhead e he, hrest⟩
      · next hne =>
        refine List.pairwise_cons.2 ⟨?_, ih hrest⟩
        intro e he
        rcases mem_insertEntry he with rfl | he
        · exact lt_of_not_lt_of_ne hlt hne
        · exact hhead e he

/-- The dictionary with `value` under `key`. -/
def insert (d : Dict α) (key : String) (value : α) : Dict α :=
  ⟨insertEntry key value d.entries, sorted_insertEntry key value d.sorted⟩

/-- The dictionary of a list of pairs; the last pair of a key wins. -/
def ofList (pairs : List (String × α)) : Dict α :=
  pairs.foldl (fun d p => d.insert p.1 p.2) empty

/-! ## Removing and mapping -/

/-- The entries that satisfy `keep`. -/
def filter (keep : String → α → Bool) (d : Dict α) : Dict α :=
  ⟨d.entries.filter fun e => keep e.1 e.2, d.sorted.filter _⟩

/-- The dictionary without `key`. -/
def erase (d : Dict α) (key : String) : Dict α :=
  d.filter fun k _ => k ≠ key

/-- The same keys with values computed from key and value. -/
def map (f : String → α → β) (d : Dict α) : Dict β :=
  ⟨d.entries.map fun e => (e.1, f e.1 e.2), List.pairwise_map.2 d.sorted⟩

/-- The entries whose image under `f` is a value, with that value. -/
def filterMap (f : String → α → Option β) (d : Dict α) : Dict β :=
  ⟨d.entries.filterMap fun e => (f e.1 e.2).map fun b => (e.1, b), by
    refine List.Pairwise.filterMap _ ?_ d.sorted
    intro a a' h b hb b' hb'
    obtain ⟨x, _, rfl⟩ := Option.map_eq_some_iff.1 hb
    obtain ⟨y, _, rfl⟩ := Option.map_eq_some_iff.1 hb'
    exact h⟩

end Dict

end PaneEngine
