import PaneEngine.Json.Decode
import PaneEngine.Proofs.Dict

/-!
# Decoding what was encoded

A list, a dictionary or a record that is written part by part is read back if
every part is.  A record leaves out the fields without a value, and reading it
takes a field that is left out for one without a value; so nothing is lost as
long as no value is written as `null`.

## Main definitions

* `present` — the members of an object that have a value.

## Main results

* `list?_array_map`, `dictOf?_ofDict_map` — lists and dictionaries are read back;
* `record?_objectOf`, `lookup_present` — a record has just the fields it was written with;
* `lookup_zip` — where they stand in an array;
* `optional_present`, `defaulted_present`, `required_present` — its fields are read back.
-/

namespace PaneEngine.Json

variable {α : Type} {decode : Json → Option α} {encode : α → Json}

/-! ## Lists and dictionaries -/

theorem mapM_map_eq_some {β : Type} {read : β → Option α} {write : α → β} {l : List α}
    (h : ∀ a ∈ l, read (write a) = some a) : (l.map write).mapM read = some l := by
  induction l with
  | nil => rfl
  | cons a l ih =>
      have hRest := ih fun b hMem => h b (List.mem_cons_of_mem _ hMem)
      rw [List.map_cons, List.mapM_cons, h a List.mem_cons_self, hRest]
      rfl

theorem list?_array_map {l : List α} (h : ∀ a ∈ l, decode (encode a) = some a) :
    list? decode (.array (l.map encode)) = some l :=
  mapM_map_eq_some h

theorem eq_array_nil_of_list? {j : Json} (h : list? decode j = some []) : j = .array [] := by
  cases j with
  | array items =>
      cases items with
      | nil => rfl
      | cons j items =>
          have hItems : (j :: items).mapM decode = some [] := h
          rw [List.mapM_cons] at hItems
          obtain ⟨a, _, hRest⟩ := Option.bind_eq_some_iff.1 hItems
          obtain ⟨l, _, hCons⟩ := Option.bind_eq_some_iff.1 hRest
          cases hCons
  | _ => cases h

theorem list?_strings (l : List String) : list? string? (strings l) = some l :=
  list?_array_map fun _ _ => rfl

theorem dictOf?_ofDict_map {d : Dict α} (h : ∀ e ∈ d.entries, decode (encode e.2) = some e.2) :
    dictOf? decode (.ofDict (d.map fun _ a => encode a)) = some d := by
  have hEntries : ((d.entries.map fun e => (e.1, encode e.2)).mapM fun m =>
      (decode m.2).map fun a => (m.1, a)) = some d.entries := by
    refine mapM_map_eq_some ?_
    intro e hMem
    rw [h e hMem]
    rfl
  show Option.map Dict.ofList _ = _
  rw [show (d.map fun _ a => encode a).entries = d.entries.map fun e => (e.1, encode e.2) from rfl,
    hEntries, Option.map_some, Dict.ofList_entries]

/-! ## Values that may be missing -/

theorem nullable_of_not_null {j : Json} (h : j.isNull = false) :
    nullable decode j = (decode j).map some := by
  cases j with
  | null => cases h
  | _ => rfl

/-- A value is read back and told from a missing one. -/
structure Survives (decode : Json → Option α) (encode : α → Json) (a : α) : Prop where
  decode_encode : decode (encode a) = some a
  not_null : (encode a).isNull = false

theorem survives_string (s : String) : Survives string? string s := ⟨rfl, rfl⟩

theorem survives_bool (b : Bool) : Survives bool? bool b := ⟨rfl, rfl⟩

theorem Survives.nullable {a : α} (h : Survives decode encode a) :
    nullable decode (encode a) = some (some a) := by
  rw [nullable_of_not_null h.not_null, h.decode_encode]
  rfl

theorem exists_of_optional {fields : List (String × Json)} {name : String} {a : α}
    (h : optional fields name decode = some (some a)) : ∃ j, decode j = some a := by
  unfold optional defaulted at h
  split at h
  · cases h
  · next j _ =>
    by_cases hNull : j.isNull = false
    · rw [nullable_of_not_null hNull] at h
      obtain ⟨b, hb, hEq⟩ := Option.map_eq_some_iff.1 h
      cases hEq
      exact ⟨j, hb⟩
    · cases j with
      | null => cases h
      | _ => exact absurd rfl hNull

theorem nullable_ofOption {o : Option α} (h : ∀ a, o = some a → Survives decode encode a) :
    Json.nullable decode (.ofOption (o.map encode)) = some o := by
  cases o with
  | none => rfl
  | some a => exact (h a rfl).nullable

/-! ## Records -/

/-- The members that have a value. -/
def present (members : List (String × Option Json)) : List (String × Json) :=
  members.filterMap fun m => m.2.map fun j => (m.1, j)

theorem keys_present (members : List (String × Option Json)) :
    ((present members).map (·.1)).Sublist (members.map (·.1)) := by
  induction members with
  | nil => exact .slnil
  | cons m members ih =>
      obtain ⟨name, value⟩ := m
      cases value with
      | none => exact ih.cons name
      | some j => exact ih.cons_cons name

/-- In an array the fields of a record stand by their positions. -/
theorem lookup_zip {names : List String} (h : names.Nodup) (items : List Json) {k : Nat}
    {name : String} (hName : names[k]? = some name) :
    (names.zip items).lookup name = items[k]? := by
  induction names generalizing items k with
  | nil => simp at hName
  | cons key names ih =>
      cases items with
      | nil => simp
      | cons j items =>
          obtain ⟨hHead, hRest⟩ := List.nodup_cons.1 h
          rw [List.zip_cons_cons, Dict.lookup_cons_eq_if]
          cases k with
          | zero =>
              have hKey : name = key := by simpa using hName.symm
              rw [if_pos hKey]
              rfl
          | succ k =>
              have hLater : names[k]? = some name := by simpa using hName
              have hNe : name ≠ key := fun hEq => hHead (hEq ▸ List.mem_of_getElem? hLater)
              rw [if_neg hNe, ih hRest items hLater]
              rfl

section

variable {members : List (String × Option Json)} (h : (members.map (·.1)).Nodup)
include h

theorem lookup_present (name : String) :
    (present members).lookup name = (members.lookup name).join := by
  induction members with
  | nil => rfl
  | cons m members ih =>
      obtain ⟨key, value⟩ := m
      obtain ⟨hHead, hRest⟩ := List.nodup_cons.1 h
      rw [Dict.lookup_cons_eq_if]
      cases value with
      | none =>
          by_cases hName : name = key
          · have hNone : (present members).lookup name = none := by
              refine List.lookup_eq_none_iff.2 ?_
              intro e hMem
              have hKey : e.1 ∈ members.map (·.1) :=
                (keys_present members).subset (List.mem_map.2 ⟨e, hMem, rfl⟩)
              have hNe : name ≠ e.1 := fun hEq => hHead (hEq.symm.trans hName ▸ hKey)
              simpa using hNe
            rw [if_pos hName]
            exact hNone
          · rw [if_neg hName]
            exact ih hRest
      | some j =>
          show List.lookup name ((key, j) :: present members) = _
          rw [Dict.lookup_cons_eq_if]
          by_cases hName : name = key
          · rw [if_pos hName, if_pos hName]
            rfl
          · rw [if_neg hName, if_neg hName]
            exact ih hRest

/-- A record that is written with all of its fields is read with those that have a value. -/
theorem record?_objectOf :
    (objectOf members).record? (members.map (·.1)) = some (present members) := by
  have hKnown : (present members).filter (fun m => (members.map (·.1)).contains m.1) =
      present members := by
    refine List.filter_eq_self.2 ?_
    intro m hMem
    exact List.contains_iff_mem.2 ((keys_present members).subset (List.mem_map.2 ⟨m, hMem, rfl⟩))
  show record? _ (.object (present members)) = _
  simp only [record?, hKnown]
  exact if_pos (h.sublist (keys_present members))

theorem get?_objectOf (name : String) :
    (objectOf members).get? name = (members.lookup name).join := by
  rw [← lookup_present h, ← Dict.lookup_reverse (h.sublist (keys_present members))]
  rfl

theorem optional_present {name : String} {o : Option α}
    (hMember : members.lookup name = some (o.map encode))
    (hSurvives : ∀ a, o = some a → Survives decode encode a) :
    optional (present members) name decode = some o := by
  unfold optional defaulted
  rw [lookup_present h, hMember]
  cases o with
  | none => rfl
  | some a => exact (hSurvives a rfl).nullable

theorem defaulted_present {name : String} {a missing : α}
    (hMember : members.lookup name = some (some (encode a)))
    (hDecode : decode (encode a) = some a) :
    defaulted (present members) name decode missing = some a := by
  unfold defaulted
  rw [lookup_present h, hMember]
  exact hDecode

theorem required_present {name : String} {a : α}
    (hMember : members.lookup name = some (some (encode a)))
    (hDecode : decode (encode a) = some a) :
    required (present members) name decode = some a := by
  unfold required
  rw [lookup_present h, hMember]
  exact hDecode

end

end PaneEngine.Json
