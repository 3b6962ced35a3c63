import PaneEngine.Proofs.Dict
import PaneEngine.Style.Override

/-!
# What overrides contribute

The styles of an occurrence are collected property by property and breakpoint by
breakpoint into shared dictionaries.  In the end a breakpoint has a value for a
property exactly if the tuple of that property keeps one at that position, and
then it is the text of that value; nothing else is left in the dictionaries.

## Main definitions

* `Tuple.at?`, `Tuple.kept?` — the value at a position, and whether it is kept;
* `Overrides.valueAt?`, `Overrides.keptAt?` — the same for a property and an occurrence;
* `Responsive.textAt?` — the text of a property at a position;
* `Responsive.IsTight` — no breakpoint has an empty dictionary.

## Main results

* `Tuple.lookup_entries` — what a tuple contributes;
* `Overrides.textAt?_stylesAt` — the entries of the styles of an occurrence;
* `Responsive.ext_value?` — styles are what they say of each property.
-/

namespace PaneEngine.Style

/-! ## Equal values -/

namespace Value

theorem same_refl (v : Value) : v.same v = true := by
  cases v with
  | text s => simp [same]
  | number n => cases n <;> simp [same, Json.Number.sameValue, Binary64.sameValue]
  | bool b => simp [same]

/-- The two zeros are equal whatever their signs, and nothing else equals them. -/
theorem sameValue_trans {x y z : Binary64} (h : x.sameValue y = true)
    (h' : y.sameValue z = true) : x.sameValue z = true := by
  simp only [Binary64.sameValue, Bool.and_eq_true, Bool.or_eq_true, decide_eq_true_eq] at h h' ⊢
  obtain ⟨hMagnitude, hSign⟩ := h
  obtain ⟨hMagnitude', hSign'⟩ := h'
  refine ⟨hMagnitude.trans hMagnitude', ?_⟩
  rcases hSign with hZero | hSign
  · exact .inl hZero
  · rcases hSign' with hZero | hSign'
    · exact .inl (hMagnitude.trans hZero)
    · exact .inr (hSign.trans hSign')

theorem same_trans {u v w : Value} (h : u.same v = true) (h' : v.same w = true) :
    u.same w = true := by
  cases u with
  | text s => cases v <;> cases w <;> simp_all [same]
  | number n =>
      cases v with
      | number m =>
          cases w with
          | number k =>
              cases n <;> cases m <;> cases k <;> simp_all [same, Json.Number.sameValue]
              exact sameValue_trans h h'
          | _ => simp [same] at h'
      | _ => simp [same] at h
  | bool b => cases v <;> cases w <;> simp_all [same]

end Value

/-! ## Tuples -/

namespace Tuple

/-- The value at a position, if there is one that is not null. -/
def at? (t : Tuple) (n : Nat) : Option Value := (t[n]?).join

/-- The value at a position that is not left out, `before` coming before the first one. -/
def keptFrom? (before : Option Value) (t : Tuple) (n : Nat) : Option Value :=
  (t.at? n).filter fun v => !repeats (if n = 0 then before else t.at? (n - 1)) v

/-- The value at a position that is not left out. -/
def kept? (t : Tuple) (n : Nat) : Option Value := t.keptFrom? none n

theorem keptFrom?_cons_zero (before v : Option Value) (rest : Tuple) :
    keptFrom? before (v :: rest) 0 = v.filter fun w => !repeats before w := rfl

/-- The value before the second one is the first one. -/
theorem keptFrom?_cons_succ (before v : Option Value) (rest : Tuple) (n : Nat) :
    keptFrom? before (v :: rest) (n + 1) = keptFrom? v rest n := by
  cases n with
  | zero => rfl
  | succ n => rfl

/-- What a tuple contributes to the first of the breakpoints. -/
def first (before : Option Value) (b : Breakpoint) (v : Option Value) :
    List (Breakpoint × String) :=
  ((v.filter fun w => !repeats before w).map fun w => (b, w.toText)).toList

theorem entriesFrom_cons (before : Option Value) (b : Breakpoint) (bs : List Breakpoint)
    (v : Option Value) (rest : Tuple) :
    entriesFrom before (b :: bs) (v :: rest) = first before b v ++ entriesFrom v bs rest := by
  cases v with
  | none => rfl
  | some v =>
      show (if repeats before v then [] else [(b, v.toText)]) ++ entriesFrom (some v) bs rest = _
      unfold first
      rw [Option.filter_some]
      by_cases hRepeats : repeats before v = true <;> simp [hRepeats]

theorem lookup_first (before : Option Value) (b b' : Breakpoint) (v : Option Value) :
    (first before b v).lookup b' =
      if b' = b then (v.filter fun w => !repeats before w).map Value.toText else none := by
  unfold first
  cases v.filter fun w => !repeats before w with
  | none => simp
  | some w =>
      show [(b, w.toText)].lookup b' = _
      rw [Dict.lookup_cons_eq_if]
      rfl

theorem breakpoints_entriesFrom (before : Option Value) (bs : List Breakpoint) (t : Tuple) :
    ((entriesFrom before bs t).map (·.1)).Sublist bs := by
  induction bs generalizing before t with
  | nil => exact List.Sublist.refl []
  | cons b bs ih =>
      cases t with
      | nil => exact List.nil_sublist _
      | cons v rest =>
          rw [entriesFrom_cons, List.map_append]
          have hFirst : ((first before b v).map (·.1)).Sublist [b] := by
            unfold first
            cases v.filter fun w => !repeats before w <;> simp
          exact hFirst.append (ih v rest)

/-- Each breakpoint has its own position, so that what is contributed at the others does not
hide what is contributed there. -/
theorem lookup_entriesFrom {bs : List Breakpoint} (hNodup : bs.Nodup) {b : Breakpoint} {n : Nat}
    (h : bs[n]? = some b) (before : Option Value) (t : Tuple) :
    (entriesFrom before bs t).lookup b = (t.keptFrom? before n).map Value.toText := by
  induction bs generalizing before t n with
  | nil => cases h
  | cons b' bs ih =>
      cases t with
      | nil => rfl
      | cons v rest =>
          obtain ⟨hHead, hRest⟩ := List.nodup_cons.1 hNodup
          rw [entriesFrom_cons, List.lookup_append, lookup_first]
          cases n with
          | zero =>
              obtain rfl : b' = b := Option.some.inj h
              have hNone : (entriesFrom v bs rest).lookup b' = none :=
                Dict.lookup_eq_none_of_not_mem fun hMem =>
                  hHead ((breakpoints_entriesFrom v bs rest).subset hMem)
              rw [if_pos rfl, hNone, Option.or_none, keptFrom?_cons_zero]
          | succ n =>
              have hNe : b ≠ b' := fun hEq => hHead (hEq ▸ List.mem_of_getElem? h)
              rw [if_neg hNe, Option.none_or, keptFrom?_cons_succ]
              exact ih hRest h v rest

/-- A tuple contributes at a breakpoint the text of the value that is kept there. -/
theorem lookup_entries (t : Tuple) {b : Breakpoint} {n : Nat}
    (h : Breakpoint.ofPosition? n = some b) :
    t.entries.lookup b = (t.kept? n).map Value.toText :=
  lookup_entriesFrom (by decide) h none t

theorem nodup_breakpoints (t : Tuple) : (t.entries.map (·.1)).Nodup :=
  (breakpoints_entriesFrom none Breakpoint.all t).nodup (by decide)

end Tuple

/-! ## Styles -/

namespace Responsive

/-- The text of a property at a position. -/
def textAt? (r : Responsive) (property : String) (n : Nat) : Option String :=
  (Breakpoint.ofPosition? n).bind fun b => r.value? b property

/-- There is nothing past the last breakpoint. -/
theorem textAt?_eq_none_of_length_le (r : Responsive) (property : String) {n : Nat}
    (h : Breakpoint.all.length ≤ n) : r.textAt? property n = none := by
  unfold textAt? Breakpoint.ofPosition?
  rw [List.getElem?_eq_none h]
  rfl

/-- No breakpoint has an empty dictionary. -/
def IsTight (r : Responsive) : Prop :=
  ∀ b, r.get b ≠ none → ∃ property, r.value? b property ≠ none

theorem get_set (r : Responsive) (b b' : Breakpoint) (d : Option (Dict String)) :
    (r.set b d).get b' = if b' = b then d else r.get b' := by
  cases b <;> cases b' <;> rfl

theorem value?_insert (r : Responsive) (b b' : Breakpoint) (property k v : String) :
    (r.insert b property v).value? b' k =
      if b' = b ∧ k = property then some v else r.value? b' k := by
  unfold insert value?
  rw [get_set]
  by_cases hb : b' = b
  · subst hb
    rw [if_pos rfl, Option.bind_some, Dict.get?_insert]
    simp only [true_and]
    cases r.get b' <;> rfl
  · rw [if_neg hb, if_neg fun h => hb h.1]

theorem value?_empty (b : Breakpoint) (k : String) : empty.value? b k = none := by
  cases b <;> rfl

theorem isTight_empty : empty.IsTight := by
  intro b hSome
  cases b <;> exact absurd rfl hSome

theorem IsTight.insert {r : Responsive} (h : r.IsTight) (b : Breakpoint) (property v : String) :
    (r.insert b property v).IsTight := by
  intro b' hSome
  by_cases hb : b' = b
  · refine ⟨property, ?_⟩
    rw [value?_insert, if_pos ⟨hb, rfl⟩]
    exact Option.some_ne_none v
  · have hOld : r.get b' ≠ none := by
      unfold Responsive.insert at hSome
      rwa [get_set, if_neg hb] at hSome
    obtain ⟨k, hValue⟩ := h b' hOld
    refine ⟨k, ?_⟩
    rwa [value?_insert, if_neg fun h => hb h.1]

theorem ext_get {r r' : Responsive} (h : ∀ b, r.get b = r'.get b) : r = r' := by
  obtain ⟨m, t, d⟩ := r
  obtain ⟨m', t', d'⟩ := r'
  have hMobile : m = m' := h .mobile
  have hTablet : t = t' := h .tablet
  have hDesktop : d = d' := h .desktop
  rw [hMobile, hTablet, hDesktop]

/-- Without empty dictionaries styles are what they say of each property. -/
theorem ext_value? {r r' : Responsive} (hTight : r.IsTight) (hTight' : r'.IsTight)
    (h : ∀ b k, r.value? b k = r'.value? b k) : r = r' := by
  refine ext_get ?_
  intro b
  cases hGet : r.get b with
  | none =>
      cases hGet' : r'.get b with
      | none => rfl
      | some d' =>
          obtain ⟨k, hValue⟩ := hTight' b (by rw [hGet']; exact Option.some_ne_none d')
          refine absurd ?_ hValue
          rw [← h]
          unfold value?
          rw [hGet]
          rfl
  | some d =>
      cases hGet' : r'.get b with
      | none =>
          obtain ⟨k, hValue⟩ := hTight b (by rw [hGet]; exact Option.some_ne_none d)
          refine absurd ?_ hValue
          rw [h]
          unfold value?
          rw [hGet']
          rfl
      | some d' =>
          refine congrArg some (Dict.ext_get? ?_)
          intro k
          have hValue := h b k
          unfold value? at hValue
          rwa [hGet, hGet'] at hValue

end Responsive

/-! ## Occurrences -/

namespace Overrides

/-- The tuple of a property for an occurrence. -/
def tuple? (o : Overrides) (property : String) (index : Nat) : Option Tuple :=
  ((o.get? property).bind fun tuples => tuples[index]?).join

/-- The value of a property at a position, for an occurrence. -/
def valueAt? (o : Overrides) (property : String) (index n : Nat) : Option Value :=
  (o.tuple? property index).bind fun t => t.at? n

/-- The value of a property at a position that is not left out, for an occurrence. -/
def keptAt? (o : Overrides) (property : String) (index n : Nat) : Option Value :=
  (o.tuple? property index).bind fun t => t.kept? n

theorem keptAt?_eq (o : Overrides) (property : String) (index n : Nat) :
    o.keptAt? property index n = (o.valueAt? property index n).filter fun v =>
      !Tuple.repeats (if n = 0 then none else o.valueAt? property index (n - 1)) v := by
  unfold keptAt? valueAt?
  cases o.tuple? property index with
  | none => rfl
  | some t => rfl

theorem valueAt?_of_keptAt? {o : Overrides} {property : String} {index n : Nat} {v : Value}
    (h : o.keptAt? property index n = some v) : o.valueAt? property index n = some v := by
  rw [keptAt?_eq] at h
  exact (Option.filter_eq_some_iff.1 h).1

theorem keptAt?_zero (o : Overrides) (property : String) (index : Nat) :
    o.keptAt? property index 0 = o.valueAt? property index 0 := by
  rw [keptAt?_eq]
  cases o.valueAt? property index 0 <;> rfl

theorem keptAt?_succ_eq_some_iff (o : Overrides) (property : String) (index n : Nat) (v : Value) :
    o.keptAt? property index (n + 1) = some v ↔
      o.valueAt? property index (n + 1) = some v ∧
        ∀ u, o.valueAt? property index n = some u → u.same v = false := by
  rw [keptAt?_eq, Option.filter_eq_some_iff, if_neg (Nat.succ_ne_zero n), Nat.add_sub_cancel]
  refine and_congr_right fun _ => ?_
  unfold Tuple.repeats
  cases o.valueAt? property index n <;> simp

theorem value?_insertTuple (property k : String) (t : Tuple) (r : Responsive) (b : Breakpoint) :
    (insertTuple property t r).value? b k =
      if k = property then (t.entries.lookup b).or (r.value? b k) else r.value? b k := by
  have hNodup : (t.entries.map (·.1)).Nodup := t.nodup_breakpoints
  unfold insertTuple
  generalize t.entries = es at hNodup
  induction es generalizing r with
  | nil => simp
  | cons e es ih =>
      obtain ⟨hHead, hRest⟩ := List.nodup_cons.1 hNodup
      rw [List.foldl_cons, ih _ hRest, Responsive.value?_insert, Dict.lookup_cons_eq_if]
      by_cases hk : k = property
      · by_cases hb : b = e.1
        · have hNone : es.lookup b = none := Dict.lookup_eq_none_of_not_mem (hb ▸ hHead)
          rw [if_pos hk, if_pos hk, if_pos ⟨hb, hk⟩, if_pos hb, hNone]
          rfl
        · rw [if_pos hk, if_pos hk, if_neg hb, if_neg fun h => hb h.1]
      · rw [if_neg hk, if_neg hk, if_neg fun h => hk h.2]

theorem isTight_insertTuple {r : Responsive} (h : r.IsTight) (property : String) (t : Tuple) :
    (insertTuple property t r).IsTight := by
  unfold insertTuple
  exact List.foldlRecOn t.entries _ h fun r h e _ => h.insert e.1 property e.2

/-- Adds what one property contributes for an occurrence. -/
def addAt (index : Nat) (r : Responsive) (e : String × List (Option Tuple)) : Responsive :=
  match e.2[index]? with
  | some (some t) => insertTuple e.1 t r
  | _ => r

theorem stylesAt_eq_foldl (o : Overrides) (index : Nat) :
    o.stylesAt index = o.entries.foldl (addAt index) .empty := rfl

theorem value?_addAt (index : Nat) (r : Responsive) (e : String × List (Option Tuple))
    (b : Breakpoint) (k : String) :
    (addAt index r e).value? b k =
      if k = e.1 then (e.2[index]?.join.bind fun t => t.entries.lookup b).or (r.value? b k)
      else r.value? b k := by
  unfold addAt
  rcases e.2[index]? with _ | _ | t
  · exact (ite_self _).symm
  · exact (ite_self _).symm
  · exact value?_insertTuple e.1 k t r b

theorem isTight_addAt {r : Responsive} (h : r.IsTight) (index : Nat)
    (e : String × List (Option Tuple)) : (addAt index r e).IsTight := by
  unfold addAt
  rcases e.2[index]? with _ | _ | t
  · exact h
  · exact h
  · exact isTight_insertTuple h e.1 t

/-- A property contributes only what its own tuple does. -/
theorem value?_foldl_addAt {es : List (String × List (Option Tuple))}
    (h : (es.map (·.1)).Nodup) (index : Nat) (r : Responsive) (b : Breakpoint) (k : String) :
    (es.foldl (addAt index) r).value? b k =
      (((es.lookup k).bind fun tuples => tuples[index]?).join.bind
        fun t => t.entries.lookup b).or (r.value? b k) := by
  induction es generalizing r with
  | nil => rfl
  | cons e es ih =>
      obtain ⟨hHead, hRest⟩ := List.nodup_cons.1 h
      rw [List.foldl_cons, ih hRest, value?_addAt, Dict.lookup_cons_eq_if]
      by_cases hk : k = e.1
      · have hNone : es.lookup k = none := Dict.lookup_eq_none_of_not_mem (hk ▸ hHead)
        rw [if_pos hk, if_pos hk, hNone]
        rfl
      · rw [if_neg hk, if_neg hk]

theorem value?_stylesAt (o : Overrides) (index : Nat) (b : Breakpoint) (k : String) :
    (o.stylesAt index).value? b k = (o.tuple? k index).bind fun t => t.entries.lookup b := by
  rw [stylesAt_eq_foldl, value?_foldl_addAt o.nodup_keys, Responsive.value?_empty, Option.or_none]
  rfl

/-- The text of a property at a position is that of the value its tuple keeps there. -/
theorem textAt?_stylesAt (o : Overrides) (index : Nat) (property : String) {n : Nat}
    (h : n < Breakpoint.all.length) :
    (o.stylesAt index).textAt? property n = (o.keptAt? property index n).map Value.toText := by
  have hPosition : Breakpoint.ofPosition? n = some Breakpoint.all[n] := List.getElem?_eq_getElem h
  unfold Responsive.textAt? keptAt?
  rw [hPosition, Option.bind_some, value?_stylesAt]
  cases o.tuple? property index with
  | none => rfl
  | some t => exact t.lookup_entries hPosition

/-- Every entry is the text of a value that is kept at its position. -/
theorem keptAt?_of_textAt? {o : Overrides} {index : Nat} {property s : String} {n : Nat}
    (h : (o.stylesAt index).textAt? property n = some s) :
    n < Breakpoint.all.length ∧ ∃ v, o.keptAt? property index n = some v ∧ v.toText = s := by
  have hPosition : n < Breakpoint.all.length := by
    refine Nat.lt_of_not_le fun hPast => ?_
    rw [Responsive.textAt?_eq_none_of_length_le _ _ hPast] at h
    cases h
  rw [textAt?_stylesAt o index property hPosition, Option.map_eq_some_iff] at h
  exact ⟨hPosition, h⟩

theorem isTight_stylesAt (o : Overrides) (index : Nat) : (o.stylesAt index).IsTight := by
  rw [stylesAt_eq_foldl]
  exact List.foldlRecOn o.entries (addAt index) Responsive.isTight_empty
    fun r h e _ => isTight_addAt h index e

end Overrides

end PaneEngine.Style
