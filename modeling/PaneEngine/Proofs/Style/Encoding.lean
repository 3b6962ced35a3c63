import PaneEngine.Proofs.Json.Encoding
import PaneEngine.Style.ClassSpec
import PaneEngine.Style.Override

/-!
# Styles that are written and read again

Overrides and layers are read back as they were written.  A class value is
recognised by its shape alone, and the shapes are tried in order: a list is taken
for a single layer, given by its breakpoints in order, before it is taken for a
list of layers.  A layer with styles can never be mistaken for the properties of
a breakpoint, since its members are not texts.  A layer without any can, so a
list of nothing but such layers, not longer than there are breakpoints, is read
as one layer whose breakpoints are there but empty.

## Main definitions

* `ClassSpec.IsNormal` — the class values that are ever decoded;
* `ClassSpec.isHollow` — lists of layers that are taken for a single layer;
* `ClassSpec.reread` — what is read when a class value is written.

## Main results

* `Overrides.survives_tuples`, `Responsive.survives` — overrides and layers are read back;
* `ClassSpec.ofJson?_toJson` — a class value is read back as `reread` says;
* `ClassSpec.reread_eq_iff` — all but the hollow ones are read back unchanged.
-/

namespace PaneEngine.Style

open Json (Survives)

/-! ## Overrides -/

theorem Value.survives (v : Value) : Survives ofJson? toJson v := by
  cases v <;> exact ⟨rfl, rfl⟩

theorem Tuple.survives (t : Tuple) : Survives ofJson? toJson t :=
  ⟨Json.list?_array_map fun _ _ => Json.nullable_ofOption fun v _ => v.survives, rfl⟩

/-- The tuples of a property are read back, those that are missing included. -/
theorem Overrides.survives_tuples (ts : List (Option Tuple)) :
    Survives tuples? tuplesJson ts :=
  ⟨Json.list?_array_map fun _ _ => Json.nullable_ofOption fun t _ => t.survives, rfl⟩

/-! ## Layers -/

namespace Responsive

theorem survives_properties (d : Dict String) :
    Survives (Json.dictOf? Json.string?) propertiesJson d :=
  ⟨Json.dictOf?_ofDict_map fun _ _ => rfl, rfl⟩

theorem survives (r : Responsive) : Survives ofJson? toJson r := by
  refine ⟨?_, rfl⟩
  let members := Breakpoint.all.map fun b => (b.name, (r.get b).map propertiesJson)
  have hNames : (members.map (·.1)).Nodup := by
    show (Breakpoint.all.map Breakpoint.name).Nodup
    decide
  have hField : ∀ b, Json.optional (Json.present members) b.name (Json.dictOf? Json.string?) =
      some (r.get b) := by
    intro b
    refine Json.optional_present hNames ?_ fun d _ => survives_properties d
    cases b <;> rfl
  show Responsive.ofJson? (Json.objectOf members) = some r
  unfold ofJson?
  rw [show Breakpoint.all.map Breakpoint.name = members.map (·.1) from rfl,
    Json.record?_objectOf hNames]
  simp only [Option.bind_eq_bind, Option.bind_some, hField]
  rfl

/-- Among the properties of a breakpoint a layer with styles has no place. -/
theorem dictOf?_toJson {r : Responsive} (h : r ≠ empty) :
    Json.dictOf? Json.string? r.toJson = none := by
  obtain ⟨mobile, tablet, desktop⟩ := r
  cases mobile with
  | some d => rfl
  | none =>
      cases tablet with
      | some d => rfl
      | none =>
          cases desktop with
          | some d => rfl
          | none => exact absurd rfl h

/-- The layer whose breakpoints up to a number are there but empty. -/
def hollow (n : Nat) : Responsive :=
  let properties (k : Nat) : Option (Dict String) := if k < n then some .empty else none
  ⟨properties 0, properties 1, properties 2⟩

/-- What the layer with that number is as the properties of a breakpoint. -/
def asProperties (l : List Responsive) (k : Nat) : Option (Option (Dict String)) :=
  match l[k]? with
  | none => some none
  | some r => if r = .empty then some (some .empty) else none

theorem nullable_toJson (r : Responsive) :
    Json.nullable (Json.dictOf? Json.string?) r.toJson =
      if r = .empty then some (some .empty) else none := by
  rw [Json.nullable_of_not_null rfl]
  by_cases h : r = .empty
  · rw [if_pos h, h]
    rfl
  · rw [if_neg h, dictOf?_toJson h]
    rfl

theorem optional_asProperties (l : List Responsive) {b : Breakpoint} {k : Nat}
    (h : Breakpoint.ofPosition? k = some b) :
    Json.optional ((Breakpoint.all.map Breakpoint.name).zip (l.map toJson)) b.name
      (Json.dictOf? Json.string?) = asProperties l k := by
  have hName : (Breakpoint.all.map Breakpoint.name)[k]? = some b.name := by
    rw [List.getElem?_map, show Breakpoint.all[k]? = some b from h]
    rfl
  unfold Json.optional Json.defaulted asProperties
  rw [Json.lookup_zip (by decide) _ hName, List.getElem?_map]
  cases l[k]? with
  | none => rfl
  | some r => exact nullable_toJson r

/-- Layers that are taken for a single one: each of them has to do as properties. -/
theorem ofJson?_array {l : List Responsive} (h : l.length ≤ Breakpoint.all.length) :
    ofJson? (.array (l.map toJson)) = do
      return ⟨← asProperties l 0, ← asProperties l 1, ← asProperties l 2⟩ := by
  have hRecord : Json.record? (Breakpoint.all.map Breakpoint.name) (.array (l.map toJson)) =
      some ((Breakpoint.all.map Breakpoint.name).zip (l.map toJson)) := by
    refine if_pos ?_
    rw [List.length_map, List.length_map]
    exact h
  unfold ofJson?
  simp only [hRecord, Option.bind_eq_bind, Option.bind_some,
    optional_asProperties l (b := .mobile) (k := 0) rfl,
    optional_asProperties l (b := .tablet) (k := 1) rfl,
    optional_asProperties l (b := .desktop) (k := 2) rfl]

theorem asProperties_of_empty {l : List Responsive} (h : ∀ r ∈ l, r = .empty) (k : Nat) :
    asProperties l k = some (if k < l.length then some .empty else none) := by
  unfold asProperties
  cases hLayer : l[k]? with
  | none => rw [if_neg (Nat.not_lt.2 (List.getElem?_eq_none_iff.1 hLayer))]
  | some r =>
      obtain ⟨hLt, _⟩ := List.getElem?_eq_some_iff.1 hLayer
      rw [if_pos hLt]
      exact if_pos (h r (List.mem_of_getElem? hLayer))

/-- Layers without styles, no more than there are breakpoints, are taken for a single layer. -/
theorem ofJson?_array_of_empty {l : List Responsive} (h : l.length ≤ Breakpoint.all.length)
    (hEmpty : ∀ r ∈ l, r = .empty) :
    ofJson? (.array (l.map toJson)) = some (hollow l.length) := by
  rw [ofJson?_array h]
  simp only [asProperties_of_empty hEmpty]
  rfl

theorem ofJson?_array_of_long {l : List Responsive} (h : Breakpoint.all.length < l.length) :
    ofJson? (.array (l.map toJson)) = none := by
  have hRecord : Json.record? (Breakpoint.all.map Breakpoint.name) (.array (l.map toJson)) =
      none := by
    refine if_neg ?_
    rw [List.length_map, List.length_map]
    exact Nat.not_le.2 h
  unfold ofJson?
  rw [hRecord]
  rfl

theorem ofJson?_array_of_styles {l : List Responsive} {r : Responsive} (hMem : r ∈ l)
    (hStyles : r ≠ .empty) : ofJson? (.array (l.map toJson)) = none := by
  by_cases h : l.length ≤ Breakpoint.all.length
  · obtain ⟨k, hk⟩ := List.mem_iff_getElem?.1 hMem
    have hNone : asProperties l k = none := by
      simp only [asProperties, hk]
      exact if_neg hStyles
    have hLt : k < 3 := Nat.lt_of_lt_of_le (List.getElem?_eq_some_iff.1 hk).1 h
    rw [ofJson?_array h]
    match k with
    | 0 => simp [hNone]
    | 1 => simp [hNone]
    | 2 => simp [hNone]
    | k + 3 => omega
  · exact ofJson?_array_of_long (Nat.not_le.1 h)

theorem list?_toJson (l : List Responsive) :
    Json.list? ofJson? (.array (l.map toJson)) = some l :=
  Json.list?_array_map fun r _ => r.survives.decode_encode

end Responsive

/-! ## Class values -/

namespace ClassSpec

/-- A list of one text counts as that text, and without any layer there are no layers. -/
inductive IsNormal : ClassSpec → Prop where
  | scalar (s : String) : IsNormal (scalar s)
  | alternates (l : List String) (h : l.length ≠ 1) : IsNormal (alternates l)
  | layers (l : List Responsive) (h : l ≠ []) : IsNormal (layers l)

/-- Whether there are layers, none with styles and no more than there are breakpoints. -/
def isHollow : ClassSpec → Bool
  | layers l => !l.isEmpty && l.length ≤ Breakpoint.all.length && l.all fun r => r = .empty
  | _ => false

/-- What is read when a class value is written. -/
def reread (c : ClassSpec) : ClassSpec :=
  match c with
  | layers l => if c.isHollow then layers [.hollow l.length] else c
  | _ => c

theorem isHollow_layers_iff (l : List Responsive) :
    (layers l).isHollow = true ↔
      l ≠ [] ∧ l.length ≤ Breakpoint.all.length ∧ ∀ r ∈ l, r = .empty := by
  simp [isHollow, and_assoc]

theorem isHollow_iff (c : ClassSpec) :
    c.isHollow = true ↔
      ∃ n, 0 < n ∧ n ≤ Breakpoint.all.length ∧ c = layers (List.replicate n .empty) := by
  cases c with
  | layers l =>
      rw [isHollow_layers_iff]
      constructor
      · rintro ⟨hSome, hShort, hEmpty⟩
        exact ⟨l.length, List.length_pos_iff.2 hSome, hShort,
          congrArg layers (List.eq_replicate_iff.2 ⟨rfl, hEmpty⟩)⟩
      · rintro ⟨n, hPos, hShort, hEq⟩
        obtain ⟨hLength, hEmpty⟩ := List.eq_replicate_iff.1 (ClassSpec.layers.inj hEq)
        exact ⟨List.length_pos_iff.1 (hLength ▸ hPos), hLength ▸ hShort, hEmpty⟩
  | _ => simp [isHollow]

theorem isNormal_ofTexts (l : List String) : (ofTexts l).IsNormal := by
  match l with
  | [] => exact .alternates [] (by decide)
  | [s] => exact .scalar s
  | s :: t :: rest => exact .alternates _ (by simp)

/-- Only an empty list has no items, and it is taken for a list of texts. -/
theorem isNormal_of_ofJson? {j : Json} {c : ClassSpec} (h : ofJson? j = some c) :
    c.IsNormal := by
  unfold ofJson? at h
  rcases Option.or_eq_some_iff.1 h with hText | ⟨hNoText, hLayer⟩
  · rcases Option.or_eq_some_iff.1 hText with hScalar | ⟨_, hList⟩
    · obtain ⟨s, _, rfl⟩ := Option.map_eq_some_iff.1 hScalar
      exact .scalar s
    · obtain ⟨l, _, rfl⟩ := Option.map_eq_some_iff.1 hList
      exact isNormal_ofTexts l
  · rcases Option.or_eq_some_iff.1 hLayer with hOne | ⟨_, hSeveral⟩
    · obtain ⟨r, _, rfl⟩ := Option.map_eq_some_iff.1 hOne
      exact .layers _ (List.cons_ne_nil _ _)
    · obtain ⟨l, hItems, rfl⟩ := Option.map_eq_some_iff.1 hSeveral
      refine .layers l ?_
      intro hNil
      subst hNil
      rw [Json.eq_array_nil_of_list? hItems] at hNoText
      cases hNoText

theorem ofJson?_alternates {l : List String} (h : l.length ≠ 1) :
    ofJson? (toJson (alternates l)) = some (alternates l) := by
  have hTexts : ofTexts l = alternates l := by
    match l with
    | [] => rfl
    | [s] => exact absurd rfl h
    | s :: t :: rest => rfl
  have hList : Json.list? Json.string? (toJson (alternates l)) = some l := Json.list?_strings l
  unfold ofJson?
  rw [hList, Option.map_some, hTexts]
  rfl

/-- Layers are no texts, so they are one layer or a list of layers. -/
theorem ofJson?_layers {l : List Responsive} (h : l ≠ []) :
    ofJson? (toJson (layers l)) =
      ((Responsive.ofJson? (.array (l.map Responsive.toJson))).map fun r => layers [r]).or
        (some (layers l)) := by
  have hNoTexts : Json.list? Json.string? (.array (l.map Responsive.toJson)) = none := by
    cases l with
    | nil => exact absurd rfl h
    | cons r rest => rfl
  unfold ofJson? toJson
  rw [hNoTexts, Responsive.list?_toJson]
  rfl

/-- **A class value is read back as it was written, but for hollow layers.** -/
theorem ofJson?_toJson {c : ClassSpec} (h : c.IsNormal) : ofJson? c.toJson = some c.reread := by
  cases h with
  | scalar s => rfl
  | alternates l h => exact ofJson?_alternates h
  | layers l h =>
      rw [ofJson?_layers h, reread]
      by_cases hHollow : (layers l).isHollow = true
      · obtain ⟨_, hShort, hEmpty⟩ := (isHollow_layers_iff l).1 hHollow
        rw [if_pos hHollow, Responsive.ofJson?_array_of_empty hShort hEmpty]
        rfl
      · rw [if_neg hHollow]
        have hNone : Responsive.ofJson? (.array (l.map Responsive.toJson)) = none := by
          by_cases hShort : l.length ≤ Breakpoint.all.length
          · have hStyles : ¬ ∀ r ∈ l, r = .empty := fun hEmpty =>
              hHollow ((isHollow_layers_iff l).2 ⟨h, hShort, hEmpty⟩)
            obtain ⟨r, hOther⟩ := Classical.not_forall.1 hStyles
            obtain ⟨hMem, hNe⟩ := Classical.not_imp.1 hOther
            exact Responsive.ofJson?_array_of_styles hMem hNe
          · exact Responsive.ofJson?_array_of_long (Nat.not_le.1 hShort)
        rw [hNone]
        rfl

theorem toJson_not_null (c : ClassSpec) : c.toJson.isNull = false := by
  cases c <;> rfl

/-- What is read of hollow layers has a breakpoint, which none of the layers had. -/
theorem reread_eq_iff (c : ClassSpec) : c.reread = c ↔ c.isHollow = false := by
  cases c with
  | layers l =>
      rw [reread]
      by_cases hHollow : (layers l).isHollow = true
      · obtain ⟨hSome, _, hEmpty⟩ := (isHollow_layers_iff l).1 hHollow
        have hChanges : layers [.hollow l.length] ≠ layers l := by
          intro hEq
          have hMem : ∀ r, [r] = l → r ∈ l := fun r hList => hList ▸ List.mem_singleton_self r
          have hLayer := hEmpty _ (hMem _ (ClassSpec.layers.inj hEq))
          have hMobile := congrArg Responsive.mobile hLayer
          simp [Responsive.hollow, Responsive.empty, List.length_pos_iff.2 hSome] at hMobile
        simp [hHollow, hChanges]
      · simp [hHollow]
  | _ => exact ⟨fun _ => rfl, fun _ => rfl⟩

end ClassSpec

end PaneEngine.Style
