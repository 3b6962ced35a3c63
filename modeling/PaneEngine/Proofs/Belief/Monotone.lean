import PaneEngine.Proofs.Belief.Rule

/-!
# How visibility grows

More beliefs satisfy more requirements, so both decisions grow with what is
held; visibility itself does not, for it takes one of them negated.  A withheld
filter that requires more hides more.  A held filter that requires more hides
more only if what is added stands outside the group that matches across: a new
member of the group is one more way to satisfy it.

## Main definitions

* `Beliefs.Extends` — everything that is held is still held;
* `Belief.Demands` — a filter requires at least what another does;
* `Belief.Filter.require` — a filter, which may be missing, with one requirement more.

## Main results

* `reveals_mono`, `withholds_mono` — both decisions grow with the beliefs;
* `withholds_of_demands` — and withholding with what the filter requires;
* `visibility_monotone` — all of this about panes.
-/

namespace PaneEngine

/-- Every belief that is held in `bs` is held unchanged in `bs'`. -/
def Beliefs.Extends (bs bs' : Beliefs) : Prop :=
  ∀ slug b, bs.get? slug = some b → bs'.get? slug = some b

namespace Belief

open PaneEngine.Belief.Filter (matchAcrossKey linkedKey)

/-! ## More beliefs -/

section

variable {bs bs' : Beliefs} (h : bs.Extends bs')
include h

theorem Satisfied.mono {slug : String} {values : List String} (hBefore : Satisfied bs slug values) :
    Satisfied bs' slug values := by
  obtain ⟨b, hHeld, hValue⟩ := hBefore
  exact ⟨b, h slug b hHeld, hValue⟩

theorem reveals_mono {f : Option Filter} (hBefore : reveals f bs = true) :
    reveals f bs' = true := by
  rw [reveals_iff] at hBefore ⊢
  obtain ⟨hAlone, hGroup⟩ := hBefore
  refine ⟨?_, ?_⟩
  · intro slug values hRequires hUngrouped
    exact (hAlone slug values hRequires hUngrouped).mono h
  · intro hSome
    obtain ⟨slug, values, hRequires, hGrouped, hMet⟩ := hGroup hSome
    exact ⟨slug, values, hRequires, hGrouped, hMet.mono h⟩

theorem withholds_mono {f : Option Filter} (hBefore : withholds f bs = true) :
    withholds f bs' = true := by
  rw [withholds_iff] at hBefore ⊢
  obtain ⟨slug, values, hRequires, hMet⟩ := hBefore
  exact ⟨slug, values, hRequires, hMet.mono h⟩

end

/-- Taking on a belief about a new slug keeps all others. -/
theorem extends_hold {bs : Beliefs} {b : Belief} (h : bs.get? b.slug = none) :
    bs.Extends (bs.hold b).beliefs := by
  intro slug b' hHeld
  have hOther : slug ≠ b.slug := by
    intro hSlug
    rw [hSlug, h] at hHeld
    cases hHeld
  rw [Beliefs.get?_hold, if_neg hOther]
  exact hHeld

/-! ## More requirements -/

/-- The filter with accepted values for one slug more; a missing filter becomes one that requires
nothing else. -/
def Filter.require (f : Option Filter) (slug : String) (accepted : Accepted) : Filter :=
  (f.getD .empty).insert slug accepted

theorem requires_getD (f : Option Filter) (slug : String) (values : List String) :
    Requires (some (f.getD .empty)) slug values ↔ Requires f slug values := by
  cases f with
  | none => simp [requires_some_iff, Dict.empty, Dict.get?]
  | some f => exact Iff.rfl

theorem requires_require (f : Option Filter) (key : String) (a : Filter.Accepted) (slug : String)
    (values : List String) :
    Requires (some (Filter.require f key a)) slug values ↔
      if slug = key then slug ≠ matchAcrossKey ∧ slug ≠ linkedKey ∧ a.values = values
      else Requires f slug values := by
  rw [Filter.require, requires_insert, requires_getD]

/-- Whatever `f` requires, `f'` requires too, and accepts at least the same values. -/
def Demands (f f' : Option Filter) : Prop :=
  ∀ slug values, Requires f slug values → ∃ values', Requires f' slug values' ∧ values ⊆ values'

theorem Satisfied.widen {bs : Beliefs} {slug : String} {values values' : List String}
    (h : Satisfied bs slug values) (hWider : values ⊆ values') : Satisfied bs slug values' := by
  obtain ⟨b, hHeld, v, hMem, hValue⟩ := h
  exact ⟨b, hHeld, v, hWider hMem, hValue⟩

theorem withholds_of_demands {f f' : Option Filter} (h : Demands f f') {bs : Beliefs}
    (hBefore : withholds f bs = true) : withholds f' bs = true := by
  rw [withholds_iff] at hBefore ⊢
  obtain ⟨slug, values, hRequires, hMet⟩ := hBefore
  obtain ⟨values', hRequires', hWider⟩ := h slug values hRequires
  exact ⟨slug, values', hRequires', hMet.widen hWider⟩

/-- A requirement of a new slug, or of a known one with further accepted values. -/
theorem demands_require {f : Option Filter} {key : String} {a : Filter.Accepted}
    (h : ∀ a₀, (f.getD .empty).get? key = some a₀ → a₀.values ⊆ a.values) :
    Demands f (some (Filter.require f key a)) := by
  intro slug values hRequires
  simp only [requires_require]
  by_cases hKey : slug = key
  · obtain ⟨hAcross, hLinked, a₀, hLook, rfl⟩ :=
      (requires_some_iff _ slug values).1 ((requires_getD f slug values).2 hRequires)
    refine ⟨a.values, ?_, h a₀ (hKey ▸ hLook)⟩
    rw [if_pos hKey]
    exact ⟨hAcross, hLinked, rfl⟩
  · refine ⟨values, ?_, fun _ hMem => hMem⟩
    rw [if_neg hKey]
    exact hRequires

theorem grouped_getD (f : Option Filter) (slug : String) :
    Grouped (some (f.getD .empty)) slug ↔ Grouped f slug := by
  cases f with
  | none => simp [Grouped, Filter.matchAcross, Filter.valuesAt, Dict.empty, Dict.get?]
  | some f => exact Iff.rfl

theorem grouped_require {f : Option Filter} {key : String} (a : Filter.Accepted)
    (h : key ≠ matchAcrossKey) (slug : String) :
    Grouped (some (Filter.require f key a)) slug ↔ Grouped f slug := by
  rw [← grouped_getD f, grouped_some_iff, grouped_some_iff]
  unfold Filter.require Filter.matchAcross Filter.valuesAt
  rw [Dict.get?_insert, if_neg (Ne.symm h)]

/-- A new requirement outside the group: the group is satisfied by one of its old members, for the
new slug is not one of them. -/
theorem reveals_of_require {f : Option Filter} {key : String} {a : Filter.Accepted} {bs : Beliefs}
    (hNew : (f.getD .empty).get? key = none) (hAcross : key ≠ matchAcrossKey)
    (hApart : ¬ Grouped f key) (h : reveals (some (Filter.require f key a)) bs = true) :
    reveals f bs = true := by
  have hKept : ∀ slug values, Requires f slug values →
      Requires (some (Filter.require f key a)) slug values := by
    intro slug values hRequires
    have hOther : slug ≠ key := by
      intro hKey
      obtain ⟨-, -, a₀, hLook, -⟩ :=
        (requires_some_iff _ slug values).1 ((requires_getD f slug values).2 hRequires)
      rw [hKey, hNew] at hLook
      cases hLook
    rw [requires_require, if_neg hOther]
    exact hRequires
  rw [reveals_iff] at h ⊢
  simp only [grouped_require a hAcross] at h
  obtain ⟨hAlone, hGroup⟩ := h
  refine ⟨?_, ?_⟩
  · intro slug values hRequires hUngrouped
    exact hAlone slug values (hKept slug values hRequires) hUngrouped
  · rintro ⟨slug, values, hRequires, hGrouped⟩
    obtain ⟨slug', values', hRequires', hGrouped', hMet⟩ :=
      hGroup ⟨slug, values, hKept slug values hRequires, hGrouped⟩
    have hOther : slug' ≠ key := fun hKey => hApart (hKey ▸ hGrouped')
    rw [requires_require, if_neg hOther] at hRequires'
    exact ⟨slug', values', hRequires', hGrouped', hMet⟩

/-- **Visibility is monotone** in these ways.  (a) Both decisions of a filter grow with the beliefs.
(b) A withheld filter that requires a new slug, or accepts further values of one that it requires,
never makes a hidden pane visible.  (c) Neither does a held filter that requires a new slug outside
the group that matches across, also where there was no held filter or it required nothing. -/
theorem visibility_monotone (held withheld : Option Filter) (bs : Beliefs) :
    (∀ f bs', bs.Extends bs' →
      (reveals f bs = true → reveals f bs' = true) ∧
      (withholds f bs = true → withholds f bs' = true)) ∧
    (∀ slug a, (∀ a₀, (withheld.getD .empty).get? slug = some a₀ → a₀.values ⊆ a.values) →
      (Gate.mk held (some (Filter.require withheld slug a))).isOpen bs = true →
      (Gate.mk held withheld).isOpen bs = true) ∧
    (∀ slug a, (held.getD .empty).get? slug = none → slug ≠ matchAcrossKey →
      slug ∉ (held.getD .empty).matchAcross →
      (Gate.mk (some (Filter.require held slug a)) withheld).isOpen bs = true →
      (Gate.mk held withheld).isOpen bs = true) := by
  refine ⟨?_, ?_, ?_⟩
  · intro f bs' hExtends
    exact ⟨reveals_mono hExtends, withholds_mono hExtends⟩
  · intro slug a hFurther hOpen
    rw [isOpen_iff] at hOpen ⊢
    refine ⟨hOpen.1, fun hBefore => ?_⟩
    exact hOpen.2 (withholds_of_demands (demands_require hFurther) hBefore)
  · intro slug a hNew hAcross hApart hOpen
    rw [isOpen_iff] at hOpen ⊢
    have hUngrouped : ¬ Grouped held slug := by
      rw [← grouped_getD, grouped_some_iff]
      exact hApart
    exact ⟨reveals_of_require hNew hAcross hUngrouped hOpen.1, hOpen.2⟩

/-- A belief more, a withheld slug with a value more, and a first required slug. -/
theorem visibility_monotone_oneMore :
    let bs := Beliefs.ofList [⟨"A", "yes", none⟩, ⟨"B", "no", none⟩]
    let more := (bs.hold ⟨"C", "yes", none⟩).beliefs
    let required : Filter := .ofList [("A", .one "yes")]
    let withheld : Filter := .ofList [("B", .one "yes")]
    bs.Extends more ∧ reveals (some required) more = true ∧
      ((Gate.mk none (some (Filter.require (some withheld) "B" (.anyOf ["maybe", "yes"])))).isOpen
        bs = true ∧ (Gate.mk none (some withheld)).isOpen bs = true) ∧
      (Gate.mk (some (Filter.require none "A" (.one "yes"))) (some withheld)).isOpen bs = true ∧
      (Gate.mk none (some withheld)).isOpen bs = true := by
  intro bs more required withheld
  have hMore : bs.Extends more := extends_hold (by decide)
  have hFurther : (Gate.mk none (some (Filter.require (some withheld) "B"
      (.anyOf ["maybe", "yes"])))).isOpen bs = true := by decide
  have hFirst : (Gate.mk (some (Filter.require none "A" (.one "yes"))) (some withheld)).isOpen bs =
      true := by decide
  obtain ⟨hBeliefs, hWithheld, hHeld⟩ := visibility_monotone none (some withheld) bs
  refine ⟨hMore, (hBeliefs (some required) more hMore).1 (by decide),
    ⟨hFurther, hWithheld "B" _ ?_ hFurther⟩, hFirst,
    hHeld "A" _ rfl (by decide) (by decide) hFirst⟩
  intro a₀ hLook
  have hOne : some (Filter.Accepted.one "yes") = some a₀ := hLook
  cases hOne
  decide

/-- In the group one requirement more can reveal: `B` is held, and now it is enough. -/
example :
    let grouped : Filter := .ofList [("A", .one "yes"), (matchAcrossKey, .anyOf ["A", "B"])]
    let bs := Beliefs.ofList [⟨"B", "yes", none⟩]
    reveals (some grouped) bs = false ∧
      reveals (some (Filter.require (some grouped) "B" (.one "yes"))) bs = true := by
  decide

end Belief

end PaneEngine
