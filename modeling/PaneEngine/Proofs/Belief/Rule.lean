import PaneEngine.Proofs.Belief.Return

/-!
# The rule of visibility

A filter, which may be missing, requires values of slugs; its reserved keys
require nothing.  The rule says when a pane is visible without saying in which
order anything is looked at: outside the group that matches across every
required slug is satisfied, of the group one is if there is any, and nothing
that the withheld filter requires is.

The decision is this rule, so whatever the rule does not mention has no
influence on the decision.

## Main definitions

* `Belief.Satisfied` — a belief that has one of the required values is held;
* `Belief.Requires`, `Belief.Grouped` — what a filter requires, and which slugs match across;
* `Belief.Alike` — filters that require the same, alone and in the group.

## Main results

* `reveals_iff`, `withholds_iff` — the decisions of the two filters;
* `isOpen_iff_rule` — a pane is visible exactly by the rule, and by nothing else.
-/

namespace PaneEngine.Belief

open PaneEngine.Belief.Filter (matchAcrossKey linkedKey)

/-! ## The rule -/

/-- A belief about the slug is held that has one of the values. -/
def Satisfied (bs : Beliefs) (slug : String) (values : List String) : Prop :=
  ∃ b, bs.get? slug = some b ∧ ∃ v ∈ values, v = "*" ∨ b.verb = v ∨ b.object = some v

/-- The filter requires one of the values of the slug. -/
def Requires (f : Option Filter) (slug : String) (values : List String) : Prop :=
  slug ≠ matchAcrossKey ∧ slug ≠ linkedKey ∧
    ∃ filter accepted, f = some filter ∧ filter.get? slug = some accepted ∧
      accepted.values = values

/-- The slug is one of those that match across. -/
def Grouped (f : Option Filter) (slug : String) : Prop :=
  ∃ filter, f = some filter ∧ slug ∈ filter.matchAcross

@[simp] theorem not_requires_none (slug : String) (values : List String) :
    ¬ Requires none slug values := by
  simp [Requires]

theorem requires_some_iff (f : Filter) (slug : String) (values : List String) :
    Requires (some f) slug values ↔
      slug ≠ matchAcrossKey ∧ slug ≠ linkedKey ∧
        ∃ accepted, f.get? slug = some accepted ∧ accepted.values = values := by
  simp [Requires]

@[simp] theorem grouped_some_iff (f : Filter) (slug : String) :
    Grouped (some f) slug ↔ slug ∈ f.matchAcross := by
  simp [Grouped]

/-! ## The predicates of a filter -/

theorem Filter.mem_predicates_iff (f : Filter) (slug : String) (accepted : Accepted) :
    (slug, accepted) ∈ f.predicates ↔
      slug ≠ matchAcrossKey ∧ slug ≠ linkedKey ∧ f.get? slug = some accepted := by
  unfold predicates
  rw [List.mem_filter, Dict.mem_entries_iff, Bool.not_eq_true', ← Bool.not_eq_true, isReserved_iff,
    not_or]
  exact ⟨fun ⟨hLook, hAcross, hLinked⟩ => ⟨hAcross, hLinked, hLook⟩,
    fun ⟨hAcross, hLinked, hLook⟩ => ⟨hLook, hAcross, hLinked⟩⟩

/-- What a filter requires, read off its predicates. -/
theorem exists_predicate_iff (f : Filter) (P : String → List String → Prop) :
    (∃ p ∈ f.predicates, P p.1 p.2.values) ↔
      ∃ slug values, Requires (some f) slug values ∧ P slug values := by
  constructor
  · rintro ⟨⟨slug, accepted⟩, hMem, hP⟩
    obtain ⟨hAcross, hLinked, hLook⟩ := (f.mem_predicates_iff slug accepted).1 hMem
    exact ⟨slug, accepted.values,
      (requires_some_iff f slug _).2 ⟨hAcross, hLinked, accepted, hLook, rfl⟩, hP⟩
  · rintro ⟨slug, values, hRequires, hP⟩
    obtain ⟨hAcross, hLinked, accepted, hLook, rfl⟩ := (requires_some_iff f slug values).1 hRequires
    exact ⟨(slug, accepted), (f.mem_predicates_iff slug accepted).2 ⟨hAcross, hLinked, hLook⟩, hP⟩

theorem forall_predicate_iff (f : Filter) (P : String → List String → Prop) :
    (∀ p ∈ f.predicates, P p.1 p.2.values) ↔
      ∀ slug values, Requires (some f) slug values → P slug values := by
  have hNot := exists_predicate_iff f fun slug values => ¬ P slug values
  constructor
  · intro h slug values hRequires
    refine Classical.byContradiction fun hP => ?_
    obtain ⟨p, hMem, hFails⟩ := hNot.2 ⟨slug, values, hRequires, hP⟩
    exact hFails (h p hMem)
  · intro h p hMem
    refine Classical.byContradiction fun hP => ?_
    obtain ⟨slug, values, hRequires, hFails⟩ := hNot.1 ⟨p, hMem, hP⟩
    exact hFails (h slug values hRequires)

theorem satisfies_iff (bs : Beliefs) (p : String × Filter.Accepted) :
    satisfies bs p = true ↔ Satisfied bs p.1 p.2.values := by
  unfold satisfies Satisfied
  cases bs.get? p.1 with
  | none => simp
  | some b =>
      have hValue : ∀ v, b.matchesValue v = true ↔ v = "*" ∨ b.verb = v ∨ b.object = some v := by
        intro v
        simp only [matchesValue, Bool.or_eq_true, decide_eq_true_eq, or_assoc]
        exact Iff.rfl
      simp [hValue]

/-! ## The two decisions -/

theorem withholds_iff (f : Option Filter) (bs : Beliefs) :
    withholds f bs = true ↔ ∃ slug values, Requires f slug values ∧ Satisfied bs slug values := by
  cases f with
  | none => simp [withholds]
  | some f =>
      rw [← exists_predicate_iff]
      show withholdsBy f bs = true ↔ _
      simp only [withholdsBy, List.any_eq_true, satisfies_iff]

theorem revealsBy_iff (f : Filter) (bs : Beliefs) :
    revealsBy f bs = true ↔
      (∀ p ∈ f.predicates, p.1 ∉ f.matchAcross → satisfies bs p = true) ∧
      ((∃ p ∈ f.predicates, p.1 ∈ f.matchAcross) →
        ∃ p ∈ f.predicates, p.1 ∈ f.matchAcross ∧ satisfies bs p = true) := by
  unfold revealsBy
  simp only [List.partition_eq_filter_filter, Bool.and_eq_true, List.all_eq_true, Bool.or_eq_true,
    List.isEmpty_iff, List.filter_eq_nil_iff, List.any_eq_true, List.mem_filter, and_assoc]
  refine and_congr ?_ ?_
  · simp
  · simp only [List.contains_iff_mem]
    constructor
    · rintro (hNone | hMet) hSome
      · obtain ⟨p, hMem, hAcross⟩ := hSome
        exact absurd hAcross (hNone p hMem)
      · exact hMet
    · intro h
      by_cases hSome : ∃ p ∈ f.predicates, p.1 ∈ f.matchAcross
      · exact .inr (h hSome)
      · exact .inl fun p hMem hAcross => hSome ⟨p, hMem, hAcross⟩

/-- A held filter reveals when everything outside the group is satisfied, and something of the
group unless the group is empty. -/
theorem reveals_iff (f : Option Filter) (bs : Beliefs) :
    reveals f bs = true ↔
      (∀ slug values, Requires f slug values → ¬ Grouped f slug → Satisfied bs slug values) ∧
      ((∃ slug values, Requires f slug values ∧ Grouped f slug) →
        ∃ slug values, Requires f slug values ∧ Grouped f slug ∧ Satisfied bs slug values) := by
  cases f with
  | none => simp [reveals]
  | some f =>
      show revealsBy f bs = true ↔ _
      simp only [revealsBy_iff, satisfies_iff, grouped_some_iff]
      rw [forall_predicate_iff f fun slug values => slug ∉ f.matchAcross → Satisfied bs slug values,
        exists_predicate_iff f fun slug _ => slug ∈ f.matchAcross,
        exists_predicate_iff f fun slug values => slug ∈ f.matchAcross ∧ Satisfied bs slug values]

theorem isOpen_iff (g : Gate) (bs : Beliefs) :
    g.isOpen bs = true ↔ reveals g.held bs = true ∧ ¬ withholds g.withheld bs = true := by
  unfold Gate.isOpen
  rw [Bool.and_eq_true, Bool.not_eq_true', Bool.not_eq_true]

/-! ## Filters that require the same -/

/-- Two filters require the same, and group the same of what they require.  Which further slugs
they list as matching across and which slugs they link is left open. -/
structure Alike (f f' : Option Filter) : Prop where
  requires_iff : ∀ slug values, Requires f slug values ↔ Requires f' slug values
  grouped_iff : ∀ slug values, Requires f slug values → (Grouped f slug ↔ Grouped f' slug)

theorem reveals_congr {f f' : Option Filter} (h : Alike f f') (bs : Beliefs) :
    reveals f bs = reveals f' bs := by
  have hGroup : ∀ slug values, Requires f slug values ∧ Grouped f slug ↔
      Requires f' slug values ∧ Grouped f' slug := by
    intro slug values
    rw [← h.requires_iff]
    exact and_congr_right fun hRequires => h.grouped_iff slug values hRequires
  rw [Bool.eq_iff_iff, reveals_iff, reveals_iff]
  refine and_congr ?_ ?_
  · refine forall₂_congr ?_
    intro slug values
    rw [← h.requires_iff]
    refine forall_congr' ?_
    intro hRequires
    rw [h.grouped_iff slug values hRequires]
  · simp only [← and_assoc, hGroup]

theorem withholds_congr {f f' : Option Filter}
    (h : ∀ slug values, Requires f slug values ↔ Requires f' slug values) (bs : Beliefs) :
    withholds f bs = withholds f' bs := by
  rw [Bool.eq_iff_iff, withholds_iff, withholds_iff]
  simp only [h]

theorem requires_insert (f : Filter) (key : String) (a : Filter.Accepted) (slug : String)
    (values : List String) :
    Requires (some (f.insert key a)) slug values ↔
      if slug = key then slug ≠ matchAcrossKey ∧ slug ≠ linkedKey ∧ a.values = values
      else Requires (some f) slug values := by
  simp only [requires_some_iff, Dict.get?_insert]
  by_cases hKey : slug = key
  · simp [hKey]
  · simp [hKey]

/-- What stands under a reserved key is not required. -/
theorem requires_insert_reserved (f : Filter) {key : String} (a : Filter.Accepted)
    (h : Filter.isReserved key = true) (slug : String) (values : List String) :
    Requires (some f) slug values ↔ Requires (some (f.insert key a)) slug values := by
  rw [requires_insert]
  by_cases hKey : slug = key
  · rw [if_pos hKey, hKey]
    rcases (Filter.isReserved_iff key).1 h with rfl | rfl
    · simp [Requires]
    · simp [Requires]
  · rw [if_neg hKey]

/-- **A pane is visible exactly by the rule**, whatever its filters and whatever is held: (a) every
required slug that does not match across is satisfied, (b) one of those that match across is, if
any is required, and (c) nothing that the withheld filter requires is.  Slugs that match across
without being required, linked slugs and the reserved keys of the withheld filter have no
influence. -/
theorem isOpen_iff_rule (g : Gate) (bs : Beliefs) :
    (g.isOpen bs = true ↔
      (∀ slug values, Requires g.held slug values → ¬ Grouped g.held slug →
        Satisfied bs slug values) ∧
      ((∃ slug values, Requires g.held slug values ∧ Grouped g.held slug) →
        ∃ slug values, Requires g.held slug values ∧ Grouped g.held slug ∧
          Satisfied bs slug values) ∧
      (∀ slug values, Requires g.withheld slug values → ¬ Satisfied bs slug values)) ∧
    (∀ g' : Gate, Alike g.held g'.held →
      (∀ slug values, Requires g.withheld slug values ↔ Requires g'.withheld slug values) →
      g'.isOpen bs = g.isOpen bs) := by
  refine ⟨?_, ?_⟩
  · rw [isOpen_iff, reveals_iff, withholds_iff, and_assoc]
    simp only [not_exists, not_and]
  · intro g' hHeld hWithheld
    show (reveals g'.held bs && !withholds g'.withheld bs) = _
    rw [← reveals_congr hHeld, ← withholds_congr hWithheld]
    rfl

/-- A filter that requires `A` and one of `B` and `C`; `Z` matches across without being
required. -/
def groupedFilter : Filter :=
  .ofList [("A", .one "yes"), ("B", .anyOf ["x", "y"]), ("C", .one "*"),
    (matchAcrossKey, .anyOf ["Z", "B", "C"])]

/-- The pane is visible with `A` and `C` held, and stays so when slugs are linked and `A` is put
under a reserved key of the withheld filter. -/
theorem isOpen_iff_rule_groupedFilter :
    let bs := Beliefs.ofList [⟨"A", "no", some "yes"⟩, ⟨"C", "maybe", none⟩]
    let withheld : Filter := .ofList [("D", .one "*")]
    let linked := groupedFilter.insert linkedKey (.one "A")
    let reserved := withheld.insert matchAcrossKey (.one "A")
    (Gate.mk (some groupedFilter) (some withheld)).isOpen bs = true ∧
      Alike (some groupedFilter) (some linked) ∧
      (Gate.mk (some linked) (some reserved)).isOpen bs =
        (Gate.mk (some groupedFilter) (some withheld)).isOpen bs ∧
      Requires (some groupedFilter) "A" ["yes"] ∧ ¬ Grouped (some groupedFilter) "A" ∧
      Satisfied bs "A" ["yes"] := by
  intro bs withheld linked reserved
  have hOpen : (Gate.mk (some groupedFilter) (some withheld)).isOpen bs = true := by decide
  have hAlike : Alike (some groupedFilter) (some linked) :=
    ⟨requires_insert_reserved groupedFilter (.one "A") (by decide),
      fun slug values _ => by simp [linked, Filter.matchAcross, Filter.valuesAt, Dict.get?_insert,
        matchAcrossKey, linkedKey]⟩
  obtain ⟨hRule, hFrame⟩ :=
    isOpen_iff_rule (Gate.mk (some groupedFilter) (some withheld)) bs
  have hRequires : Requires (some groupedFilter) "A" ["yes"] :=
    (requires_some_iff _ _ _).2 ⟨by decide, by decide, .one "yes", by decide, rfl⟩
  have hAlone : ¬ Grouped (some groupedFilter) "A" := by
    rw [grouped_some_iff]
    decide
  exact ⟨hOpen, hAlike,
    hFrame ⟨some linked, some reserved⟩ hAlike
      (requires_insert_reserved withheld (.one "A") (by decide)),
    hRequires, hAlone, (hRule.1 hOpen).1 "A" ["yes"] hRequires hAlone⟩

end PaneEngine.Belief
