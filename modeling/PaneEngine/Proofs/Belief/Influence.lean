import PaneEngine.Proofs.Belief.Rule

/-!
# Which beliefs a pane depends on

A gate names the slugs that its two filters require.  The decision looks up
nothing else: beliefs that agree on the named slugs open the gate or shut it
alike, whatever else is held, and whatever the reserved keys list.  As an event
writes at most under its own id, events about other slugs do not move the pane.

## Main definitions

* `Belief.Gate.named` — the slugs that a gate names;
* `Beliefs.AgreeOn` — the same is held about certain slugs.

## Main results

* `isOpen_of_agree` — the decision depends on the named slugs alone;
* `agreeOn_applyAll` — events about other slugs keep what is held about these.
-/

namespace PaneEngine

/-! ## Beliefs that agree -/

namespace Beliefs

/-- The same is held about each of the slugs. -/
def AgreeOn (slugs : List String) (bs bs' : Beliefs) : Prop :=
  ∀ slug ∈ slugs, bs.get? slug = bs'.get? slug

variable {slugs : List String}

theorem AgreeOn.trans {bs bs' bs'' : Beliefs} (h : AgreeOn slugs bs bs')
    (h' : AgreeOn slugs bs' bs'') : AgreeOn slugs bs bs'' := by
  intro slug hMem
  exact (h slug hMem).trans (h' slug hMem)

/-- An event is not about one of the slugs: it is about another one, or about no belief. -/
def Spares (slugs : List String) (e : Event) : Prop := e.kind = .belief → e.id ∉ slugs

theorem agreeOn_apply {e : Event} (h : Spares slugs e) (bs : Beliefs) :
    AgreeOn slugs (bs.apply e).beliefs bs := by
  intro slug hMem
  rw [get?_apply, if_neg]
  rintro ⟨hKind, hSlug⟩
  exact h hKind (hSlug ▸ hMem)

theorem agreeOn_applyAll {es : List Event} (h : ∀ e ∈ es, Spares slugs e) (bs : Beliefs) :
    AgreeOn slugs (bs.applyAll es) bs := by
  induction es generalizing bs with
  | nil => exact fun _ _ => rfl
  | cons e rest ih =>
      have hFirst := agreeOn_apply (h e List.mem_cons_self) bs
      have hRest := ih (fun e' hMem => h e' (List.mem_cons_of_mem _ hMem)) (bs.apply e).beliefs
      exact hRest.trans hFirst

end Beliefs

/-! ## Slugs that a gate names -/

namespace Belief

/-- The slugs that a filter requires, which may be missing. -/
def namedBy (f : Option Filter) : List String := (f.map Filter.required).getD []

/-- The slugs that the filters of a gate require. -/
def Gate.named (g : Gate) : List String := namedBy g.held ++ namedBy g.withheld

theorem mem_namedBy_of_requires {f : Option Filter} {slug : String} {values : List String}
    (h : Requires f slug values) : slug ∈ namedBy f := by
  obtain ⟨hAcross, hLinked, filter, accepted, rfl, hLook, _⟩ := h
  have hHeld : filter.contains slug = true := by
    rw [Dict.contains_iff, hLook]
    exact Option.some_ne_none accepted
  exact (filter.mem_required slug).2 ⟨hHeld, hAcross, hLinked⟩

section

variable {bs bs' : Beliefs}

theorem satisfied_congr {slug : String} (h : bs.get? slug = bs'.get? slug)
    (values : List String) : Satisfied bs slug values ↔ Satisfied bs' slug values := by
  unfold Satisfied
  rw [h]

theorem satisfied_of_agree {f : Option Filter} (h : Beliefs.AgreeOn (namedBy f) bs bs')
    {slug : String} {values : List String} (hRequires : Requires f slug values) :
    Satisfied bs slug values ↔ Satisfied bs' slug values :=
  satisfied_congr (h slug (mem_namedBy_of_requires hRequires)) values

theorem withholds_of_agree {f : Option Filter} (h : Beliefs.AgreeOn (namedBy f) bs bs') :
    withholds f bs = withholds f bs' := by
  rw [Bool.eq_iff_iff, withholds_iff, withholds_iff]
  refine exists₂_congr ?_
  intro slug values
  exact and_congr_right fun hRequires => satisfied_of_agree h hRequires

theorem reveals_of_agree {f : Option Filter} (h : Beliefs.AgreeOn (namedBy f) bs bs') :
    reveals f bs = reveals f bs' := by
  rw [Bool.eq_iff_iff, reveals_iff, reveals_iff]
  refine and_congr ?_ (imp_congr_right fun _ => ?_)
  · refine forall₂_congr ?_
    intro slug values
    exact imp_congr_right fun hRequires => imp_congr_right fun _ => satisfied_of_agree h hRequires
  · refine exists₂_congr ?_
    intro slug values
    exact and_congr_right fun hRequires => and_congr_right fun _ => satisfied_of_agree h hRequires

/-- **The decision depends on the named slugs alone.** -/
theorem isOpen_of_agree {g : Gate} (h : Beliefs.AgreeOn g.named bs bs') :
    g.isOpen bs = g.isOpen bs' := by
  have hHeld : Beliefs.AgreeOn (namedBy g.held) bs bs' :=
    fun slug hMem => h slug (List.mem_append_left _ hMem)
  have hWithheld : Beliefs.AgreeOn (namedBy g.withheld) bs bs' :=
    fun slug hMem => h slug (List.mem_append_right _ hMem)
  unfold Gate.isOpen
  rw [reveals_of_agree hHeld, withholds_of_agree hWithheld]

/-- Which panes are visible is decided for each by its own gate. -/
theorem get?_visibility (panes : Dict Gate) (bs : Beliefs) (pane : String) :
    (visibility panes bs).get? pane = (panes.get? pane).map fun g => g.isOpen bs :=
  Dict.get?_map _ panes pane

end

end Belief

end PaneEngine
