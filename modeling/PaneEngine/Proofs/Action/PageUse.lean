import PaneEngine.Proofs.Action.Actionable

/-!
# Actions that use the page they are on

Of the page that an action is on, its slug and its kind are read in two places
only: a bare storykeep leads to the editor of that page, and a moment is for the
video on it.  All other actions mean the same on every page of a site; what they
use besides is the slug of the home page, which the pages of a site share.

So the two readings of an action are compared on two pages of one site, first
place by place and then for whole actions and texts.

## Main definitions

* `IsBareStorykeep`, `IsMoment` — the actions that use the page;
* `UsesPage` — the texts of such actions.

## Main results

* `Place.target?_congr` — places that lead to the same target from every page;
* `target?_congr`, `cue?_congr` — an action has the same target, and the same cue, on every page;
* `resolve_congr` — what a text resolves to on every page.
-/

namespace PaneEngine.Action

/-- A `goto` with the storykeep and no further words; further parameters do not matter. -/
def IsBareStorykeep (a : Action) : Prop :=
  ∃ first more, a = .call "goto" (first :: more) ∧ first.words = [Place.storykeep.name]

/-- A moment, complete or not. -/
def IsMoment (a : Action) : Prop := ∃ params, a = .call "bunnyMoment" params

/-- A text is an action that uses the page it is on. -/
def UsesPage (text : String) : Prop := ∃ a, parse text = .ok a ∧ (IsBareStorykeep a ∨ IsMoment a)

section

variable {here here' : Page} (hHome : here.homeSlug = here'.homeSlug)

include hHome

/-! ## Places -/

theorem Page.pathOf_congr (slug : String) : here.pathOf slug = here'.pathOf slug := by
  rw [pathOf, pathOf, hHome]

/-- Every arm but that of the bare storykeep reads no more of the page than the home slug. -/
theorem Place.target?_congr {p : Place} {args : List String}
    (h : ¬ (p = .storykeep ∧ args = [])) : p.target? here args = p.target? here' args := by
  have hPath := Page.pathOf_congr hHome
  match p, args with
  | .home, _ => rw [target?, target?, hHome]
  | .storykeep, [] => exact absurd ⟨rfl, rfl⟩ h
  | .storykeep, _ :: _ => rfl
  | .concierge, [] | .concierge, _ :: _ => rfl
  | .context, [] | .context, _ :: _ => rfl
  | .product, [] | .product, _ :: _ => rfl
  | .storyFragment, [] => rfl
  | .storyFragment, slug :: _ => rw [target?, target?, hPath]
  | .storyFragmentPane, [] | .storyFragmentPane, [_] => rfl
  | .storyFragmentPane, slug :: pane :: _ => rw [target?, target?, hPath]
  | .bunny, [] | .bunny, [_] => rfl
  | .bunny, slug :: t :: _ => rw [target?, target?, hPath]
  | .bunnyContext, [] | .bunnyContext, [_] | .bunnyContext, _ :: _ :: _ => rfl
  | .url, [] | .url, _ :: _ => rfl

theorem Place.reached?_congr {p : Place} {args : List String}
    (h : ¬ (p = .storykeep ∧ args = [])) : p.reached? here args = p.reached? here' args := by
  rw [reached?, reached?, target?_congr hHome h]

/-! ## Actions -/

/-- The target of an action is the same on every page, unless it is a bare storykeep. -/
theorem target?_congr {a : Action} (h : ¬ IsBareStorykeep a) :
    a.target? here = a.target? here' := by
  cases a with
  | link url => rfl
  | call command params =>
      cases hGoto : goto? command params with
      | none => simp only [target?, hGoto]
      | some place =>
          obtain ⟨p, args⟩ := place
          rw [target?_of_goto hGoto, target?_of_goto hGoto]
          refine Place.reached?_congr hHome ?_
          rintro ⟨rfl, rfl⟩
          obtain ⟨rfl, first, more, rfl, hWords⟩ := goto?_eq_some_iff.1 hGoto
          exact h ⟨first, more, rfl, hWords⟩

omit hHome in
/-- The cue of an action is the same on every page, of whatever site, unless it is a moment. -/
theorem cue?_congr {a : Action} (h : ¬ IsMoment a) : a.cue? here = a.cue? here' := by
  cases a with
  | link url => rfl
  | call command params =>
      have hCommand : ¬ command = "bunnyMoment" := fun hMoment => h ⟨params, by rw [hMoment]⟩
      simp only [cue?, if_neg hCommand]

/-! ## Texts -/

theorem resolve_target_congr {text : String} (h : ∀ a, parse text = .ok a → ¬ IsBareStorykeep a) :
    (resolve here text).target = (resolve here' text).target := by
  cases hParse : parse text with
  | error e => simp only [resolve, hParse]
  | ok a =>
      rw [resolve_of_parse hParse, resolve_of_parse hParse]
      exact target?_congr hHome (h a hParse)

omit hHome in
theorem resolve_cue_congr {text : String} (h : ∀ a, parse text = .ok a → ¬ IsMoment a) :
    (resolve here text).cue = (resolve here' text).cue := by
  cases hParse : parse text with
  | error e => simp only [resolve, hParse]
  | ok a =>
      rw [resolve_of_parse hParse, resolve_of_parse hParse]
      exact cue?_congr (h a hParse)

/-- A text that does not use the page resolves to the same on every page of a site. -/
theorem resolve_congr {text : String} (h : ¬ UsesPage text) :
    resolve here text = resolve here' text := by
  have hTarget : (resolve here text).target = (resolve here' text).target :=
    resolve_target_congr hHome fun a hParse hBare => h ⟨a, hParse, .inl hBare⟩
  have hCue : (resolve here text).cue = (resolve here' text).cue :=
    resolve_cue_congr fun a hParse hMoment => h ⟨a, hParse, .inr hMoment⟩
  calc resolve here text
      = ⟨(resolve here text).target, (resolve here text).cue⟩ := rfl
    _ = ⟨(resolve here' text).target, (resolve here' text).cue⟩ := by rw [hTarget, hCue]
    _ = resolve here' text := rfl

end

end PaneEngine.Action
