import PaneEngine.Action.Click
import PaneEngine.Proofs.Action.Cue

/-!
# What a click does

A click seeks the video if there is a cue for the page in view, and otherwise
follows the target.  A cue for another page, without a target, would be passed
over although the action counts as one that does something.  No text gives such
a cue: a cue without a target is a moment, and a moment is for the page in view.

## Main definitions

* `SeeksHere` — a resolution has a cue for the page in view;
* `Fits` — the outcome that belongs to a resolution;
* `Outcome.record?` — the event that belongs to an outcome.

## Main results

* `click_eq_iff` — a click has the outcome that belongs to what its text resolves to;
* `click_events` — a click records the event of its outcome and no other;
* `click_complete` — clicks are handled completely, and once.
-/

namespace PaneEngine.Action

/-- The cue of a resolution is for the page in view. -/
structure SeeksHere (here : Page) (r : Resolution) (cue : VideoCue) : Prop where
  given : r.cue = some cue
  sameSlug : cue.slug = some here.slug
  sameContext : cue.isContext = here.isContext

/-! ## The outcome of a click -/

/-- The outcome that belongs to a resolution. -/
inductive Fits (here : Page) (r : Resolution) : Outcome → Prop where
  | seekVideo {cue : VideoCue} (hSeeks : SeeksHere here r cue) : Fits here r (.seekVideo cue)
  | navigate {target : Target} (hTarget : r.target = some target)
      (hNone : ∀ cue, ¬ SeeksHere here r cue) : Fits here r (.navigate target)
  | inert (hTarget : r.target = none) (hCue : r.cue = none) : Fits here r .inert

theorem Fits.unique {here : Page} {r : Resolution} {o o' : Outcome} (h : Fits here r o)
    (h' : Fits here r o') : o = o' := by
  cases h with
  | seekVideo hSeeks =>
      cases h' with
      | seekVideo hSeeks' => rw [Option.some.inj (hSeeks.given.symm.trans hSeeks'.given)]
      | navigate _ hNone => exact absurd hSeeks (hNone _)
      | inert _ hCue => cases hSeeks.given.symm.trans hCue
  | navigate hTarget hNone =>
      cases h' with
      | seekVideo hSeeks => exact absurd hSeeks (hNone _)
      | navigate hTarget' _ => rw [Option.some.inj (hTarget.symm.trans hTarget')]
      | inert hNowhere _ => cases hTarget.symm.trans hNowhere
  | inert hTarget hCue =>
      cases h' with
      | seekVideo hSeeks => cases hSeeks.given.symm.trans hCue
      | navigate hTarget' _ => cases hTarget'.symm.trans hTarget
      | inert _ _ => rfl

section

variable {here : Page} {r : Resolution}

theorem fits_inert_iff : Fits here r .inert ↔ r.isActionable = false := by
  have hNothing : r.isActionable = false ↔ r.target = none ∧ r.cue = none := by
    simp [Resolution.isActionable]
  rw [hNothing]
  constructor
  · intro h
    cases h with
    | inert hTarget hCue => exact ⟨hTarget, hCue⟩
  · intro h
    exact .inert h.1 h.2

theorem fits_seekVideo_iff (cue : VideoCue) :
    Fits here r (.seekVideo cue) ↔ SeeksHere here r cue := by
  constructor
  · intro h
    cases h with
    | seekVideo hSeeks => exact hSeeks
  · exact .seekVideo

theorem fits_navigate_iff (target : Target) :
    Fits here r (.navigate target) ↔
      r.target = some target ∧ ∀ cue, ¬ SeeksHere here r cue := by
  constructor
  · intro h
    cases h with
    | navigate hTarget hNone => exact ⟨hTarget, hNone⟩
  · intro h
    exact .navigate h.1 h.2

end

theorem isHere_iff {here : Page} {cue : VideoCue} {slug : String} (h : cue.slug = some slug) :
    isHere here cue = true ↔ slug = here.slug ∧ cue.isContext = here.isContext := by
  simp [isHere, cueSlug, h]

theorem click_of_not_isHere {here : Page} {r : Resolution}
    (h : ∀ cue, r.cue = some cue → ¬ isHere here cue = true) (pane : String)
    (events : List Event) : click here r pane events = follow r pane events := by
  unfold click
  cases hCue : r.cue with
  | none => rfl
  | some cue => exact if_neg (h cue hCue)

/-- If nothing seeks and there is no target, nothing is left of the action: were there a cue, it
would be for the page in view. -/
theorem follow_fits {here : Page} {s : String}
    (hNone : ∀ cue, ¬ SeeksHere here (resolve here s) cue) (pane : String)
    (events : List Event) :
    Fits here (resolve here s) (follow (resolve here s) pane events).1 := by
  unfold follow
  cases hTarget : (resolve here s).target with
  | some target => exact .navigate hTarget hNone
  | none =>
      refine .inert hTarget ?_
      cases hCue : (resolve here s).cue with
      | none => rfl
      | some cue =>
          obtain ⟨_, hSlug, hContext⟩ := cue_without_target hTarget hCue
          exact absurd ⟨hCue, hSlug, hContext⟩ (hNone cue)

theorem click_fits (here : Page) (s pane : String) (events : List Event) :
    Fits here (resolve here s) (click here (resolve here s) pane events).1 := by
  by_cases hSeeks : ∃ cue, SeeksHere here (resolve here s) cue
  · obtain ⟨cue, hCue⟩ := hSeeks
    have hHere := (isHere_iff hCue.sameSlug).2 ⟨rfl, hCue.sameContext⟩
    simp only [click, hCue.given, if_pos hHere]
    exact .seekVideo hCue
  · have hNone : ∀ cue, ¬ SeeksHere here (resolve here s) cue := not_exists.1 hSeeks
    rw [click_of_not_isHere ?_ pane events]
    · exact follow_fits hNone pane events
    · -- A cue of a text names a page, so it is not taken for one on the page in view.
      intro cue hCue hHere
      obtain ⟨slug, hSlug⟩ := exists_slug_of_cue hCue
      obtain ⟨rfl, hContext⟩ := (isHere_iff hSlug).1 hHere
      exact hNone cue ⟨hCue, hSlug, hContext⟩

/-- **A click has the outcome that belongs to what its text resolves to**, and no other. -/
theorem click_eq_iff (here : Page) (s pane : String) (events : List Event) (o : Outcome) :
    (click here (resolve here s) pane events).1 = o ↔ Fits here (resolve here s) o := by
  have hFits := click_fits here s pane events
  exact ⟨fun h => h ▸ hFits, hFits.unique⟩

/-! ## The events of a click -/

/-- The event that belongs to an outcome. -/
def Outcome.record? (here : Page) (pane : String) : Outcome → Option Event
  | .seekVideo _ => some ⟨pane, .startVideo, "WATCHED", none, some here.slug⟩
  | .navigate target =>
    target.slug?.map fun slug => ⟨pane, .paneClicked, "CLICKED", none, some slug⟩
  | .inert => none

theorem follow_events (here : Page) (r : Resolution) (pane : String) (events : List Event) :
    (follow r pane events).2 =
      events ++ ((follow r pane events).1.record? here pane).toList := by
  unfold follow
  split
  · exact (List.append_nil events).symm
  · rfl

/-- **A click records the event of its outcome and no other**, whatever it was resolved from. -/
theorem click_events (here : Page) (r : Resolution) (pane : String) (events : List Event) :
    (click here r pane events).2 =
      events ++ ((click here r pane events).1.record? here pane).toList := by
  unfold click
  split
  · next cue _ =>
    by_cases hHere : isHere here cue = true
    · have hSlug : cueSlug here cue = here.slug := by
        simp only [isHere, Bool.and_eq_true, decide_eq_true_eq] at hHere
        exact hHere.1
      simp only [if_pos hHere, hSlug]
      rfl
    · simp only [if_neg hHere]
      exact follow_events here r pane events
  · exact follow_events here r pane events

theorem Target.slug?_eq_some_iff (target : Target) (slug : String) :
    target.slug? = some slug ↔ ∃ route, target = .internal route ∧ route.slug = some slug := by
  cases target with
  | internal route => simp [Target.slug?]
  | external url => simp [Target.slug?]

/-- A page is recorded as clicked exactly if the target is a route that names it. -/
theorem record?_navigate_iff (here : Page) (pane : String) (target : Target) (e : Event) :
    (Outcome.navigate target).record? here pane = some e ↔
      ∃ route slug, target = .internal route ∧ route.slug = some slug ∧
        e = ⟨pane, .paneClicked, "CLICKED", none, some slug⟩ := by
  simp only [Outcome.record?, Option.map_eq_some_iff, Target.slug?_eq_some_iff]
  constructor
  · rintro ⟨slug, ⟨route, hRoute, hSlug⟩, rfl⟩
    exact ⟨route, slug, hRoute, hSlug, rfl⟩
  · rintro ⟨route, slug, hRoute, hSlug, rfl⟩
    exact ⟨slug, ⟨route, hRoute, hSlug⟩, rfl⟩

/-- **A click is handled completely, and once.**  For every text, page, pane and earlier events:
the click is inert exactly if the text resolves to nothing that does something; the earlier events
stay and at most one is added; it seeks exactly a cue for the page in view, and records that the
video of the page was watched; otherwise it navigates exactly to the target, and records that the
page was clicked exactly if the target is a route inside the site that names one; and an inert
click records nothing. -/
theorem click_complete (here : Page) (s pane : String) (events : List Event) :
    let r := resolve here s
    let c := click here r pane events
    (c.1 = .inert ↔ r.isActionable = false) ∧
    (c.2 = events ∨ ∃ e, c.2 = events ++ [e]) ∧
    (∀ cue, c.1 = .seekVideo cue ↔ SeeksHere here r cue) ∧
    (∀ cue, c.1 = .seekVideo cue →
      c.2 = events ++ [⟨pane, .startVideo, "WATCHED", none, some here.slug⟩]) ∧
    (∀ target, c.1 = .navigate target ↔
      r.target = some target ∧ ∀ cue, ¬ SeeksHere here r cue) ∧
    (∀ target, c.1 = .navigate target → ∀ e, c.2 = events ++ [e] ↔
      ∃ route slug, target = .internal route ∧ route.slug = some slug ∧
        e = ⟨pane, .paneClicked, "CLICKED", none, some slug⟩) ∧
    (c.1 = .inert → c.2 = events) := by
  intro r c
  have hOutcome : ∀ o, c.1 = o ↔ Fits here r o := click_eq_iff here s pane events
  have hEvents : ∀ o, c.1 = o → c.2 = events ++ (o.record? here pane).toList := by
    intro o ho
    rw [← ho]
    exact click_events here r pane events
  refine ⟨?_, ?_, ?_, fun cue => hEvents (.seekVideo cue), ?_, ?_, ?_⟩
  · rw [hOutcome, fits_inert_iff]
  · have hAdded := hEvents c.1 rfl
    cases hRecord : c.1.record? here pane with
    | none =>
        rw [hRecord] at hAdded
        exact .inl (hAdded.trans (List.append_nil events))
    | some e =>
        rw [hRecord] at hAdded
        exact .inr ⟨e, hAdded⟩
  · intro cue
    rw [hOutcome, fits_seekVideo_iff]
  · intro target
    rw [hOutcome, fits_navigate_iff]
  · intro target hTarget e
    rw [hEvents _ hTarget, List.append_cancel_left_eq, ← record?_navigate_iff here]
    cases (Outcome.navigate target).record? here pane <;> simp
  · intro hInert
    rw [hEvents _ hInert]
    exact List.append_nil events

/-- For a resolution that no text has, an action that does something may be inert. -/
example :
    let r : Resolution := ⟨none, some ⟨9, none, some "other", true⟩⟩
    (click contextPage r "pane" []).1 = .inert ∧ r.isActionable = true := by decide

/-- A moment on the page in view is watched there; a video on the home page is clicked.  The event
of an earlier click stays. -/
theorem click_complete_contextPage :
    let before : List Event := [.paneClicked "pane" "faq"]
    let watch := click contextPage (resolve contextPage momentHere) "pane" before
    let visit := click contextPage (resolve contextPage homeVideo) "pane" before
    watch.1 = .seekVideo ⟨9, some "v", some "faq", true⟩ ∧
      watch.2 = before ++ [⟨"pane", .startVideo, "WATCHED", none, some "faq"⟩] ∧
      visit.1 = .navigate (.internal ⟨"/?t=42s#bunny", some "hello", none⟩) ∧
      visit.2 = before ++ [⟨"pane", .paneClicked, "CLICKED", none, some "hello"⟩] := by
  intro before watch visit
  have hWatch : watch.1 = .seekVideo ⟨9, some "v", some "faq", true⟩ := by
    simp only [watch, resolve_of_parse parse_momentHere]
    rfl
  have hVisit : visit.1 = .navigate (.internal ⟨"/?t=42s#bunny", some "hello", none⟩) := by
    simp only [visit, resolve_of_parse parse_homeVideo]
    rfl
  obtain ⟨_, _, _, hWatched, _⟩ := click_complete contextPage momentHere "pane" before
  obtain ⟨_, _, _, _, _, hClicked, _⟩ := click_complete contextPage homeVideo "pane" before
  exact ⟨hWatch, hWatched _ hWatch, hVisit,
    (hClicked _ hVisit _).2 ⟨_, "hello", rfl, rfl, rfl⟩⟩

end PaneEngine.Action
