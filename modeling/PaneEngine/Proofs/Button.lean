import PaneEngine.Button
import PaneEngine.Proofs.Action.Click

/-!
# Links behave as they render

How a link renders is decided when its pane is compiled, what a click on it does
is decided when it is clicked.  The two decisions look at the same resolution in
different orders: rendering asks for a target and then for a cue, a click asks
for a cue of the page in view first.  They fit together because a link stays a
link only without any cue, so a click that finds one is a click on a button.

## Main definitions

* `Renders` — the two ways in which a link with a payload renders.

## Main results

* `renders` — every resolution renders in one of the two ways;
* `click_of_link`, `click_of_inert` — what a click does, read off the rendering;
* `rendering_agrees` — links behave as they render.
-/

namespace PaneEngine.Button

open PaneEngine.Action (Page Resolution Target Outcome Fits SeeksHere click resolve)

/-! ## Rendering -/

/-- The two ways in which a link with a payload renders. -/
inductive Renders (r : Resolution) (shown : Rendering) : Prop where
  /-- It leads somewhere and starts no video. -/
  | link (target : Target) (hTarget : r.target = some target) (hCue : r.cue = none)
      (hTag : shown.tag = "a") (hHref : shown.href = some target.href)
  | button (hStays : r.cue ≠ none ∨ r.target = none) (hTag : shown.tag = "button")
      (hHref : shown.href = none)

theorem renders (b : Button) (r : Resolution) : Renders r (b.renderingOf r) := by
  unfold renderingOf
  cases hTarget : r.target with
  | none => exact .button (.inr hTarget) rfl rfl
  | some target =>
      cases hCue : r.cue with
      | none => exact .link target hTarget hCue rfl rfl
      | some cue => exact .button (.inl (by simp [hCue])) rfl rfl

/-- Of the payload only what it takes over from the resolution changes. -/
theorem renderingOf_button (b : Button) (r : Resolution) :
    (b.renderingOf r).button =
      { b with isExternal := r.target.map Target.isExternal, cue := r.cue } := by
  unfold renderingOf
  split <;> rfl

theorem rendering_callback (here : Page) (b : Button) :
    (b.rendering here).button.callback = b.callback := by
  rw [rendering, renderingOf_button]

/-- What a payload took over before does not matter. -/
theorem renderingOf_stale (b : Button) (isExternal : Option Bool) (cue : Option VideoCue)
    (r : Resolution) :
    ({ b with isExternal := isExternal, cue := cue } : Button).renderingOf r = b.renderingOf r := by
  unfold renderingOf
  split <;> rfl

section

variable {r : Resolution} {shown : Rendering}

theorem Renders.tag_eq_button_iff (h : Renders r shown) :
    shown.tag = "button" ↔ shown.href = none := by
  cases h with
  | link target _ _ hTag hHref => simp [hTag, hHref]
  | button _ hTag hHref => simp [hTag, hHref]

theorem Renders.href_eq_none_iff (h : Renders r shown) :
    shown.href = none ↔ r.cue ≠ none ∨ r.target = none := by
  cases h with
  | link target hTarget hCue _ hHref => simp [hTarget, hCue, hHref]
  | button hStays _ hHref => simp [hStays, hHref]

theorem Renders.tag_cases (h : Renders r shown) : shown.tag = "a" ∨ shown.tag = "button" := by
  cases h with
  | link _ _ _ hTag _ => exact .inl hTag
  | button _ hTag _ => exact .inr hTag

theorem Renders.target_of_link (h : Renders r shown) (hTag : shown.tag = "a") :
    ∃ target, r.target = some target ∧ r.cue = none ∧ shown.href = some target.href := by
  cases h with
  | link target hTarget hCue _ hHref => exact ⟨target, hTarget, hCue, hHref⟩
  | button _ hButton _ => simp [hTag] at hButton

end

/-! ## Clicks -/

section

variable {here : Page} {s : String} (pane : String) (events : List Event)

/-- Without a cue a click navigates, and records no more than that the page was clicked. -/
theorem click_of_link {target : Target} (hTarget : (resolve here s).target = some target)
    (hCue : (resolve here s).cue = none) :
    (click here (resolve here s) pane events).1 = .navigate target ∧
      ∃ added, (click here (resolve here s) pane events).2 = events ++ added ∧
        ∀ e ∈ added, e.kind = .paneClicked := by
  have hNone : ∀ cue, ¬ SeeksHere here (resolve here s) cue := by
    intro cue hSeeks
    cases hCue.symm.trans hSeeks.given
  have hOutcome : (click here (resolve here s) pane events).1 = .navigate target :=
    (Action.click_eq_iff here s pane events _).2 (.navigate hTarget hNone)
  have hEvents := Action.click_events here (resolve here s) pane events
  rw [hOutcome] at hEvents
  refine ⟨hOutcome, _, hEvents, ?_⟩
  intro e hMem
  obtain ⟨slug, _, rfl⟩ := Option.map_eq_some_iff.1 (Option.mem_toList.1 hMem)
  rfl

theorem click_of_inert (hTarget : (resolve here s).target = none)
    (hCue : (resolve here s).cue = none) :
    (click here (resolve here s) pane events).1 = .inert :=
  (Action.click_eq_iff here s pane events _).2 (.inert hTarget hCue)

end

/-- **Links behave as they render.**  For every payload, page, pane and earlier events: what renders
as a link has an address, and a click on it navigates to the target with that address, which lies
outside the site exactly if the payload says so, and starts no video.  What renders as a button has
no address, and that is so exactly if the action has a cue or leads nowhere.  The payload takes over
the cue of the action, and a button whose payload has neither a cue nor a word on its target is
inert.  All else in the payload stays, whatever it took over before is dropped, and on the same page
the new payload renders as the old one did. -/
theorem rendering_agrees (here : Page) (b : Button) (pane : String) (events : List Event) :
    let r := resolve here b.callback
    let shown := b.rendering here
    let clicked := click here r pane events
    (shown.tag = "a" ∨ shown.tag = "button") ∧
    (shown.tag = "a" →
      ∃ target, clicked.1 = .navigate target ∧ shown.href = some target.href ∧
        shown.button.isExternal = some target.isExternal) ∧
    (shown.tag = "a" →
      ∃ added, clicked.2 = events ++ added ∧ ∀ e ∈ added, e.kind ≠ .startVideo) ∧
    (shown.tag = "button" ↔ shown.href = none) ∧
    (shown.href = none ↔ r.cue ≠ none ∨ r.target = none) ∧
    shown.button.cue = r.cue ∧
    (shown.tag = "button" → shown.button.isExternal = none → shown.button.cue = none →
      clicked.1 = .inert) ∧
    (shown.button.callback = b.callback ∧ shown.button.className = b.className ∧
      shown.button.classes = b.classes ∧ shown.button.hoverClasses = b.hoverClasses) ∧
    (∀ isExternal cue,
      ({ b with isExternal := isExternal, cue := cue } : Button).rendering here = shown) ∧
    shown.button.rendering here = shown := by
  intro r shown clicked
  have hRenders : Renders r shown := renders b r
  have hPayload : shown.button =
      { b with isExternal := r.target.map Target.isExternal, cue := r.cue } :=
    renderingOf_button b r
  have hStale : ∀ isExternal cue,
      ({ b with isExternal := isExternal, cue := cue } : Button).rendering here = shown := by
    intro isExternal cue
    exact renderingOf_stale b isExternal cue r
  refine ⟨hRenders.tag_cases, ?_, ?_, hRenders.tag_eq_button_iff, hRenders.href_eq_none_iff,
    by rw [hPayload], ?_, by simp only [hPayload, and_self], hStale, ?_⟩
  · intro hTag
    obtain ⟨target, hTarget, hCue, hHref⟩ := hRenders.target_of_link hTag
    refine ⟨target, (click_of_link pane events hTarget hCue).1, hHref, ?_⟩
    rw [hPayload, hTarget]
    rfl
  · intro hTag
    obtain ⟨target, hTarget, hCue, _⟩ := hRenders.target_of_link hTag
    obtain ⟨_, added, hAdded, hKind⟩ := click_of_link pane events hTarget hCue
    refine ⟨added, hAdded, ?_⟩
    intro e hMem hStart
    rw [hKind e hMem] at hStart
    cases hStart
  · intro _ hExternal hCue
    rw [hPayload] at hExternal hCue
    exact click_of_inert pane events (Option.map_eq_none_iff.1 hExternal) hCue
  · rw [hPayload]
    exact hStale _ _

/-- A button whose payload was filled in when its action was still another one. -/
def staleButton (callback : String) : Button where
  callback := callback
  className := some "btn"
  classes := .empty
  hoverClasses := .empty
  isExternal := some true
  cue := some ⟨7, none, none, false⟩

theorem parse_pricing : Action.parse "/pricing" = .ok (.link "/pricing") := by
  have hTokens : Action.tokens "/pricing".toList = [.word "/pricing".toList] := by decide +kernel
  unfold Action.parse Action.readTerms
  rw [hTokens]
  rfl

/-- A link inside the site loses the stale cue and is no longer external; a video on another page is
a button, though a click on it navigates. -/
theorem rendering_agrees_staleButton :
    let page := (staleButton "/pricing").rendering Action.contextPage
    let video := (staleButton Action.homeVideo).rendering Action.contextPage
    (page.tag = "a" ∧ page.href = some "/pricing" ∧ page.button.isExternal = some false ∧
      page.button.cue = none ∧
      (click Action.contextPage (resolve Action.contextPage "/pricing") "pane" []).1 =
        .navigate (.path "/pricing")) ∧
    (video.tag = "button" ∧ video.href = none ∧
      video.button.cue = some ⟨42, none, some "hello", false⟩) := by
  intro page video
  have hPage : resolve Action.contextPage "/pricing" = ⟨some (.path "/pricing"), none⟩ := by
    rw [Action.resolve_of_parse parse_pricing]
    decide
  have hVideo : (resolve Action.contextPage Action.homeVideo).cue =
      some ⟨42, none, some "hello", false⟩ := by
    rw [Action.resolve_of_parse Action.parse_homeVideo]
    rfl
  obtain ⟨hTag, hLink, _, hButton, hHref, hCue, _⟩ :=
    rendering_agrees Action.contextPage (staleButton "/pricing") "pane" []
  have hStays : page.href ≠ none := by
    intro hNone
    have hOpen : (resolve Action.contextPage "/pricing").cue ≠ none ∨
        (resolve Action.contextPage "/pricing").target = none := hHref.1 hNone
    simp [hPage] at hOpen
  have hLinkTag : page.tag = "a" := hTag.resolve_right fun h => hStays (hButton.1 h)
  obtain ⟨target, hNavigate, hAddress, hExternal⟩ := hLink hLinkTag
  have hClick := (click_of_link "pane" [] (congrArg Resolution.target hPage)
    (congrArg Resolution.cue hPage)).1
  cases hNavigate.symm.trans hClick
  have hPageCue : page.button.cue = none := hCue.trans (congrArg Resolution.cue hPage)
  obtain ⟨_, _, _, hVideoButton, hVideoHref, hVideoCue, _⟩ :=
    rendering_agrees Action.contextPage (staleButton Action.homeVideo) "pane" []
  have hNoAddress : video.href = none := by
    refine hVideoHref.2 (.inl ?_)
    intro hNone
    cases hNone.symm.trans hVideo
  exact ⟨⟨hLinkTag, hAddress, hExternal, hPageCue, hClick⟩, hVideoButton.2 hNoAddress, hNoAddress,
    hVideoCue.trans hVideo⟩

end PaneEngine.Button
