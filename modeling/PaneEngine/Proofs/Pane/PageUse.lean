import PaneEngine.Proofs.Action.PageUse
import PaneEngine.Proofs.Pane.Link

/-!
# Panes on other pages of a site

A pane is compiled for the page that it stands on, but it asks for the page only
where a link has a button, and there only for what the action of the button
resolves to.  So on two pages of one site every node of the compiled pane is the
same, but for links whose button has an action that uses the page.

## Main definitions

* `Settings.onPage` — the settings of a pane that stands on another page.

## Main results

* `rendering_congr` — what a link with a payload renders as;
* `elementNode_onPage` — the node of an element on two pages;
* `page_independent` — only bare storykeeps and moments depend on the page.
-/

namespace PaneEngine.Pane

open PaneEngine.Action (Page UsesPage IsBareStorykeep IsMoment resolve parse)

/-- The settings of a pane that stands on another page. -/
def Settings.onPage (s : Settings) (here : Page) : Settings := { s with page := here }

section

variable {here here' : Page} (hHome : here.homeSlug = here'.homeSlug)

include hHome

/-! ## Links -/

theorem rendering_congr {b : Button} (h : ¬ UsesPage b.callback) :
    b.rendering here = b.rendering here' := by
  rw [Button.rendering, Button.rendering, Action.resolve_congr hHome h]

variable (s : Settings)

/-- The payload of a compiled link keeps its action, so the node shows whether the page counts. -/
theorem withLink_onPage (href : Option String) (n : Node)
    (h : ∀ b, (withLink (s.onPage here) href n).button = some b → ¬ UsesPage b.callback) :
    withLink (s.onPage here') href n = withLink (s.onPage here) href n := by
  cases href with
  | none => rfl
  | some address =>
      cases hBound : s.options.buttons.get? address with
      | none =>
          rw [withLink_of_unbound (s.onPage here) hBound,
            withLink_of_unbound (s.onPage here') hBound]
      | some b =>
          rw [withLink_of_bound (s.onPage here) hBound] at h ⊢
          have hUse : ¬ UsesPage (b.rendering here).button.callback := h _ rfl
          rw [Button.rendering_callback] at hUse
          rw [withLink_of_bound (s.onPage here') hBound]
          show { n with
              tag := (b.rendering here').tag, href := (b.rendering here').href
              button := some (b.rendering here').button } = _
          rw [← rendering_congr hHome hUse]
          rfl

/-! ## Nodes -/

theorem elementNode_onPage (id p tag : String) (style : Style.Resolved) (t : Tree)
    (h : ∀ b, (elementNode (s.onPage here) id p tag style t).button = some b →
      ¬ UsesPage b.callback) :
    elementNode (s.onPage here') id p tag style t =
      elementNode (s.onPage here) id p tag style t := by
  by_cases hLink : tag = "a"
  · subst hLink
    exact withLink_onPage hHome s (t.property? "href") (frameNode id p "a" style) h
  · unfold elementNode
    simp only [if_neg hLink]
    rfl

theorem Kept.node_onPage (id p : String) (style : Style.Resolved) (k : Kept)
    (h : ∀ b, (k.node (s.onPage here) id p style).button = some b → ¬ UsesPage b.callback) :
    k.node (s.onPage here') id p style = k.node (s.onPage here) id p style := by
  cases k with
  | text value => rfl
  | element tag properties children => exact elementNode_onPage hHome s id p tag style _ h

/-- Places, parents and styles do not depend on the page, so nodes are compared place by place. -/
theorem compile_onPage (ids : Nat → String) (t : Tree) {i : Nat} {n : Node}
    (hNode : (compile (s.onPage here) ids t).nodes[i]? = some n)
    (h : ∀ b, n.button = some b → ¬ UsesPage b.callback) :
    (compile (s.onPage here') ids t).nodes[i]? = some n := by
  rw [compile_getElem?] at hNode ⊢
  obtain ⟨r, hRow, rfl⟩ := Option.map_eq_some_iff.1 hNode
  rw [hRow]
  exact congrArg some (r.label.node_onPage hHome s (ids r.number)
    (parentName (s.onPage here) ids r.parent)
    (styleBehind (s.onPage here) ((layout t).take i) r.label.tag) h)

/-- **Only bare storykeeps and moments depend on the page.**  On two pages with the same home slug,
whatever their own slugs and kinds are, a text resolves to the same target unless it is a bare
storykeep, and to the same cue unless it is a moment.  Apart from these a payload renders the same,
and a pane has the same nodes, each with its tag, address and payload: a node of the pane on one
page is at its place on the other page too, unless it has a button with such an action. -/
theorem page_independent :
    (∀ text, (∀ a, parse text = .ok a → ¬ IsBareStorykeep a) →
      (resolve here text).target = (resolve here' text).target) ∧
    (∀ text, (∀ a, parse text = .ok a → ¬ IsMoment a) →
      (resolve here text).cue = (resolve here' text).cue) ∧
    (∀ b : Button, ¬ UsesPage b.callback → b.rendering here = b.rendering here') ∧
    ∀ (s : Settings) (ids : Nat → String) (t : Tree) (i : Nat) (n : Node),
      (compile (s.onPage here) ids t).nodes[i]? = some n →
      (∀ b, n.button = some b → ¬ UsesPage b.callback) →
      (compile (s.onPage here') ids t).nodes[i]? = some n :=
  ⟨fun _ => Action.resolve_target_congr hHome, fun _ => Action.resolve_cue_congr,
    fun _ => rendering_congr hHome, fun s ids t _ _ => compile_onPage hHome s ids t⟩

end

/-- The bare storykeep. -/
def editorHere : String := "(goto (storykeep))"

theorem parse_editorHere : parse editorHere = .ok (.call "goto" [.tuple ["storykeep"]]) := by
  have hTokens : Action.tokens editorHere.toList =
      [.opening, .word "goto".toList, .opening, .word "storykeep".toList, .closing, .closing] := by
    decide +kernel
  unfold Action.parse Action.readTerms
  rw [hTokens]
  rfl

/-- Settings with a button that starts a video on the home page and one that leads to the editor. -/
def editorSettings : Settings :=
  { plainSettings with
    options := { Options.empty with
      buttons := .ofList [("#watch", Button.staleButton Action.homeVideo),
        ("#edit", Button.staleButton editorHere)] } }

/-- A paragraph with a link to each button. -/
def editorLinks : Tree :=
  let link (address : String) : Tree :=
    .element (some "a") (.ofList [("href", .string address)]) [.text "x"]
  .element (some "p") .empty [link "#watch", link "#edit"]

theorem not_usesPage_homeVideo : ¬ UsesPage Action.homeVideo := by
  rintro ⟨a, hParse, hUse⟩
  rw [Action.parse_homeVideo] at hParse
  cases hParse
  rcases hUse with ⟨first, more, hCall, hWords⟩ | ⟨params, hCall⟩
  · cases hCall
    exact absurd hWords (by decide)
  · have hCommand : "goto" = "bunnyMoment" := (Action.call.inj hCall).1
    exact absurd hCommand (by decide)

/-- The link to the video is the same on a context page and on another page of the site; the link to
the editor is not. -/
theorem page_independent_editorLinks :
    let here : Page := Action.contextPage
    let here' : Page := ⟨"about", false, "hello"⟩
    let pane := compile (editorSettings.onPage here) (sequentialIds "n") editorLinks
    let pane' := compile (editorSettings.onPage here') (sequentialIds "n") editorLinks
    here.homeSlug = here'.homeSlug ∧
      (resolve here Action.homeVideo).target = (resolve here' Action.homeVideo).target ∧
      (resolve here Action.homeVideo).cue = (resolve here' Action.homeVideo).cue ∧
      (resolve here editorHere).cue = (resolve here' editorHere).cue ∧
      (Button.staleButton Action.homeVideo).rendering here =
        (Button.staleButton Action.homeVideo).rendering here' ∧
      (∃ n, pane.nodes[1]? = some n ∧ n.tag = "button" ∧ pane'.nodes[1]? = some n) ∧
      (resolve here editorHere).target ≠ (resolve here' editorHere).target := by
  intro here here' pane pane'
  have hHome : here.homeSlug = here'.homeSlug := rfl
  obtain ⟨hTarget, hCue, hRendering, hNodes⟩ := page_independent hHome
  have hVideo : ∀ a, parse Action.homeVideo = .ok a → ¬ IsBareStorykeep a ∧ ¬ IsMoment a := by
    intro a hParse
    exact ⟨fun hBare => not_usesPage_homeVideo ⟨a, hParse, .inl hBare⟩,
      fun hMoment => not_usesPage_homeVideo ⟨a, hParse, .inr hMoment⟩⟩
  have hEditor : ∀ a, parse editorHere = .ok a → ¬ IsMoment a := by
    intro a hParse
    rw [parse_editorHere] at hParse
    cases hParse
    rintro ⟨params, hCall⟩
    have hCommand : "goto" = "bunnyMoment" := (Action.call.inj hCall).1
    exact absurd hCommand (by decide)
  have hFound : ∃ n, pane.nodes[1]? = some n ∧ n.tag = "button" ∧
      n.button.map Button.callback = some Action.homeVideo := by
    refine ⟨_, compile_getElem? _ _ editorLinks 1, ?_, ?_⟩
    · decide +kernel
    · decide +kernel
  obtain ⟨n, hNode, hTag, hCallback⟩ := hFound
  refine ⟨hHome, hTarget _ fun a hParse => (hVideo a hParse).1,
    hCue _ fun a hParse => (hVideo a hParse).2, hCue _ hEditor,
    hRendering _ not_usesPage_homeVideo,
    ⟨n, hNode, hTag, hNodes editorSettings _ editorLinks 1 n hNode ?_⟩, ?_⟩
  · intro b hButton
    rw [hButton] at hCallback
    rw [Option.some.inj hCallback]
    exact not_usesPage_homeVideo
  · rw [Action.resolve_of_parse parse_editorHere, Action.resolve_of_parse parse_editorHere]
    decide

end PaneEngine.Pane
