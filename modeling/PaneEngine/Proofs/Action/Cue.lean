import PaneEngine.Action.Cue

/-!
# Target and cue of one action

An action is read twice: for the target that it leads to and for the cue that it
starts a video with.  The target is given only once the place has all of its
arguments, the cue is read off the first two of them.  Only the two places that
show a video have a cue, and both need two arguments, so there the readings
succeed and fail together and name the same page and the same second.  A moment
is the one action that has a cue and leads nowhere.

## Main definitions

* `Paired` — how the target and the cue of a place that shows a video stand to each other.

## Main results

* `Place.paired` — the two readings of a place that shows a video are paired;
* `resolve_cases` — every action has no cue, is paired or is a moment;
* `resolve_agrees` — target and cue of a text never disagree.
-/

namespace PaneEngine.Action

/-! ## Places that show a video -/

/-- The route to a second of the video on a page. -/
def videoRoute (here : Page) (isContext : Bool) (slug : String) (t : Nat) : Route where
  path := (if isContext then "/context/" ++ slug
    else if slug = here.homeSlug then "/" else "/" ++ slug) ++ "?t=" ++ toString t ++ "s#bunny"
  slug := some slug
  anchor := none

/-- There are neither target nor cue, or both, and then they are for the same second on the same
page. -/
inductive Paired (here : Page) : Option Target → Option VideoCue → Prop where
  | neither : Paired here none none
  | both (slug : String) (t : Nat) (isContext : Bool) :
      Paired here (some (.internal (videoRoute here isContext slug t)))
        (some ⟨t, none, some slug, isContext⟩)

theorem Paired.isSome_eq {here : Page} {target : Option Target} {cue : Option VideoCue}
    (h : Paired here target cue) : target.isSome = cue.isSome := by
  cases h <;> rfl

theorem Paired.of_cue {here : Page} {target : Option Target} {cue : VideoCue}
    (h : Paired here target (some cue)) :
    cue.videoId = none ∧ ∃ slug, cue.slug = some slug ∧
      target = some (.internal (videoRoute here cue.isContext slug cue.seconds)) := by
  cases h with
  | both slug t isContext => exact ⟨rfl, slug, rfl, rfl⟩

/-- Whether a place shows a video. -/
def Place.showsVideo (p : Place) : Prop := p = .bunny ∨ p = .bunnyContext

/-- What `target?` makes of a place: its target, once it is complete. -/
def Place.reached? (here : Page) (p : Place) (args : List String) : Option Target :=
  if p.isComplete args || p = .storykeep then p.target? here args else none

/-- Once page and time are given, both readings depend on the time alone. -/
theorem paired_seconds (here : Page) (isContext : Bool) (slug t : String) :
    Paired here
      ((seconds? t).map fun n => .internal (videoRoute here isContext slug n))
      ((seconds? t).map fun n => ⟨n, none, some slug, isContext⟩) := by
  cases seconds? t with
  | none => exact .neither
  | some n => exact .both slug n isContext

/-- **The two readings of a place that shows a video are paired**, whatever its arguments are: with
fewer than two there is neither, with more only the first two count. -/
theorem Place.paired {p : Place} (h : p.showsVideo) (here : Page) (args : List String) :
    Paired here (p.reached? here args) (p.cue? args) := by
  match args with
  | [] => rcases h with rfl | rfl <;> exact .neither
  | [_] => rcases h with rfl | rfl <;> exact .neither
  | slug :: t :: more =>
      rcases h with rfl | rfl
      · exact paired_seconds here false slug t
      · exact paired_seconds here true slug t

theorem Place.cue?_eq_none {p : Place} (h : ¬ p.showsVideo) (args : List String) :
    p.cue? args = none := by
  unfold showsVideo at h
  unfold cue?
  split
  · exact absurd (.inl rfl) h
  · exact absurd (.inr rfl) h
  · rfl

/-! ## Actions -/

theorem goto?_eq_some {command : String} {params : List Param} {p : Place} {args : List String}
    (h : goto? command params = some (p, args)) : command = "goto" := by
  unfold goto? at h
  split at h
  · assumption
  · cases h

theorem target?_of_goto {command : String} {params : List Param} {p : Place}
    {args : List String} (h : goto? command params = some (p, args)) (here : Page) :
    target? here (.call command params) = p.reached? here args := by
  simp only [target?, h]
  rfl

theorem cue?_of_goto {command : String} {params : List Param} {p : Place} {args : List String}
    (h : goto? command params = some (p, args)) (here : Page) :
    cue? here (.call command params) = p.cue? args := by
  have hMoment : ¬ command = "bunnyMoment" := by
    rw [goto?_eq_some h]
    decide
  simp only [cue?, if_neg hMoment, h]

theorem goto?_of_name {first : Param} {more : List Param} {name : String} {args : List String}
    (hWords : first.words = name :: args) {p : Place} (hName : Place.ofName? name = some p) :
    goto? "goto" (first :: more) = some (p, args) := by
  simp [goto?, hWords, hName]

theorem momentCue?_page {here : Page} {params : List Param} {cue : VideoCue}
    (h : momentCue? here params = some cue) :
    cue.slug = some here.slug ∧ cue.isContext = here.isContext := by
  unfold momentCue? at h
  split at h
  · split at h
    · obtain ⟨t, _, rfl⟩ := Option.map_eq_some_iff.1 h
      exact ⟨rfl, rfl⟩
    · cases h
  · cases h

/-- The actions are told apart as the cue is read: a moment comes first, then the places. -/
theorem action_cases (here : Page) (a : Action) :
    a.cue? here = none ∨ Paired here (a.target? here) (a.cue? here) ∨
      ∃ params, a = .call "bunnyMoment" params ∧ a.target? here = none ∧
        a.cue? here = momentCue? here params := by
  cases a with
  | link url => exact .inl rfl
  | call command params =>
      by_cases hMoment : command = "bunnyMoment"
      · subst hMoment
        exact .inr (.inr ⟨params, rfl, rfl, rfl⟩)
      · cases hGoto : goto? command params with
        | none =>
            refine .inl ?_
            simp only [cue?, if_neg hMoment, hGoto]
        | some reading =>
            obtain ⟨p, args⟩ := reading
            rw [target?_of_goto hGoto, cue?_of_goto hGoto]
            by_cases hVideo : p.showsVideo
            · exact .inr (.inl (p.paired hVideo here args))
            · exact .inl (p.cue?_eq_none hVideo args)

/-! ## Texts -/

theorem resolve_of_parse {s : String} {a : Action} (h : parse s = .ok a) (here : Page) :
    resolve here s = ⟨a.target? here, a.cue? here⟩ := by
  simp only [resolve, h]

theorem resolve_cases (here : Page) (s : String) :
    (resolve here s).cue = none ∨ Paired here (resolve here s).target (resolve here s).cue ∨
      ∃ params, parse s = .ok (.call "bunnyMoment" params) ∧ (resolve here s).target = none ∧
        (resolve here s).cue = momentCue? here params := by
  cases hParse : parse s with
  | error e =>
      refine .inl ?_
      simp only [resolve, hParse]
  | ok a =>
      rw [resolve_of_parse hParse]
      rcases action_cases here a with hNone | hPaired | ⟨params, rfl, hTarget, hCue⟩
      · exact .inl hNone
      · exact .inr (.inl hPaired)
      · exact .inr (.inr ⟨params, rfl, hTarget, hCue⟩)

section

variable {here : Page} {s : String} {target : Target} {cue : VideoCue}

theorem target_with_cue (hTarget : (resolve here s).target = some target)
    (hCue : (resolve here s).cue = some cue) :
    cue.videoId = none ∧ ∃ slug, cue.slug = some slug ∧
      target = .internal (videoRoute here cue.isContext slug cue.seconds) := by
  rcases resolve_cases here s with hNone | hPaired | ⟨_, _, hNowhere, _⟩
  · rw [hNone] at hCue
    cases hCue
  · rw [hTarget, hCue] at hPaired
    obtain ⟨hVideo, slug, hSlug, hRoute⟩ := hPaired.of_cue
    exact ⟨hVideo, slug, hSlug, Option.some.inj hRoute⟩
  · rw [hNowhere] at hTarget
    cases hTarget

/-- A cue without a target is for the page that the action is on. -/
theorem cue_without_target (hTarget : (resolve here s).target = none)
    (hCue : (resolve here s).cue = some cue) :
    (∃ params, parse s = .ok (.call "bunnyMoment" params)) ∧
      cue.slug = some here.slug ∧ cue.isContext = here.isContext := by
  rcases resolve_cases here s with hNone | hPaired | ⟨params, hParse, _, hMoment⟩
  · rw [hNone] at hCue
    cases hCue
  · rw [hTarget, hCue] at hPaired
    cases hPaired
  · rw [hMoment] at hCue
    exact ⟨⟨params, hParse⟩, momentCue?_page hCue⟩

/-- Every cue names the page that shows the video. -/
theorem exists_slug_of_cue (h : (resolve here s).cue = some cue) :
    ∃ slug, cue.slug = some slug := by
  cases hTarget : (resolve here s).target with
  | none => exact ⟨here.slug, (cue_without_target hTarget h).2.1⟩
  | some target =>
      obtain ⟨_, slug, hSlug, _⟩ := target_with_cue hTarget h
      exact ⟨slug, hSlug⟩

end

/-- A call to a place that shows a video resolves to a pair. -/
theorem paired_of_parse {here : Page} {s : String} {params : List Param} {p : Place}
    {args : List String} (hParse : parse s = .ok (.call "goto" params))
    (hGoto : goto? "goto" params = some (p, args)) (hVideo : p.showsVideo) :
    Paired here (resolve here s).target (resolve here s).cue := by
  rw [resolve_of_parse hParse]
  show Paired here (target? here (.call "goto" params)) (cue? here (.call "goto" params))
  rw [target?_of_goto hGoto, cue?_of_goto hGoto]
  exact p.paired hVideo here args

/-- **Target and cue never disagree.**  For every text on every page: where both are there, the
target is a route inside the site without an anchor, to the page of the cue and at its second, and
the cue names no video; a cue without a target is a moment on the page in view; and of a `bunny` or
`bunnyContext`, with whatever arguments, there are both or neither. -/
theorem resolve_agrees (here : Page) (s : String) :
    let r := resolve here s
    (∀ target cue, r.target = some target → r.cue = some cue →
      cue.videoId = none ∧ ∃ slug, cue.slug = some slug ∧
        target = .internal (videoRoute here cue.isContext slug cue.seconds)) ∧
    (∀ cue, r.target = none → r.cue = some cue →
      (∃ params, parse s = .ok (.call "bunnyMoment" params)) ∧
        cue.slug = some here.slug ∧ cue.isContext = here.isContext) ∧
    (∀ first more name args, parse s = .ok (.call "goto" (first :: more)) →
      first.words = name :: args → name = "bunny" ∨ name = "bunnyContext" →
      r.target.isSome = r.cue.isSome) := by
  refine ⟨fun _ _ => target_with_cue, fun _ => cue_without_target, ?_⟩
  intro first more name args hParse hWords hName
  obtain ⟨p, hPlace, hVideo⟩ : ∃ p, Place.ofName? name = some p ∧ p.showsVideo := by
    rcases hName with rfl | rfl
    · exact ⟨.bunny, by decide, .inl rfl⟩
    · exact ⟨.bunnyContext, by decide, .inr rfl⟩
  exact (paired_of_parse hParse (goto?_of_name hWords hPlace) hVideo).isSome_eq

/-- A context page of a site whose home page is `hello`. -/
def contextPage : Page := ⟨"faq", true, "hello"⟩

/-- A video on the home page, with a word behind the time and a parenthesis too many. -/
def homeVideo : String := "(goto (bunny hello 042s again)))"

/-- A moment of the video on the page in view. -/
def momentHere : String := "(bunnyMoment (v 9))"

theorem parse_homeVideo :
    parse homeVideo = .ok (.call "goto" [.tuple ["bunny", "hello", "042s", "again"]]) := by
  have hTokens : tokens homeVideo.toList =
      [.opening, .word "goto".toList, .opening, .word "bunny".toList, .word "hello".toList,
        .word "042s".toList, .word "again".toList, .closing, .closing, .closing] := by
    decide +kernel
  unfold parse readTerms
  rw [hTokens]
  rfl

theorem parse_momentHere :
    parse momentHere = .ok (.call "bunnyMoment" [.tuple ["v", "9"]]) := by
  have hTokens : tokens momentHere.toList =
      [.opening, .word "bunnyMoment".toList, .opening, .word "v".toList, .word "9".toList,
        .closing, .closing] := by
    decide +kernel
  unfold parse readTerms
  rw [hTokens]
  rfl

/-- The video is on the home page, wherever the text stands; a moment stays on the page. -/
theorem resolve_agrees_homeVideo :
    (resolve contextPage homeVideo).cue = some ⟨42, none, some "hello", false⟩ ∧
      (resolve contextPage homeVideo).target =
        some (.internal ⟨"/?t=42s#bunny", some "hello", none⟩) ∧
      (resolve contextPage momentHere).target = none ∧
      ∃ cue, (resolve contextPage momentHere).cue = some cue ∧
        cue.slug = some "faq" ∧ cue.isContext = true := by
  have hCue : (resolve contextPage homeVideo).cue = some ⟨42, none, some "hello", false⟩ := by
    rw [resolve_of_parse parse_homeVideo]
    rfl
  obtain ⟨hBoth, _, hTogether⟩ := resolve_agrees contextPage homeVideo
  have hSome := hTogether _ _ _ _ parse_homeVideo rfl (.inl rfl)
  rw [hCue] at hSome
  obtain ⟨target, hTarget⟩ := Option.isSome_iff_exists.1 hSome
  obtain ⟨_, slug, hSlug, rfl⟩ := hBoth target _ hTarget hCue
  cases hSlug
  have hNowhere : (resolve contextPage momentHere).target = none := by
    rw [resolve_of_parse parse_momentHere]
    rfl
  have hSeek : (resolve contextPage momentHere).cue =
      some ⟨9, some "v", some "faq", true⟩ := by
    rw [resolve_of_parse parse_momentHere]
    rfl
  obtain ⟨_, hAlone, _⟩ := resolve_agrees contextPage momentHere
  exact ⟨hCue, hTarget, hNowhere, _, hSeek, (hAlone _ hNowhere hSeek).2⟩

end PaneEngine.Action
