import PaneEngine.Proofs.Action.Cue
import PaneEngine.Proofs.Action.Seconds

/-!
# Actions that lead somewhere

Whether an action has a target is decided in several places: a place has to be
complete before its arguments are looked at, only the storykeep may stay bare,
and addresses, times and rooms may still turn out to be none.  Said at once, the
actions with a target are links to an address and calls to a place that leads
somewhere with its arguments.

A place looks at no more arguments than it needs.  So once it is complete,
further words and parameters change nothing.

## Main definitions

* `IsAddress` — an address that leads somewhere;
* `Leads` — a place leads somewhere with its arguments;
* `Actionable` — the actions that lead somewhere.

## Main results

* `reached?_isSome_iff` — the places that have a target with their arguments;
* `Leads.isComplete` — a place that leads somewhere is complete, unless it is the bare storykeep;
* `Place.append_of_isComplete` — a complete place does not look at further arguments;
* `actionable_exact` — the actions with a target, and what changes nothing about it.
-/

namespace PaneEngine.Action

/-- An address that leads somewhere: a secure one, or one from the root. -/
def IsAddress (url : String) : Prop := "https://".toList <+: url.toList ∨ "/".toList <+: url.toList

/-- A place leads somewhere with its arguments. -/
inductive Leads : Place → List String → Prop where
  | home (args : List String) : Leads .home args
  | bareStorykeep : Leads .storykeep []
  | room {room : String} (hRoom : room ∈ Place.rooms) (more : List String) :
      Leads .storykeep (room :: more)
  | concierge (operation : String) (more : List String) : Leads .concierge (operation :: more)
  | context (slug : String) (more : List String) : Leads .context (slug :: more)
  | product (id : String) (more : List String) : Leads .product (id :: more)
  | storyFragment (slug : String) (more : List String) : Leads .storyFragment (slug :: more)
  | url {address : String} (hAddress : IsAddress address) (more : List String) :
      Leads .url (address :: more)
  | storyFragmentPane (slug pane : String) (more : List String) :
      Leads .storyFragmentPane (slug :: pane :: more)
  | bunny (slug : String) {time : String} (hTime : ∃ t, IsTime time t) (more : List String) :
      Leads .bunny (slug :: time :: more)
  | bunnyContext (slug : String) {time : String} (hTime : ∃ t, IsTime time t)
      (more : List String) : Leads .bunnyContext (slug :: time :: more)

/-- The actions that lead somewhere: a link to an address, or a `goto` whose first parameter names
a place and gives it arguments with which it leads somewhere. -/
inductive Actionable : Action → Prop where
  | link {url : String} (hAddress : IsAddress url) : Actionable (.link url)
  | goto {first : Param} {p : Place} {args : List String} (hWords : first.words = p.name :: args)
      (hLeads : Leads p args) (more : List Param) : Actionable (.call "goto" (first :: more))

/-! ## Addresses, rooms and places -/

theorem urlTarget?_isSome_iff {url : String} : (urlTarget? url).isSome = true ↔ IsAddress url := by
  rw [IsAddress, ← List.isPrefixOf_iff_prefix, ← List.isPrefixOf_iff_prefix]
  unfold urlTarget? Text.beginsWith
  split
  · next hSecure => exact iff_of_true rfl (.inl hSecure)
  · next hSecure =>
    split
    · next hRoot => exact iff_of_true rfl (.inr hRoot)
    · next hRoot => exact iff_of_false Bool.false_ne_true (not_or.2 ⟨hSecure, hRoot⟩)

/-- The rooms of the storykeep are those that have a target. -/
theorem roomTarget?_isSome_iff {room : String} :
    (roomTarget? room).isSome = true ↔ room ∈ Place.rooms := by
  simp only [Place.rooms, List.mem_cons, List.not_mem_nil, or_false]
  constructor
  · intro hSome
    by_contra hNone
    obtain ⟨hDashboard, hSettings, hLogin, hLogout⟩ :
        room ≠ "dashboard" ∧ room ≠ "settings" ∧ room ≠ "login" ∧ room ≠ "logout" := by
      simpa only [not_or] using hNone
    rw [roomTarget?, if_neg hDashboard, if_neg hSettings, if_neg hLogin, if_neg hLogout] at hSome
    cases hSome
  · rintro (rfl | rfl | rfl | rfl) <;> rfl

theorem seconds?_isSome_iff {time : String} :
    (seconds? time).isSome = true ↔ ∃ t, IsTime time t := by
  simp only [Option.isSome_iff_exists, seconds?_eq_some_iff]

theorem Place.ofName?_eq_some_iff {name : String} {p : Place} :
    ofName? name = some p ↔ p.name = name := by
  constructor
  · intro h
    have hFound := List.find?_some h
    exact of_decide_eq_true hFound
  · rintro rfl
    cases p <;> rfl

theorem leads_of_reached? {here : Page} {p : Place} {args : List String}
    (h : (p.reached? here args).isSome = true) : Leads p args := by
  match p, args with
  | .home, args => exact .home args
  | .storykeep, [] => exact .bareStorykeep
  | .storykeep, room :: more =>
      rw [Place.reached?, if_pos (by simp)] at h
      exact .room (roomTarget?_isSome_iff.1 h) more
  | .concierge, operation :: more => exact .concierge operation more
  | .context, slug :: more => exact .context slug more
  | .product, id :: more => exact .product id more
  | .storyFragment, slug :: more => exact .storyFragment slug more
  | .url, address :: more => exact .url (urlTarget?_isSome_iff.1 h) more
  | .storyFragmentPane, slug :: pane :: more => exact .storyFragmentPane slug pane more
  | .bunny, slug :: time :: more =>
      exact .bunny slug (seconds?_isSome_iff.1 ((Option.isSome_map).symm.trans h)) more
  | .bunnyContext, slug :: time :: more =>
      exact .bunnyContext slug (seconds?_isSome_iff.1 ((Option.isSome_map).symm.trans h)) more

theorem reached?_of_leads (here : Page) {p : Place} {args : List String} (h : Leads p args) :
    (p.reached? here args).isSome = true := by
  cases h with
  | home => rfl
  | bareStorykeep => rfl
  | room hRoom more =>
      rw [Place.reached?, if_pos (by simp)]
      exact roomTarget?_isSome_iff.2 hRoom
  | concierge => rfl
  | context => rfl
  | product => rfl
  | storyFragment => rfl
  | url hAddress => exact urlTarget?_isSome_iff.2 hAddress
  | storyFragmentPane => rfl
  | bunny slug hTime => exact Option.isSome_map.trans (seconds?_isSome_iff.2 hTime)
  | bunnyContext slug hTime => exact Option.isSome_map.trans (seconds?_isSome_iff.2 hTime)

/-- **The places that have a target with their arguments.** -/
theorem reached?_isSome_iff (here : Page) (p : Place) (args : List String) :
    (p.reached? here args).isSome = true ↔ Leads p args :=
  ⟨leads_of_reached?, reached?_of_leads here⟩

theorem goto?_eq_some_iff {command : String} {params : List Param} {p : Place}
    {args : List String} :
    goto? command params = some (p, args) ↔
      command = "goto" ∧ ∃ first more, params = first :: more ∧ first.words = p.name :: args := by
  constructor
  · intro h
    have hCommand := goto?_eq_some h
    refine ⟨hCommand, ?_⟩
    unfold goto? at h
    rw [if_pos hCommand] at h
    match params with
    | first :: more =>
        match hWords : first.words with
        | name :: args' =>
            simp only [hWords, Option.map_eq_some_iff, Prod.mk.injEq] at h
            obtain ⟨p', hName, rfl, rfl⟩ := h
            exact ⟨first, more, rfl, by rw [hWords, Place.ofName?_eq_some_iff.1 hName]⟩
        | [] => simp [hWords] at h
    | [] => cases h
  · rintro ⟨rfl, first, more, rfl, hWords⟩
    exact goto?_of_name hWords (Place.ofName?_eq_some_iff.2 rfl)

/-- **The actions that have a target.** -/
theorem target?_isSome_iff (here : Page) (a : Action) :
    (a.target? here).isSome = true ↔ Actionable a := by
  cases a with
  | link url =>
      refine urlTarget?_isSome_iff.trans ⟨.link, ?_⟩
      intro h
      cases h with
      | link hAddress => exact hAddress
  | call command params =>
      constructor
      · intro h
        cases hGoto : goto? command params with
        | none =>
            simp only [target?, hGoto] at h
            cases h
        | some place =>
            obtain ⟨p, args⟩ := place
            rw [target?_of_goto hGoto, reached?_isSome_iff] at h
            obtain ⟨rfl, first, more, rfl, hWords⟩ := goto?_eq_some_iff.1 hGoto
            exact .goto hWords h more
      · intro h
        cases h with
        | goto hWords hLeads more =>
            have hGoto := goto?_eq_some_iff.2 ⟨rfl, _, more, rfl, hWords⟩
            rw [target?_of_goto hGoto, reached?_isSome_iff]
            exact hLeads

/-! ## Completeness -/

/-- A place that leads somewhere is complete, unless it is the bare storykeep. -/
theorem Leads.isComplete {p : Place} {args : List String} (h : Leads p args)
    (hBare : ¬ (p = .storykeep ∧ args = [])) : p.isComplete args = true := by
  cases h with
  | bareStorykeep => exact absurd ⟨rfl, rfl⟩ hBare
  | room hRoom more => exact List.contains_iff_mem.2 hRoom
  | _ => rfl

/-- A complete place looks at none of the arguments that come after. -/
theorem Place.append_of_isComplete {p : Place} {args : List String} (h : p.isComplete args = true)
    (here : Page) (extra : List String) :
    p.isComplete (args ++ extra) = true ∧ p.target? here (args ++ extra) = p.target? here args ∧
      p.cue? (args ++ extra) = p.cue? args := by
  match p, args with
  | .home, _ => exact ⟨rfl, rfl, rfl⟩
  | .storykeep, _ :: _ => exact ⟨h, rfl, rfl⟩
  | .concierge, _ :: _ => exact ⟨rfl, rfl, rfl⟩
  | .context, _ :: _ => exact ⟨rfl, rfl, rfl⟩
  | .product, _ :: _ => exact ⟨rfl, rfl, rfl⟩
  | .storyFragment, _ :: _ => exact ⟨rfl, rfl, rfl⟩
  | .url, _ :: _ => exact ⟨rfl, rfl, rfl⟩
  | .storyFragmentPane, _ :: _ :: _ => exact ⟨rfl, rfl, rfl⟩
  | .bunny, _ :: _ :: _ => exact ⟨rfl, rfl, rfl⟩
  | .bunnyContext, _ :: _ :: _ => exact ⟨rfl, rfl, rfl⟩

theorem Place.reached?_append {p : Place} {args : List String} (h : p.isComplete args = true)
    (here : Page) (extra : List String) :
    p.reached? here (args ++ extra) = p.reached? here args := by
  obtain ⟨hComplete, hTarget, -⟩ := append_of_isComplete h here extra
  rw [reached?, reached?, if_pos (by simp [hComplete]), if_pos (by simp [h]), hTarget]

/-- **The actions that lead somewhere, and what changes nothing about it.**  On every page an action
has a target exactly if it is a link to an address or a `goto` with a place that leads somewhere.
A `goto` with a target is complete, unless it is the bare storykeep.  And once the place of a
`goto` is complete, further words in its parameter and further parameters leave it complete and
change neither its target nor its cue. -/
theorem actionable_exact (here : Page) :
    (∀ a : Action, (a.target? here).isSome = true ↔ Actionable a) ∧
    (∀ (first : Param) (more : List Param) (p : Place) (args : List String),
      first.words = p.name :: args →
      (target? here (.call "goto" (first :: more))).isSome = true →
      ¬ (p = .storykeep ∧ args = []) → p.isComplete args = true) ∧
    ∀ (first first' : Param) (more further : List Param) (p : Place) (args extra : List String),
      first.words = p.name :: args → p.isComplete args = true →
      first'.words = first.words ++ extra →
      p.isComplete (args ++ extra) = true ∧
        target? here (.call "goto" (first' :: (more ++ further))) =
          target? here (.call "goto" (first :: more)) ∧
        cue? here (.call "goto" (first' :: (more ++ further))) =
          cue? here (.call "goto" (first :: more)) := by
  have hGoto : ∀ {first : Param} (more : List Param) {p : Place} {args : List String},
      first.words = p.name :: args → goto? "goto" (first :: more) = some (p, args) := by
    intro first more p args hWords
    exact goto?_eq_some_iff.2 ⟨rfl, first, more, rfl, hWords⟩
  refine ⟨target?_isSome_iff here, ?_, ?_⟩
  · intro first more p args hWords hTarget hBare
    rw [target?_of_goto (hGoto more hWords), reached?_isSome_iff] at hTarget
    exact hTarget.isComplete hBare
  · intro first first' more further p args extra hWords hComplete hWords'
    rw [hWords, List.cons_append] at hWords'
    have hBefore := hGoto more hWords
    have hAfter := hGoto (more ++ further) hWords'
    obtain ⟨hStill, -, hCue⟩ := p.append_of_isComplete hComplete here extra
    refine ⟨hStill, ?_, ?_⟩
    · rw [target?_of_goto hAfter, target?_of_goto hBefore, p.reached?_append hComplete]
    · rw [cue?_of_goto hAfter, cue?_of_goto hBefore, hCue]

/-- A video with a word behind its time, and a bare storykeep, which is not complete. -/
theorem actionable_exact_homeVideo :
    let video : Param := .tuple ["bunny", "hello", "042s"]
    let longer : Param := .tuple ["bunny", "hello", "042s", "again"]
    Place.bunny.isComplete ["hello", "042s"] = true ∧
      Place.bunny.isComplete ["hello", "042s", "again"] = true ∧
      target? contextPage (.call "goto" [longer, .word "x"]) =
        target? contextPage (.call "goto" [video]) ∧
      cue? contextPage (.call "goto" [longer, .word "x"]) =
        cue? contextPage (.call "goto" [video]) ∧
      Actionable (.call "goto" [video]) ∧
      Actionable (.call "goto" [.word "storykeep"]) ∧
      Place.storykeep.isComplete [] = false := by
  intro video longer
  obtain ⟨hExact, hNeeded, hFurther⟩ := actionable_exact contextPage
  have hSome : (target? contextPage (.call "goto" [video])).isSome = true := by decide +kernel
  have hComplete := hNeeded video [] .bunny ["hello", "042s"] rfl hSome (by decide)
  obtain ⟨hStill, hTarget, hCue⟩ := hFurther video longer [] [.word "x"] .bunny
    ["hello", "042s"] ["again"] rfl hComplete rfl
  exact ⟨hComplete, hStill, hTarget, hCue, (hExact _).1 hSome, (hExact _).1 rfl, rfl⟩

end PaneEngine.Action
