import PaneEngine.Proofs.Belief.Influence
import PaneEngine.Proofs.Reveal.Isolation

/-!
# Panes that are not concerned

All panes are evaluated when the beliefs change, also those whose filters do not
name what has changed.  Such an evaluation comes out as the one before, so it
shows or hides the pane once more as it was, and a scroll that is pending stays
as it is.

What carries this is how a driver stands between evaluations: its latest
decision is that on the beliefs of then, and the latest show or hide is the one
that this decision asked for.  Waiting and loading the page do not change that.

## Main definitions

* `Driver.latestShown?` — the latest show or hide;
* `Driver.acting` — a driver after one act more;
* `Driver.RestsOn` — the driver stands as evaluated on certain beliefs.

## Main results

* `Driver.evaluate_of_restsOn` — an evaluation that comes out as before;
* `Scene.attends_foldl_play` — the panes of a replay rest on its beliefs;
* `bystander_undisturbed` — beliefs affect only the panes that name them.
-/

namespace PaneEngine.Reveal

open Belief (Gate)

/-- The act that a decision asks for. -/
def Act.ofDecision (visible : Bool) : Act := if visible then .reveal else .conceal

theorem Act.ofDecision_ne_scroll (visible : Bool) : Act.ofDecision visible ≠ .scroll := by
  cases visible <;> decide

namespace Driver

/-- The latest show or hide of the pane. -/
def latestShown? (d : Driver) : Option Act := (d.acts.filter fun a => a ≠ .scroll).getLast?

/-- The driver after an act, and with nothing else changed. -/
def acting (d : Driver) (a : Act) : Driver := { d with trace := d.trace ++ [(d.now, a)] }

/-- The driver stands as an evaluation on the beliefs has left it, but for scrolls. -/
structure RestsOn (d : Driver) (bs : Beliefs) : Prop where
  visible : d.visible = some (d.gate.isOpen bs)
  shown : d.latestShown? = some (Act.ofDecision (d.gate.isOpen bs))

/-! ## One call -/

theorem restsOn_evaluate (d : Driver) (bs : Beliefs) : (d.evaluate bs).RestsOn bs := by
  refine ⟨rfl, ?_⟩
  have hActs : (d.evaluate bs).acts = d.acts ++ [Act.ofDecision (d.gate.isOpen bs)] :=
    acts_evaluate d bs
  unfold latestShown?
  rw [hActs, List.filter_append]
  have hKept : [Act.ofDecision (d.gate.isOpen bs)].filter (fun a => a ≠ .scroll) =
      [Act.ofDecision (d.gate.isOpen bs)] := by
    simp [Act.ofDecision_ne_scroll]
  rw [hKept]
  exact List.getLast?_concat

variable {d : Driver} {bs bs' : Beliefs}

/-- A scroll that is done meanwhile is no show or hide. -/
theorem restsOn_waitUntil (h : d.RestsOn bs) (time : Nat) : (d.waitUntil time).RestsOn bs := by
  refine ⟨?_, ?_⟩
  · rw [gate_waitUntil, ← h.visible]
    unfold waitUntil
    split
    · split <;> rfl
    · rfl
  · rw [gate_waitUntil, ← h.shown]
    unfold waitUntil
    split
    · split
      · simp [latestShown?, acts]
      · rfl
    · rfl

theorem restsOn_idle (h : d.RestsOn bs) {calls : List Call}
    (hIdle : ∀ bs', Call.evaluate bs' ∉ calls) : (d.run calls).RestsOn bs := by
  induction calls generalizing d with
  | nil => exact h
  | cons c rest ih =>
      have hRest : ∀ bs', Call.evaluate bs' ∉ rest := fun bs' hMem =>
        hIdle bs' (List.mem_cons_of_mem _ hMem)
      cases c with
      | evaluate bs' => exact absurd List.mem_cons_self (hIdle bs')
      | wait ms => exact ih (restsOn_waitUntil h _) hRest
      | pageLoaded => exact ih (d := d.pageLoaded) ⟨h.visible, h.shown⟩ hRest

/-- **An evaluation that comes out as before** repeats the latest show or hide and does nothing
else: a scroll is neither launched nor called off. -/
theorem evaluate_of_restsOn (h : d.RestsOn bs) (hSame : d.gate.isOpen bs' = d.gate.isOpen bs) :
    ∃ a, d.latestShown? = some a ∧ d.evaluate bs' = d.acting a := by
  refine ⟨Act.ofDecision (d.gate.isOpen bs), h.shown, ?_⟩
  have hVisible : d.visible = some (d.gate.isOpen bs') := by rw [h.visible, hSame]
  have hDue : d.dueAfter (d.gate.isOpen bs') = d.due := due_evaluate_of_same hVisible
  unfold evaluate settleOn
  rw [hDue, ← hVisible, hSame]
  rfl

end Driver

/-! ## Pages -/

namespace Scene

/-- The driver of a pane has the gate of the pane, and unless it has yet to be evaluated it rests
on the beliefs of the page. -/
structure Attends (s : Scene) (pane : String) (gate : Gate) (d : Driver) : Prop where
  driver : s.drivers.get? pane = some d
  gate : d.gate = gate
  rests : s.isStale = false → d.RestsOn s.beliefs

variable {s : Scene} {pane : String} {gate : Gate} {d : Driver}

theorem attends_start {panes : Dict Gate} (h : panes.get? pane = some gate) (bs : Beliefs)
    (timing : Timing) : Attends (.start bs panes timing) pane gate (.start gate timing) := by
  refine ⟨?_, rfl, ?_⟩
  · show (panes.map fun _ g => Driver.start g timing).get? pane = _
    rw [Dict.get?_map, h]
    rfl
  · intro hFresh
    cases hFresh

/-- What a moment does to the driver of one pane. -/
theorem get?_drivers_play (h : s.drivers.get? pane = some d) (m : Nat × List Event) :
    (s.play m).drivers.get? pane =
      some (if s.isStale || !(changing s.beliefs (stepsAt m)).isEmpty then
        (d.waitUntil m.1).evaluate (beliefsAfter s.beliefs (stepsAt m)) else d.waitUntil m.1) := by
  rw [play_eq]
  show (s.drivers.map _).get? pane = _
  rw [Dict.get?_map, h]
  rfl

theorem isStale_foldl_play (s : Scene) (m : Nat × List Event) (ms : List (Nat × List Event)) :
    ((m :: ms).foldl play s).isStale = false := by
  induction ms generalizing m s with
  | nil =>
      show (s.play m).isStale = false
      rw [play_eq]
  | cons m' rest ih => exact ih (s.play m) m'

theorem attends_play (h : s.Attends pane gate d) (m : Nat × List Event) :
    ∃ d', (s.play m).Attends pane gate d' := by
  have hBeliefs : (s.play m).beliefs = beliefsAfter s.beliefs (stepsAt m) := by rw [play_eq]
  have hDriver := get?_drivers_play h.driver m
  have hGate : (d.waitUntil m.1).gate = gate := (d.gate_waitUntil m.1).trans h.gate
  by_cases hWake : (s.isStale || !(changing s.beliefs (stepsAt m)).isEmpty) = true
  · rw [if_pos hWake] at hDriver
    refine ⟨_, hDriver, hGate, fun _ => ?_⟩
    rw [hBeliefs]
    exact Driver.restsOn_evaluate _ _
  · rw [if_neg hWake] at hDriver
    obtain ⟨hFresh, hNone⟩ : s.isStale = false ∧ changing s.beliefs (stepsAt m) = [] := by
      simpa using hWake
    refine ⟨_, hDriver, hGate, fun _ => ?_⟩
    rw [hBeliefs, beliefsAfter_of_changing_eq_nil hNone]
    exact Driver.restsOn_waitUntil (h.rests hFresh) m.1

/-- The panes of a page are attended to in every moment. -/
theorem attends_foldl_play (h : s.Attends pane gate d) (ms : List (Nat × List Event)) :
    ∃ d', (ms.foldl play s).Attends pane gate d' := by
  induction ms generalizing s d with
  | nil => exact ⟨d, h⟩
  | cons m rest ih =>
      obtain ⟨_, hNext⟩ := attends_play h m
      exact ih hNext

end Scene

/-- **Beliefs affect only the panes that name them.**  (a) A pane is visible alike on any two belief
sets that agree on the slugs that its gate names.  (b) An event about another slug, or about no
belief, keeps its visibility.  (c) An evaluation of its driver that only such events have prompted,
whatever calls came before, repeats the latest show or hide and does nothing else, so that no scroll
is launched or called off.  (d) In a replay a moment of only such events does that to the pane if
one of them changes the beliefs, and otherwise lets the pane wait. -/
theorem bystander_undisturbed {panes : Dict Gate} {pane : String} {gate : Gate}
    (hPane : panes.get? pane = some gate) :
    (∀ bs bs', Beliefs.AgreeOn gate.named bs bs' →
      (Belief.visibility panes bs).get? pane = (Belief.visibility panes bs').get? pane) ∧
    (∀ bs e, Beliefs.Spares gate.named e →
      (Belief.visibility panes (bs.apply e).beliefs).get? pane =
        (Belief.visibility panes bs).get? pane) ∧
    (∀ timing calls bs idle es, (∀ bs', Call.evaluate bs' ∉ idle) →
      (∀ e ∈ es, Beliefs.Spares gate.named e) →
      let d := (Driver.start gate timing).run (calls ++ .evaluate bs :: idle)
      ∃ a, d.latestShown? = some a ∧ d.evaluate (bs.applyAll es) = d.acting a) ∧
    (∀ timing bs first ms m, (∀ e ∈ m.2, Beliefs.Spares gate.named e) →
      let s := (first :: ms).foldl Scene.play (.start bs panes timing)
      ∃ d a, s.drivers.get? pane = some d ∧ (d.waitUntil m.1).latestShown? = some a ∧
        (s.play m).drivers.get? pane =
          some (if (changing s.beliefs (stepsAt m)).isEmpty then d.waitUntil m.1
            else (d.waitUntil m.1).acting a)) := by
  refine ⟨?_, ?_, ?_, ?_⟩
  · intro bs bs' hAgree
    rw [Belief.get?_visibility, Belief.get?_visibility, hPane]
    exact congrArg some (Belief.isOpen_of_agree hAgree)
  · intro bs e hSpares
    rw [Belief.get?_visibility, Belief.get?_visibility, hPane]
    exact congrArg some (Belief.isOpen_of_agree (Beliefs.agreeOn_apply hSpares bs))
  · intro timing calls bs idle es hIdle hSpares d
    have hRests : d.RestsOn bs := by
      have hRun : d = (((Driver.start gate timing).run calls).evaluate bs).run idle :=
        Driver.run_append _ calls (.evaluate bs :: idle)
      rw [hRun]
      exact Driver.restsOn_idle (Driver.restsOn_evaluate _ bs) hIdle
    have hGate : d.gate = gate := Driver.gate_run _ _
    refine Driver.evaluate_of_restsOn hRests ?_
    rw [hGate]
    exact Belief.isOpen_of_agree (Beliefs.agreeOn_applyAll hSpares bs)
  · intro timing bs first ms m hSpares s
    obtain ⟨d, hAttends⟩ :=
      Scene.attends_foldl_play (Scene.attends_start hPane bs timing) (first :: ms)
    have hFresh : s.isStale = false := Scene.isStale_foldl_play _ first ms
    have hRests := Driver.restsOn_waitUntil (hAttends.rests hFresh) m.1
    have hGate : (d.waitUntil m.1).gate = gate := (d.gate_waitUntil m.1).trans hAttends.gate
    have hEvents : (stepsAt m).map (·.event) = m.2 := by
      simp [stepsAt, List.map_map, Function.comp_def]
    have hSame : (d.waitUntil m.1).gate.isOpen (beliefsAfter s.beliefs (stepsAt m)) =
        (d.waitUntil m.1).gate.isOpen s.beliefs := by
      rw [hGate, beliefsAfter, hEvents]
      exact Belief.isOpen_of_agree (Beliefs.agreeOn_applyAll hSpares s.beliefs)
    obtain ⟨a, hShown, hEvaluate⟩ := Driver.evaluate_of_restsOn hRests hSame
    refine ⟨d, a, hAttends.driver, hShown, ?_⟩
    rw [Scene.get?_drivers_play hAttends.driver, hEvaluate, hFresh]
    cases (changing s.beliefs (stepsAt m)).isEmpty <;> rfl

/-- A pane for those who say yes to `A` and hold nothing about `C`.  The reserved keys list `B`,
which neither filter requires. -/
def aloofGate : Gate :=
  ⟨some (.ofList [("A", .one "yes"), (Belief.Filter.matchAcrossKey, .anyOf ["A", "B"])]),
    some (.ofList [("C", .one "*"), (Belief.Filter.linkedKey, .one "B")])⟩

/-- Events about a slug that is only listed, about a reserved key, and about no belief. -/
def asideEvents : List Event :=
  [.belief "B" "no" none, .belief Belief.Filter.matchAcrossKey "yes" none, .paneClicked "A" "home"]

/-- The pane has appeared and a scroll is pending when the events change the beliefs: it is shown
once more, and the scroll stays pending, for the driver on its own as in a replay. -/
theorem bystander_undisturbed_pendingScroll :
    let panes : Dict Gate := .ofList [("aloof", aloofGate), ("other", gateOnYes)]
    let d := (Driver.start aloofGate .standard).run
      ([.evaluate .empty, .wait 6000] ++ .evaluate sayYes :: [.wait 10])
    let moments := [(0, []), (6000, [.belief "A" "yes" none])]
    let s := moments.foldl Scene.play (.start .empty panes .standard)
    panes.get? "aloof" = some aloofGate ∧
      (∀ e ∈ asideEvents, Beliefs.Spares aloofGate.named e) ∧
      sayYes.applyAll asideEvents ≠ sayYes ∧
      (Belief.visibility panes (sayYes.apply (.belief "B" "no" none)).beliefs).get? "aloof" =
        some true ∧
      d.due = some 6050 ∧ d.evaluate (sayYes.applyAll asideEvents) = d.acting .reveal ∧
      (s.play (6010, asideEvents)).drivers.get? "aloof" = some (d.acting .reveal) := by
  intro panes d moments s
  have hPane : panes.get? "aloof" = some aloofGate := by decide
  have hNamed : aloofGate.named = ["A", "C"] := by decide
  have hSpares : ∀ e ∈ asideEvents, Beliefs.Spares aloofGate.named e := by
    rw [hNamed]
    unfold Beliefs.Spares
    decide
  have hIdle : ∀ bs', Call.evaluate bs' ∉ [Call.wait 10] := fun bs' => by simp
  obtain ⟨_, hEvent, hDriver, hPage⟩ := bystander_undisturbed hPane
  obtain ⟨a, hLatest, hEvaluate⟩ :=
    hDriver .standard [.evaluate .empty, .wait 6000] sayYes [.wait 10] asideEvents hIdle hSpares
  obtain ⟨d', a', hFound, hLatest', hPlay⟩ := hPage .standard .empty (0, [])
    [(6000, [.belief "A" "yes" none])] (6010, asideEvents) hSpares
  have hShown : d.latestShown? = some .reveal := by decide
  have hWaited : (s.drivers.get? "aloof").map (fun d => d.waitUntil 6010) = some d := by decide
  have hChanging : (changing s.beliefs (stepsAt (6010, asideEvents))).isEmpty = false := by decide
  have hSame : d'.waitUntil 6010 = d := by
    have hMapped := congrArg (Option.map fun d : Driver => d.waitUntil 6010) hFound
    exact Option.some.inj (hMapped.symm.trans hWaited)
  have hAct : a = .reveal := Option.some.inj (hLatest.symm.trans hShown)
  have hAct' : a' = .reveal := by
    rw [hSame] at hLatest'
    exact Option.some.inj (hLatest'.symm.trans hShown)
  refine ⟨hPane, hSpares, by decide, ?_, by decide, hAct ▸ hEvaluate, ?_⟩
  · have hBefore : (Belief.visibility panes sayYes).get? "aloof" = some true := by decide
    exact (hEvent sayYes _ (hSpares _ List.mem_cons_self)).trans hBefore
  · refine hPlay.trans ?_
    rw [hSame, hAct', hChanging]
    rfl

end PaneEngine.Reveal
