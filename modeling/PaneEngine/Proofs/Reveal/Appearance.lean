import PaneEngine.Proofs.Reveal.Trace

/-!
# Scrolls follow appearances

A scroll is done only after the pane has been hidden and then shown, and while
nothing but showing it again has happened since.  This holds of a driver at every
moment of every run, whatever falls due at the same time.

## Main definitions

* `Appeared` — acts that end with the pane being hidden and then shown;
* `Driver.Paced` — what holds of the acts of a driver at every moment.

## Main results

* `Driver.paced_run` — every run is paced;
* `trace_exact` — the trace of a run is one act for each evaluation, merged with the scrolls.
-/

namespace PaneEngine.Reveal

open Belief (Gate)

/-- The pane was hidden, then shown, and nothing else has happened since. -/
def Appeared (acts : List Act) : Prop :=
  ∃ (pre : List Act) (k : Nat), acts = pre ++ .conceal :: List.replicate (k + 1) .reveal

theorem appeared_reveal {acts : List Act} (h : Appeared acts) : Appeared (acts ++ [.reveal]) := by
  obtain ⟨pre, k, rfl⟩ := h
  refine ⟨pre, k + 1, ?_⟩
  rw [List.append_assoc, List.cons_append, ← List.replicate_succ']

/-- An appearance behind a scroll lies wholly behind it. -/
theorem appeared_of_scroll {pre mid : List Act} (h : Appeared (pre ++ .scroll :: mid)) :
    Appeared mid := by
  obtain ⟨pre', k, hActs⟩ := h
  rcases List.append_eq_append_iff.1 hActs with ⟨between, _, hTail⟩ | ⟨between, _, hTail⟩
  · cases between with
    | nil => cases hTail
    | cons a between =>
        injection hTail with _ hMid
        exact ⟨between, k, hMid⟩
  · have hMem : Act.scroll ∈ Act.conceal :: List.replicate (k + 1) .reveal := by
      rw [hTail]
      exact List.mem_append_right _ List.mem_cons_self
    simp [List.mem_replicate] at hMem

namespace Driver

/-- Every scroll was done on a pane that had appeared, and one is pending only on such a pane. -/
structure Paced (d : Driver) : Prop where
  scroll : ∀ pre, pre ++ [Act.scroll] <+: d.acts → Appeared pre
  due : ∀ u, d.due = some u → d.visible = some true ∧ Appeared d.acts
  hidden : d.visible = some false → ∃ pre, d.acts = pre ++ [.conceal]

theorem paced_start (gate : Gate) (timing : Timing) : Paced (start gate timing) := by
  refine ⟨?_, ?_, ?_⟩
  · intro pre hPrefix
    have hLength := hPrefix.length_le
    simp [start, acts] at hLength
  · intro u hDue
    cases hDue
  · intro hHidden
    cases hHidden

/-- An act that is no scroll adds no scroll. -/
theorem scroll_of_concat {acts : List Act} {a : Act} (ha : a ≠ .scroll)
    (h : ∀ pre, pre ++ [Act.scroll] <+: acts → Appeared pre) (pre : List Act)
    (hPrefix : pre ++ [Act.scroll] <+: acts ++ [a]) : Appeared pre := by
  rcases List.prefix_concat_iff.1 hPrefix with hEq | hEarlier
  · have hLast := (List.append_inj' hEq rfl).2
    injection hLast with hAct
    exact absurd hAct.symm ha
  · exact h pre hEarlier

theorem acts_evaluate (d : Driver) (bs : Beliefs) :
    (d.evaluate bs).acts = d.acts ++ [if d.gate.isOpen bs then .reveal else .conceal] := by
  simp [evaluate, settleOn, acts]

theorem paced_evaluate {d : Driver} (h : Paced d) (bs : Beliefs) : Paced (d.evaluate bs) := by
  refine ⟨?_, ?_, ?_⟩
  · rw [acts_evaluate]
    refine scroll_of_concat ?_ h.scroll
    split <;> simp
  · intro u hDue
    have hVisible : (d.evaluate bs).visible = some (d.gate.isOpen bs) := rfl
    rw [hVisible, acts_evaluate]
    rcases due_evaluate_cases hDue with ⟨hAppears, _⟩ | ⟨hSame, hBefore⟩
    · obtain ⟨hOpen, hHidden, _⟩ := appears_iff.1 hAppears
      obtain ⟨pre, hActs⟩ := h.hidden hHidden
      rw [hOpen, hActs, if_pos rfl, List.append_assoc]
      exact ⟨rfl, pre, 0, rfl⟩
    · obtain ⟨hShown, hAppeared⟩ := h.due u hBefore
      have hOpen : d.gate.isOpen bs = true := Option.some.inj (hSame.symm.trans hShown)
      rw [hOpen, if_pos rfl]
      exact ⟨rfl, appeared_reveal hAppeared⟩
  · intro hHidden
    have hClosed : d.gate.isOpen bs = false := Option.some.inj hHidden
    exact ⟨d.acts, by rw [acts_evaluate, hClosed]; rfl⟩

theorem paced_wait {d : Driver} (h : Paced d) (ms : Nat) : Paced (d.wait ms) := by
  rcases wait_cases d ms with ⟨u, hDue, _, hWait⟩ | ⟨_, hWait⟩
  · obtain ⟨hShown, hAppeared⟩ := h.due u hDue
    have hActs : (d.wait ms).acts = d.acts ++ [.scroll] := by
      rw [hWait]
      simp [acts]
    refine ⟨?_, ?_, ?_⟩
    · intro pre hPrefix
      rw [hActs] at hPrefix
      rcases List.prefix_concat_iff.1 hPrefix with hEq | hEarlier
      · rw [(List.append_inj' hEq rfl).1]
        exact hAppeared
      · exact h.scroll pre hEarlier
    · intro u' hNone
      rw [hWait] at hNone
      cases hNone
    · intro hHidden
      rw [hWait] at hHidden
      have hHidden : d.visible = some false := hHidden
      rw [hShown] at hHidden
      cases hHidden
  · rw [hWait]
    exact ⟨h.scroll, h.due, h.hidden⟩

/-- **Every run is paced.** -/
theorem paced_run {d : Driver} (h : Paced d) (calls : List Call) : Paced (d.run calls) := by
  induction calls generalizing d with
  | nil => exact h
  | cons c rest ih =>
      refine ih ?_
      cases c with
      | evaluate bs => exact paced_evaluate h bs
      | wait ms => exact paced_wait h ms
      | pageLoaded => exact ⟨h.scroll, h.due, h.hidden⟩

theorem gate_run (d : Driver) (calls : List Call) : (d.run calls).gate = d.gate := by
  induction calls generalizing d with
  | nil => rfl
  | cons c rest ih => exact (ih (d.call c)).trans (gate_call d c)

theorem now_run (d : Driver) (calls : List Call) :
    (d.run calls).now = endTime d.now calls := by
  induction calls generalizing d with
  | nil => rfl
  | cons c rest ih =>
      have hRest := ih (d.call c)
      rw [now_call] at hRest
      exact hRest

theorem timing_run (d : Driver) (calls : List Call) : (d.run calls).timing = d.timing := by
  induction calls generalizing d with
  | nil => rfl
  | cons c rest ih => exact (ih (d.call c)).trans (timing_call d c)

theorem run_append (d : Driver) (calls calls' : List Call) :
    d.run (calls ++ calls') = (d.run calls).run calls' := List.foldl_append

theorem run_concat (d : Driver) (calls : List Call) (c : Call) :
    d.run (calls ++ [c]) = (d.run calls).call c := run_append d calls [c]

/-- An evaluation that changes nothing leaves a pending scroll as it is. -/
theorem due_evaluate_of_same {d : Driver} {bs : Beliefs}
    (h : d.visible = some (d.gate.isOpen bs)) : (d.evaluate bs).due = d.due := by
  have hAppears : d.appears (d.gate.isOpen bs) = false := by
    unfold appears
    rw [h]
    cases d.gate.isOpen bs <;> rfl
  show d.dueAfter (d.gate.isOpen bs) = d.due
  rw [dueAfter, hAppears, if_neg (by decide), if_pos h]

end Driver

/-- Without an earlier evaluation nothing is launched. -/
theorem isLaunch_first {gate : Gate} {before : List TimedCall}
    (h : ∀ e ∈ before, e.decision? gate = none) (timing : Timing) (c : TimedCall) :
    isLaunch gate timing before c = false := by
  have hNone : lastDecision gate before = none := by
    unfold lastDecision
    rw [List.filterMap_eq_nil_iff.2 h]
    rfl
  simp [isLaunch, hNone]

/-- **The trace of a run.**  For all filters and delays and every run of calls in which no scroll
falls due together with a later evaluation, the trace is one act for each evaluation, matching its
decision, merged by time with the scrolls of exactly those evaluations that launch one which is
kept and for which the run lasts; a time that lies ahead is lasted for exactly if the clock gets
there.  An evaluation with an unchanged decision leaves a pending scroll alone.  So a scroll is
only ever done on a pane that has been hidden and then shown and is shown still, the first
evaluation never leads to one, and between two scrolls the pane is hidden and then shown. -/
theorem trace_exact (gate : Gate) (timing : Timing) (calls : List Call)
    (hTies : NoTies gate timing [] (timeline 0 calls)) :
    let d := (Driver.start gate timing).run calls
    d.trace = (shown gate (timeline 0 calls)).merge (scrolls gate timing [] (timeline 0 calls))
        byTime ∧
      (∀ pre bs post, calls = pre ++ .evaluate bs :: post →
        let d' := (Driver.start gate timing).run pre
        (d'.evaluate bs).visible = some (gate.isOpen bs) ∧
          (d'.visible = some (gate.isOpen bs) → (d'.evaluate bs).due = d'.due)) ∧
      (∀ pre post, calls = pre ++ post →
        let now := ((Driver.start gate timing).run pre).now
        ∀ due, now < due → (isReached due (timeline now post) = true ↔ due ≤ d.now)) ∧
      (∀ pre, pre ++ [Act.scroll] <+: d.acts → Appeared pre) ∧
      (∀ pre mid, pre ++ Act.scroll :: mid ++ [Act.scroll] <+: d.acts → Appeared mid) ∧
      ∀ before c after, timeline 0 calls = before ++ c :: after →
        (∀ e ∈ before, e.decision? gate = none) → isLaunch gate timing before c = false := by
  intro d
  have hPaced : d.Paced := Driver.paced_run (Driver.paced_start gate timing) calls
  refine ⟨?_, ?_, ?_, hPaced.scroll, ?_, ?_⟩
  · have hTrace := Driver.run_trace calls (Driver.follows_start gate timing) hTies
      fun u hDue => by cases hDue
    rw [hTrace]
    rfl
  · intro pre bs post _ d'
    have hGate : d'.gate = gate := Driver.gate_run _ pre
    refine ⟨by rw [← hGate]; rfl, ?_⟩
    intro hSame
    rw [← hGate] at hSame
    exact Driver.due_evaluate_of_same hSame
  · intro pre post hSplit now due hAhead
    have hNow : d.now = endTime now post := by
      rw [← Driver.now_run, ← Driver.run_append, ← hSplit]
    rw [hNow]
    exact isReached_timeline hAhead post
  · intro pre mid hPrefix
    exact appeared_of_scroll (hPaced.scroll (pre ++ .scroll :: mid) hPrefix)
  · intro before c after _ hFirst
    exact isLaunch_first hFirst timing c

/-! ## A pending scroll outlasts an evaluation -/

/-- A pane that is shown to those who say yes. -/
def gateOnYes : Gate := ⟨some (.ofList [("A", .one "yes")]), none⟩

/-- The belief that opens the gate. -/
def sayYes : Beliefs := .ofList [⟨"A", "yes", none⟩]

/-- The pane appears after a while, and is evaluated again before the scroll falls due. -/
def lateAppearance : List Call :=
  [.evaluate .empty, .wait 6000, .evaluate sayYes, .wait 10, .evaluate sayYes, .wait 100]

/-- The second evaluation with the same decision neither delays the scroll nor adds another. -/
theorem trace_exact_lateAppearance :
    NoTies gateOnYes .standard [] (timeline 0 lateAppearance) ∧
      ((Driver.start gateOnYes .standard).run lateAppearance).trace =
        [(0, .conceal), (6000, .reveal), (6010, .reveal), (6050, .scroll)] := by
  have hTies : NoTies gateOnYes .standard [] (timeline 0 lateAppearance) := by decide
  have hShown : shown gateOnYes (timeline 0 lateAppearance) =
      [(0, .conceal), (6000, .reveal), (6010, .reveal)] := by decide
  have hScrolls : scrolls gateOnYes .standard [] (timeline 0 lateAppearance) =
      [(6050, .scroll)] := by decide
  refine ⟨hTies, ?_⟩
  rw [(trace_exact gateOnYes .standard lateAppearance hTies).1, hShown, hScrolls]
  simp [byTime]

end PaneEngine.Reveal
