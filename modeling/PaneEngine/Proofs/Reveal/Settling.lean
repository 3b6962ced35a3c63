import Mathlib.Data.List.Induction
import PaneEngine.Proofs.Reveal.Appearance

/-!
# Scrolls and the settling of the page

Whether the page has settled is asked when a scroll is launched, not when it is
done.  A page that is loaded anew in between begins to settle again, and the
pending scroll is kept.  So a scroll is done on a page that has not settled
exactly if the page was loaded anew while it was pending, too late to settle
before it falls due.

## Main definitions

* `Driver.Scrolls` — a call does a scroll;
* `Launched` — calls that launch a scroll on a settled page;
* `Overtaken` — calls that load the page anew while a scroll is pending.

## Main results

* `Driver.due_run` — where a pending scroll comes from;
* `settled_iff_not_overtaken` — when the page has settled at the time of a scroll.
-/

namespace PaneEngine.Reveal

open Belief (Gate)

/-- One of the calls launches the scroll that falls due at `u`: it shows the pane behind an
evaluation that hid it, on a page that has settled. -/
def Launched (gate : Gate) (timing : Timing) (cs : List TimedCall) (u : Nat) : Prop :=
  ∃ before c after, cs = before ++ c :: after ∧ isLaunch gate timing before c = true ∧
    c.time + timing.scrollDelay = u

/-- The page is loaded anew while a scroll is pending that falls due at `u`, and `u` comes before
the page has settled again. -/
def Overtaken (gate : Gate) (timing : Timing) (calls : List Call) (u : Nat) : Prop :=
  ∃ pre mid, calls = pre ++ .pageLoaded :: mid ∧
    let d := (Driver.start gate timing).run pre
    d.due = some u ∧ u < d.now + timing.settle

theorem launched_concat {gate : Gate} {timing : Timing} {cs : List TimedCall} {u : Nat}
    (h : Launched gate timing cs u) (c : TimedCall) : Launched gate timing (cs ++ [c]) u := by
  obtain ⟨before, launch, after, rfl, hLaunch, hDue⟩ := h
  exact ⟨before, launch, after ++ [c], by simp, hLaunch, hDue⟩

theorem overtaken_concat {gate : Gate} {timing : Timing} {calls : List Call} {u : Nat}
    (h : Overtaken gate timing calls u) (c : Call) : Overtaken gate timing (calls ++ [c]) u := by
  obtain ⟨pre, mid, rfl, hOver⟩ := h
  exact ⟨pre, mid ++ [c], by simp, hOver⟩

namespace Driver

/-! ## One call -/

/-- A call does a scroll at `u`. -/
def Scrolls (d : Driver) (c : Call) (u : Nat) : Prop := (d.call c).trace = d.trace ++ [(u, .scroll)]

/-- Only a scroll that is pending is done. -/
theorem due_of_scrolls {d : Driver} {c : Call} {u : Nat} (h : d.Scrolls c u) : d.due = some u := by
  unfold Scrolls at h
  cases c with
  | evaluate bs =>
      have hAct := List.append_cancel_left h
      injection hAct with hAct
      injection hAct with _ hAct
      by_cases hOpen : d.gate.isOpen bs = true
      · rw [if_pos hOpen] at hAct
        cases hAct
      · rw [if_neg hOpen] at hAct
        cases hAct
  | wait ms =>
      rcases wait_cases d ms with ⟨u', hDue, _, hWait⟩ | ⟨_, hWait⟩
      · have hTrace : d.trace ++ [(u', Act.scroll)] = d.trace ++ [(u, .scroll)] := by
          rw [← h]
          exact (congrArg Driver.trace hWait).symm
        have hAct := List.append_cancel_left hTrace
        injection hAct with hAct
        injection hAct with hTime
        rw [hDue, hTime]
      · have hTrace : d.trace = d.trace ++ [(u, Act.scroll)] := by
          rw [← h]
          exact (congrArg Driver.trace hWait).symm
        simp at hTrace
  | pageLoaded =>
      have hTrace : d.trace = d.trace ++ [(u, Act.scroll)] := h
      simp at hTrace

theorem loadedAt_call (d : Driver) (c : Call) :
    (d.call c).loadedAt = if c = .pageLoaded then d.now else d.loadedAt := by
  cases c with
  | evaluate bs => rfl
  | wait ms =>
      show (d.wait ms).loadedAt = d.loadedAt
      rcases wait_cases d ms with ⟨_, _, _, hWait⟩ | ⟨_, hWait⟩
      · rw [hWait]
      · rw [hWait]
  | pageLoaded => rfl

theorem follows_call {before : List TimedCall} {d : Driver} (h : Follows before d) (c : Call) :
    Follows (before ++ [stamp d.now c]) (d.call c) := by
  cases c with
  | evaluate bs => exact follows_evaluate h bs
  | wait ms => exact follows_wait h ms
  | pageLoaded => exact follows_pageLoaded h

/-! ## Runs -/

theorem follows_run {before : List TimedCall} {d : Driver} (h : Follows before d)
    (calls : List Call) : Follows (before ++ timeline d.now calls) (d.run calls) := by
  induction calls generalizing before d with
  | nil =>
      rw [timeline, List.append_nil]
      exact h
  | cons c rest ih =>
      have hRest := ih (follows_call h c)
      rw [now_call, List.append_assoc] at hRest
      exact hRest

/-- The page was last loaded no earlier after further calls. -/
theorem loadedAt_run_le {d : Driver} (h : d.loadedAt ≤ d.now) (calls : List Call) :
    d.loadedAt ≤ (d.run calls).loadedAt ∧ (d.run calls).loadedAt ≤ (d.run calls).now := by
  induction calls generalizing d with
  | nil => exact ⟨Nat.le_refl _, h⟩
  | cons c rest ih =>
      have hNow : d.now ≤ (d.call c).now := by
        rw [now_call]
        exact stamp_le d.now c
      have hCall : d.loadedAt ≤ (d.call c).loadedAt ∧ (d.call c).loadedAt ≤ (d.call c).now := by
        rw [loadedAt_call]
        split
        · exact ⟨h, hNow⟩
        · exact ⟨Nat.le_refl _, Nat.le_trans h hNow⟩
      obtain ⟨hLoaded, hBefore⟩ := ih hCall.2
      exact ⟨Nat.le_trans hCall.1 hLoaded, hBefore⟩

section start

variable (gate : Gate) (timing : Timing) (calls : List Call)

theorem follows_run_start :
    Follows (timeline 0 calls) ((start gate timing).run calls) :=
  follows_run (follows_start gate timing) calls

theorem loadedAt_run_start :
    ((start gate timing).run calls).loadedAt = lastLoad (timeline 0 calls) :=
  (follows_run_start gate timing calls).loadedAt

/-- **A pending scroll** was launched on a page that had settled, and it falls due on a page that
has settled unless it is overtaken. -/
theorem due_run {u : Nat} (h : ((start gate timing).run calls).due = some u) :
    Launched gate timing (timeline 0 calls) u ∧
      (lastLoad (timeline 0 calls) + timing.settle ≤ u ∨ Overtaken gate timing calls u) := by
  induction calls using List.reverseRecOn with
  | nil => cases h
  | append_singleton calls c ih =>
      have hFollows := follows_run_start gate timing calls
      have hLoaded := loadedAt_run_start gate timing (calls ++ [c])
      have hNow : ((start gate timing).run calls).now = endTime 0 calls := now_run _ calls
      have hTiming : ((start gate timing).run calls).timing = timing := timing_run _ calls
      have hGate : ((start gate timing).run calls).gate = gate := gate_run _ calls
      rw [run_concat] at h hLoaded
      rw [loadedAt_call, hFollows.loadedAt] at hLoaded
      rw [← hLoaded, timeline_append, ← hNow]
      rcases due_call_cases h with hBefore | ⟨bs, rfl, hAppears, hTime⟩
      · -- it was pending before the call, and only a load of the page can overtake it
        obtain ⟨hLaunched, hSettled⟩ := ih hBefore
        refine ⟨launched_concat hLaunched _, ?_⟩
        rcases hSettled with hSettled | hOver
        · by_cases hLoad : c = .pageLoaded
          · by_cases hLate : u < ((start gate timing).run calls).now + timing.settle
            · exact .inr ⟨calls, [], by rw [hLoad], hBefore, hLate⟩
            · rw [if_pos hLoad]
              exact .inl (Nat.le_of_not_lt hLate)
          · rw [if_neg hLoad]
            exact .inl hSettled
        · exact .inr (overtaken_concat hOver c)
      · -- the call launches it
        have hLaunch := isLaunch_eq_appears hFollows bs
        rw [hAppears, hGate, hTiming] at hLaunch
        obtain ⟨_, _, hSettled⟩ := appears_iff.1 hAppears
        rw [hFollows.loadedAt, hTiming] at hSettled
        rw [hTiming] at hTime
        refine ⟨⟨timeline 0 calls, _, [], rfl, hLaunch, hTime⟩, .inl ?_⟩
        rw [if_neg (by simp)]
        exact Nat.le_trans hSettled (Nat.le.intro hTime)

/-- A page that is loaded anew too late has not settled when the scroll falls due. -/
theorem not_settled_of_overtaken {u : Nat} (h : Overtaken gate timing calls u) :
    u < lastLoad (timeline 0 calls) + timing.settle := by
  obtain ⟨pre, mid, rfl, _, hLate⟩ := h
  have hReloaded : (((start gate timing).run pre).call .pageLoaded).loadedAt =
      ((start gate timing).run pre).now := rfl
  have hLater := (loadedAt_run_le (d := ((start gate timing).run pre).call .pageLoaded)
    (Nat.le_refl _) mid).1
  rw [hReloaded] at hLater
  have hRun : (((start gate timing).run pre).call .pageLoaded).run mid =
      (start gate timing).run (pre ++ .pageLoaded :: mid) :=
    (run_append (start gate timing) pre (.pageLoaded :: mid)).symm
  rw [hRun, loadedAt_run_start] at hLater
  omega

end start

end Driver

/-- **When the page has settled at the time of a scroll.**  For all filters and delays, after every
run of calls, a scroll that the next call does was launched on a page that had settled.  The page
has settled by the time of the scroll exactly if it was not loaded anew while the scroll was
pending, too late to settle before that time. -/
theorem settled_iff_not_overtaken (gate : Gate) (timing : Timing) (calls : List Call) (c : Call)
    (u : Nat) (hScroll : ((Driver.start gate timing).run calls).Scrolls c u) :
    Launched gate timing (timeline 0 calls) u ∧
      (lastLoad (timeline 0 calls) + timing.settle ≤ u ↔ ¬ Overtaken gate timing calls u) := by
  obtain ⟨hLaunched, hCases⟩ := Driver.due_run gate timing calls (Driver.due_of_scrolls hScroll)
  refine ⟨hLaunched, ?_⟩
  constructor
  · intro hSettled hOver
    have hLate := Driver.not_settled_of_overtaken gate timing calls hOver
    omega
  · intro hNot
    exact hCases.resolve_right hNot

/-! ## A page that is loaded anew while a scroll is pending -/

/-- The pane appears on a settled page, and the page is loaded anew before the scroll. -/
def reloadBeforeScroll : List Call :=
  [.evaluate .empty, .wait 6000, .evaluate sayYes, .wait 10, .pageLoaded]

/-- The scroll is done 40 ms after the page was loaded anew, though the page takes 5 s to settle. -/
theorem settled_iff_not_overtaken_reload :
    ((Driver.start gateOnYes .standard).run reloadBeforeScroll).Scrolls (.wait 100) 6050 ∧
      lastLoad (timeline 0 reloadBeforeScroll) = 6010 ∧
      ¬ lastLoad (timeline 0 reloadBeforeScroll) + Timing.standard.settle ≤ 6050 ∧
      Overtaken gateOnYes .standard reloadBeforeScroll 6050 := by
  have hScroll : ((Driver.start gateOnYes .standard).run reloadBeforeScroll).Scrolls
      (.wait 100) 6050 := by
    unfold Driver.Scrolls
    decide
  have hLoad : lastLoad (timeline 0 reloadBeforeScroll) = 6010 := by decide
  have hNotSettled :
      ¬ lastLoad (timeline 0 reloadBeforeScroll) + Timing.standard.settle ≤ 6050 := by
    rw [hLoad]
    decide
  obtain ⟨_, hIff⟩ :=
    settled_iff_not_overtaken gateOnYes .standard reloadBeforeScroll (.wait 100) 6050 hScroll
  refine ⟨hScroll, hLoad, hNotSettled, ?_⟩
  by_cases hOver : Overtaken gateOnYes .standard reloadBeforeScroll 6050
  · exact hOver
  · exact absurd (hIff.2 hOver) hNotSettled

end PaneEngine.Reveal
