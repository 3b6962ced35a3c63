import PaneEngine.Proofs.Reveal.Timeline

/-!
# The trace of a driver

A driver remembers its latest decision, the latest loading of the page and when
a pending scroll falls due.  Its decision and the loading are those of the calls
so far, and a scroll is pending only while the pane is shown and the scroll still
lies ahead.  So what the driver does from here on can be read from the pending
scroll and from the timeline of the calls to come.

## Main definitions

* `Driver.Follows` — the driver has followed the calls so far;
* `pending` — what becomes of a pending scroll.

## Main results

* `Driver.wait_cases` — what waiting does;
* `Driver.run_trace` — the acts of a run from a driver that has followed earlier calls.
-/

namespace PaneEngine.Reveal

open Belief (Gate)

/-! ## Merging acts by time -/

/-- Acts are in order if the first is not later. -/
def byTime (a b : Nat × Act) : Bool := a.1 ≤ b.1

/-- An act comes before others that are not earlier. -/
theorem cons_merge_of_le {a : Nat × Act} {as bs : List (Nat × Act)}
    (h : ∀ b ∈ bs, a.1 ≤ b.1) : (a :: as).merge bs byTime = a :: as.merge bs byTime := by
  cases bs with
  | nil => rw [List.merge_right, List.merge_right]
  | cons b bs =>
      have hLe : byTime a b = true := decide_eq_true (h b List.mem_cons_self)
      rw [List.cons_merge_cons_pos _ _ _ hLe]

/-- A later act lets others pass that are earlier. -/
theorem merge_cons_of_lt {b : Nat × Act} {as bs : List (Nat × Act)}
    (h : ∀ a ∈ as, b.1 < a.1) : as.merge (b :: bs) byTime = b :: as.merge bs byTime := by
  cases as with
  | nil => rw [List.nil_merge, List.nil_merge]
  | cons a as =>
      have hLt : ¬ byTime a b = true := by
        have := h a List.mem_cons_self
        simp only [byTime, decide_eq_true_eq]
        omega
      rw [List.cons_merge_cons_neg _ _ _ hLt]

/-! ## A scroll that is pending -/

/-- What becomes of a pending scroll. -/
def pending (gate : Gate) (due : Option Nat) (after : List TimedCall) : List (Nat × Act) :=
  match due with
  | some due => scrollAt gate due after
  | none => []

/-- No evaluation is made when a pending scroll falls due. -/
def Untied (gate : Gate) (due : Option Nat) (after : List TimedCall) : Prop :=
  ∀ u, due = some u → isKept gate u after = true →
    ∀ e ∈ after, (e.decision? gate).isSome → e.time ≠ u

theorem isKept_cons (gate : Gate) (due : Nat) (c : TimedCall) (after : List TimedCall) :
    isKept gate due (c :: after) =
      (!(c.decision? gate = some false && c.time < due) && isKept gate due after) := rfl

theorem isReached_cons (due : Nat) (c : TimedCall) (after : List TimedCall) :
    isReached due (c :: after) = (c.isWait && due ≤ c.time || isReached due after) := rfl

/-- A call that neither hides the pane nor lasts long enough leaves a scroll pending. -/
theorem scrollAt_cons {gate : Gate} {due : Nat} {c : TimedCall} {after : List TimedCall}
    (hKept : c.decision? gate ≠ some false) (hReached : (c.isWait && due ≤ c.time) = false) :
    scrollAt gate due (c :: after) = scrollAt gate due after := by
  unfold scrollAt
  rw [isKept_cons, isReached_cons, hReached, Bool.false_or]
  simp only [hKept, decide_false, Bool.false_and, Bool.not_false, Bool.true_and]

theorem untied_cons {gate : Gate} {due : Option Nat} {c : TimedCall} {after : List TimedCall}
    (h : Untied gate due (c :: after)) (hKept : c.decision? gate ≠ some false) :
    Untied gate due after := by
  intro u hDue hAfter e he
  refine h u hDue ?_ e (List.mem_cons_of_mem _ he)
  rw [isKept_cons, hAfter]
  simp [hKept]

/-- What is not hidden before a time that has come is not hidden before it. -/
theorem isKept_of_le {gate : Gate} {due : Nat} {after : List TimedCall}
    (h : ∀ c ∈ after, due ≤ c.time) : isKept gate due after = true := by
  refine List.all_eq_true.2 ?_
  intro c hMem
  have hLe := h c hMem
  have hNot : ¬ c.time < due := Nat.not_lt.2 hLe
  simp [hNot]

/-! ## A driver that follows calls -/

namespace Driver

/-- The driver has followed the calls so far, and no scroll is pending on a pane that is hidden. -/
structure Follows (before : List TimedCall) (d : Driver) : Prop where
  visible : d.visible = lastDecision d.gate before
  loadedAt : d.loadedAt = lastLoad before
  due : ∀ u, d.due = some u → d.now ≤ u ∧ d.visible = some true

@[simp] theorem gate_waitUntil (d : Driver) (time : Nat) : (d.waitUntil time).gate = d.gate := by
  unfold waitUntil
  split
  · split <;> rfl
  · rfl

@[simp] theorem timing_waitUntil (d : Driver) (time : Nat) :
    (d.waitUntil time).timing = d.timing := by
  unfold waitUntil
  split
  · split <;> rfl
  · rfl

theorem follows_start (gate : Gate) (timing : Timing) : Follows [] (start gate timing) := by
  refine ⟨rfl, rfl, ?_⟩
  intro u hDue
  cases hDue

theorem isLaunch_eq_appears {before : List TimedCall} {d : Driver} (h : Follows before d)
    (bs : Beliefs) :
    isLaunch d.gate d.timing before ⟨d.now, .evaluate bs⟩ = d.appears (d.gate.isOpen bs) := by
  simp only [isLaunch, appears, isSettled, TimedCall.decision?, h.visible, h.loadedAt,
    Option.some.injEq, Bool.decide_eq_true]

/-- Nothing that is pending appears again. -/
theorem appears_of_due {before : List TimedCall} {d : Driver} (h : Follows before d) {u : Nat}
    (hDue : d.due = some u) (v : Bool) : d.appears v = false := by
  simp [appears, (h.due u hDue).2]

theorem pending_le {before after : List TimedCall} {d : Driver} (h : Follows before d)
    {b : Nat × Act} (hMem : b ∈ pending d.gate d.due after) : d.now ≤ b.1 := by
  cases hDue : d.due with
  | none =>
      rw [hDue] at hMem
      cases hMem
  | some u =>
      rw [hDue] at hMem
      rw [eq_of_mem_scrollAt hMem]
      exact (h.due u hDue).1

/-- An evaluation keeps a scroll, launches one or calls it off. -/
theorem pending_dueAfter {before : List TimedCall} {d : Driver} (h : Follows before d)
    (bs : Beliefs) (after : List TimedCall)
    (hUntied : Untied d.gate d.due (⟨d.now, .evaluate bs⟩ :: after)) :
    pending d.gate d.due (⟨d.now, .evaluate bs⟩ :: after) ++
        (if isLaunch d.gate d.timing before ⟨d.now, .evaluate bs⟩ then
          scrollAt d.gate (d.now + d.timing.scrollDelay) after else []) =
      pending d.gate (d.dueAfter (d.gate.isOpen bs)) after := by
  rw [isLaunch_eq_appears h]
  unfold dueAfter
  cases hDue : d.due with
  | none =>
      by_cases hAppears : d.appears (d.gate.isOpen bs) = true
      · rw [if_pos hAppears, if_pos hAppears]
        rfl
      · rw [if_neg hAppears, if_neg hAppears, ite_self]
        rfl
  | some u =>
      obtain ⟨hLe, hVisible⟩ := h.due u hDue
      rw [if_neg (by simp [appears_of_due h hDue]), if_neg (by simp [appears_of_due h hDue]),
        List.append_nil, hVisible]
      by_cases hOpen : d.gate.isOpen bs = true
      · rw [if_pos (by rw [hOpen])]
        exact scrollAt_cons (by simp [TimedCall.decision?, hOpen]) rfl
      · -- a scroll that is called off has not come due: it would be tied to this evaluation
        have hClosed : d.gate.isOpen bs = false := by simpa using hOpen
        have hCalledOff : isKept d.gate u (⟨d.now, .evaluate bs⟩ :: after) = false := by
          by_cases hKept : isKept d.gate u (⟨d.now, .evaluate bs⟩ :: after) = true
          · have hNe := hUntied u hDue hKept _ List.mem_cons_self rfl
            rw [isKept_cons] at hKept
            simp [TimedCall.decision?, hClosed] at hKept
            exact absurd (Nat.le_antisymm hLe hKept.1) hNe
          · simpa using hKept
        rw [hClosed, if_neg (by decide)]
        simp [pending, scrollAt, hCalledOff]

/-- The acts of a run from `d`, read from what is pending and from the calls to come. -/
def outlook (before after : List TimedCall) (d : Driver) : List (Nat × Act) :=
  (shown d.gate after).merge
    (pending d.gate d.due after ++ scrolls d.gate d.timing before after) byTime

/-! ### One evaluation -/

/-- A scroll that is pending after an evaluation was launched by it or was pending before. -/
theorem due_evaluate_cases {d : Driver} {bs : Beliefs} {u : Nat}
    (h : (d.evaluate bs).due = some u) :
    (d.appears (d.gate.isOpen bs) = true ∧ d.now + d.timing.scrollDelay = u) ∨
      (d.visible = some (d.gate.isOpen bs) ∧ d.due = some u) := by
  have hDue : d.dueAfter (d.gate.isOpen bs) = some u := h
  unfold dueAfter at hDue
  by_cases hAppears : d.appears (d.gate.isOpen bs) = true
  · rw [if_pos hAppears] at hDue
    exact .inl ⟨hAppears, Option.some.inj hDue⟩
  · rw [if_neg hAppears] at hDue
    by_cases hSame : d.visible = some (d.gate.isOpen bs)
    · rw [if_pos hSame] at hDue
      exact .inr ⟨hSame, hDue⟩
    · rw [if_neg hSame] at hDue
      cases hDue

/-- What makes a pane appear. -/
theorem appears_iff {d : Driver} {v : Bool} :
    d.appears v = true ↔
      v = true ∧ d.visible = some false ∧ d.loadedAt + d.timing.settle ≤ d.now := by
  simp only [appears, isSettled, Bool.and_eq_true, decide_eq_true_eq, and_assoc]

theorem follows_evaluate {before : List TimedCall} {d : Driver} (h : Follows before d)
    (bs : Beliefs) : Follows (before ++ [⟨d.now, .evaluate bs⟩]) (d.evaluate bs) := by
  refine ⟨?_, ?_, ?_⟩
  · rw [lastDecision_concat]
    rfl
  · rw [lastLoad_concat]
    exact h.loadedAt
  · intro u hDue
    have hVisible : (d.evaluate bs).visible = some (d.gate.isOpen bs) := rfl
    rw [hVisible]
    rcases due_evaluate_cases hDue with ⟨hAppears, hEq⟩ | ⟨hSame, hBefore⟩
    · exact ⟨Nat.le.intro hEq, congrArg some (appears_iff.1 hAppears).1⟩
    · obtain ⟨hLe, hShown⟩ := h.due u hBefore
      exact ⟨hLe, hSame.symm.trans hShown⟩

theorem untied_evaluate {before after : List TimedCall} {d : Driver} (h : Follows before d)
    {bs : Beliefs} (hTies : NoTies d.gate d.timing before (⟨d.now, .evaluate bs⟩ :: after))
    (hUntied : Untied d.gate d.due (⟨d.now, .evaluate bs⟩ :: after)) :
    Untied d.gate (d.evaluate bs).due after := by
  intro u hDue
  rcases due_evaluate_cases hDue with ⟨hAppears, hEq⟩ | ⟨hSame, hBefore⟩
  · have hLaunch := isLaunch_eq_appears h bs
    rw [hAppears] at hLaunch
    rw [← hEq]
    exact (noTies_cons.1 hTies).1 hLaunch
  · have hShown := (h.due u hBefore).2
    have hOpen : d.gate.isOpen bs = true := Option.some.inj (hSame.symm.trans hShown)
    exact untied_cons hUntied (by simp [TimedCall.decision?, hOpen]) u hBefore

theorem outlook_evaluate {before after : List TimedCall} {d : Driver} (h : Follows before d)
    {bs : Beliefs} (hLate : ∀ c ∈ after, d.now ≤ c.time)
    (hUntied : Untied d.gate d.due (⟨d.now, .evaluate bs⟩ :: after)) :
    d.trace ++ outlook before (⟨d.now, .evaluate bs⟩ :: after) d =
      (d.evaluate bs).trace ++
        outlook (before ++ [⟨d.now, .evaluate bs⟩]) after (d.evaluate bs) := by
  have hPending := pending_dueAfter h bs after hUntied
  have hScrolls : pending d.gate d.due (⟨d.now, .evaluate bs⟩ :: after) ++
      scrolls d.gate d.timing before (⟨d.now, .evaluate bs⟩ :: after) =
        pending d.gate (d.dueAfter (d.gate.isOpen bs)) after ++
          scrolls d.gate d.timing (before ++ [⟨d.now, .evaluate bs⟩]) after := by
    rw [scrolls, ← List.append_assoc, hPending]
  have hNext := follows_evaluate h bs
  have hMerge : ∀ b ∈ pending d.gate (d.dueAfter (d.gate.isOpen bs)) after ++
      scrolls d.gate d.timing (before ++ [⟨d.now, .evaluate bs⟩]) after, d.now ≤ b.1 := by
    intro b hb
    rcases List.mem_append.1 hb with hHere | hLater
    · exact pending_le hNext hHere
    · exact scrolls_le hLate hLater
  unfold outlook
  rw [hScrolls]
  show d.trace ++ ((d.now, if d.gate.isOpen bs then Act.reveal else .conceal) ::
    shown d.gate after).merge _ byTime = _
  rw [cons_merge_of_le hMerge]
  show _ = (d.trace ++ [(d.now, if d.gate.isOpen bs then Act.reveal else .conceal)]) ++ _
  rw [List.append_assoc]
  rfl

/-! ### Waiting -/

/-- Waiting does a scroll that falls due meanwhile, or nothing but to wait. -/
theorem wait_cases (d : Driver) (ms : Nat) :
    (∃ u, d.due = some u ∧ u ≤ d.now + ms ∧ d.wait ms =
      { d with now := d.now + ms, due := none, trace := d.trace ++ [(u, .scroll)] }) ∨
    ((∀ u, d.due = some u → d.now + ms < u) ∧ d.wait ms = { d with now := d.now + ms }) := by
  unfold wait waitUntil
  cases hDue : d.due with
  | none =>
      refine .inr ⟨?_, rfl⟩
      intro u hNone
      cases hNone
  | some u =>
      by_cases hLe : u ≤ d.now + ms
      · exact .inl ⟨u, rfl, hLe, by simp only [if_pos hLe]⟩
      · refine .inr ⟨?_, by simp only [if_neg hLe]⟩
        intro u' hSome
        have hEq : u = u' := Option.some.inj hSome
        omega

theorem follows_wait {before : List TimedCall} {d : Driver} (h : Follows before d) (ms : Nat) :
    Follows (before ++ [⟨d.now + ms, .wait ms⟩]) (d.wait ms) := by
  have hDecision : lastDecision d.gate (before ++ [⟨d.now + ms, .wait ms⟩]) =
      lastDecision d.gate before := by
    rw [lastDecision_concat]
    rfl
  have hLoad : lastLoad (before ++ [⟨d.now + ms, .wait ms⟩]) = lastLoad before := by
    rw [lastLoad_concat]
    rfl
  rcases wait_cases d ms with ⟨u, _, _, hWait⟩ | ⟨hAhead, hWait⟩
  · rw [hWait]
    refine ⟨h.visible.trans hDecision.symm, h.loadedAt.trans hLoad.symm, ?_⟩
    intro u' hNone
    cases hNone
  · rw [hWait]
    refine ⟨h.visible.trans hDecision.symm, h.loadedAt.trans hLoad.symm, ?_⟩
    intro u hDue
    exact ⟨Nat.le_of_lt (hAhead u hDue), (h.due u hDue).2⟩

theorem untied_wait {d : Driver} {ms : Nat} {after : List TimedCall}
    (hUntied : Untied d.gate d.due (⟨d.now + ms, .wait ms⟩ :: after)) :
    Untied d.gate (d.wait ms).due after := by
  rcases wait_cases d ms with ⟨u, _, _, hWait⟩ | ⟨_, hWait⟩
  · rw [hWait]
    intro u' hNone
    cases hNone
  · rw [hWait]
    exact untied_cons hUntied (by simp [TimedCall.decision?])

/-- A scroll that falls due while time passes is done before anything else. -/
theorem outlook_wait {before after : List TimedCall} {d : Driver} {ms : Nat}
    (hLate : ∀ c ∈ after, d.now + ms ≤ c.time)
    (hUntied : Untied d.gate d.due (⟨d.now + ms, .wait ms⟩ :: after)) :
    d.trace ++ outlook before (⟨d.now + ms, .wait ms⟩ :: after) d =
      (d.wait ms).trace ++ outlook (before ++ [⟨d.now + ms, .wait ms⟩]) after (d.wait ms) := by
  have hNone : TimedCall.decision? d.gate ⟨d.now + ms, .wait ms⟩ = none := rfl
  unfold outlook
  rw [shown_cons_of_none hNone, scrolls_cons_of_none hNone]
  rcases wait_cases d ms with ⟨u, hDue, hLe, hWait⟩ | ⟨hAhead, hWait⟩
  · have hKept : isKept d.gate u (⟨d.now + ms, .wait ms⟩ :: after) = true := by
      refine isKept_of_le ?_
      intro c hMem
      rcases List.mem_cons.1 hMem with rfl | hAfter
      · exact hLe
      · exact Nat.le_trans hLe (hLate c hAfter)
    have hScroll : pending d.gate d.due (⟨d.now + ms, .wait ms⟩ :: after) = [(u, .scroll)] := by
      simp [hDue, pending, scrollAt, hKept, isReached_cons, TimedCall.isWait, hLe]
    have hLater : ∀ a ∈ shown d.gate after, u < a.1 := by
      intro a hMem
      obtain ⟨c, hc, hDecides, hTime⟩ := mem_shown hMem
      have hNe := hUntied u hDue hKept c (List.mem_cons_of_mem _ hc) hDecides
      have hTimeLe := hLate c hc
      omega
    rw [hScroll, List.singleton_append, merge_cons_of_lt hLater, hWait]
    exact (List.append_assoc d.trace [(u, .scroll)] _).symm
  · have hSame : pending d.gate d.due (⟨d.now + ms, .wait ms⟩ :: after) =
        pending d.gate d.due after := by
      cases hDue : d.due with
      | none => rfl
      | some u =>
          have hNot : ¬ u ≤ d.now + ms := Nat.not_le.2 (hAhead u hDue)
          exact scrollAt_cons (by simp [hNone]) (by simp [hNot])
    rw [hSame, hWait]

/-! ### Loading the page -/

theorem follows_pageLoaded {before : List TimedCall} {d : Driver} (h : Follows before d) :
    Follows (before ++ [⟨d.now, .pageLoaded⟩]) d.pageLoaded := by
  refine ⟨?_, ?_, h.due⟩
  · rw [lastDecision_concat]
    exact h.visible
  · rw [lastLoad_concat]
    rfl

theorem outlook_pageLoaded {before after : List TimedCall} {d : Driver} :
    outlook before (⟨d.now, .pageLoaded⟩ :: after) d =
      outlook (before ++ [⟨d.now, .pageLoaded⟩]) after d.pageLoaded := by
  have hNone : TimedCall.decision? d.gate ⟨d.now, .pageLoaded⟩ = none := rfl
  have hSame : pending d.gate d.due (⟨d.now, .pageLoaded⟩ :: after) =
      pending d.gate d.due after := by
    cases d.due with
    | none => rfl
    | some u => exact scrollAt_cons (by simp [hNone]) rfl
  unfold outlook
  rw [shown_cons_of_none hNone, scrolls_cons_of_none hNone, hSame]
  rfl

/-! ## Runs -/

@[simp] theorem gate_call (d : Driver) (c : Call) : (d.call c).gate = d.gate := by
  cases c with
  | evaluate bs => rfl
  | wait ms => exact gate_waitUntil d _
  | pageLoaded => rfl

@[simp] theorem timing_call (d : Driver) (c : Call) : (d.call c).timing = d.timing := by
  cases c with
  | evaluate bs => rfl
  | wait ms => exact timing_waitUntil d _
  | pageLoaded => rfl

theorem now_call (d : Driver) (c : Call) : (d.call c).now = (stamp d.now c).time := by
  cases c with
  | evaluate bs => rfl
  | wait ms =>
      show (d.waitUntil (d.now + ms)).now = d.now + ms
      unfold waitUntil
      split
      · split <;> rfl
      · rfl
  | pageLoaded => rfl

/-- A scroll that is pending after a call was pending before, or the call is an evaluation that
makes the pane appear. -/
theorem due_call_cases {d : Driver} {c : Call} {u : Nat} (h : (d.call c).due = some u) :
    d.due = some u ∨
      ∃ bs, c = .evaluate bs ∧ d.appears (d.gate.isOpen bs) = true ∧
        d.now + d.timing.scrollDelay = u := by
  cases c with
  | evaluate bs =>
      rcases due_evaluate_cases h with ⟨hAppears, hTime⟩ | ⟨_, hBefore⟩
      · exact .inr ⟨bs, rfl, hAppears, hTime⟩
      · exact .inl hBefore
  | wait ms =>
      have hDue : (d.wait ms).due = some u := h
      rcases wait_cases d ms with ⟨_, _, _, hWait⟩ | ⟨_, hWait⟩
      · rw [hWait] at hDue
        cases hDue
      · rw [hWait] at hDue
        exact .inl hDue
  | pageLoaded => exact .inl h

/-- What one call does is what the timeline says of it: nothing changes about the acts that are
done by the end of the run. -/
theorem call_outlook {before after : List TimedCall} {d : Driver} (c : Call)
    (h : Follows before d) (hLate : ∀ e ∈ after, (stamp d.now c).time ≤ e.time)
    (hTies : NoTies d.gate d.timing before (stamp d.now c :: after))
    (hUntied : Untied d.gate d.due (stamp d.now c :: after)) :
    Follows (before ++ [stamp d.now c]) (d.call c) ∧
      Untied d.gate (d.call c).due after ∧
      d.trace ++ outlook before (stamp d.now c :: after) d =
        (d.call c).trace ++ outlook (before ++ [stamp d.now c]) after (d.call c) := by
  cases c with
  | evaluate bs =>
      exact ⟨follows_evaluate h bs, untied_evaluate h hTies hUntied,
        outlook_evaluate h hLate hUntied⟩
  | wait ms => exact ⟨follows_wait h ms, untied_wait hUntied, outlook_wait hLate hUntied⟩
  | pageLoaded =>
      refine ⟨follows_pageLoaded h, untied_cons hUntied (by simp [stamp, TimedCall.decision?]), ?_⟩
      exact congrArg (d.trace ++ ·) outlook_pageLoaded

/-- **The acts of a run** are those done so far and those that the timeline asks for. -/
theorem run_trace (calls : List Call) {before : List TimedCall} {d : Driver}
    (h : Follows before d) (hTies : NoTies d.gate d.timing before (timeline d.now calls))
    (hUntied : Untied d.gate d.due (timeline d.now calls)) :
    (d.run calls).trace = d.trace ++ outlook before (timeline d.now calls) d := by
  induction calls generalizing before d with
  | nil =>
      have hNothing : outlook before [] d = [] := by
        unfold outlook
        cases hDue : d.due with
        | none => simp [pending, shown, scrolls]
        | some u => simp [pending, scrollAt, isReached, shown, scrolls]
      rw [timeline, hNothing, List.append_nil]
      rfl
  | cons c rest ih =>
      obtain ⟨hFollows, hUntied', hOutlook⟩ := call_outlook c h (fun _ he => timeline_le he)
        hTies hUntied
      have hTies' := (noTies_cons.1 hTies).2
      rw [← now_call] at hTies' hUntied' hOutlook
      have hRest := ih hFollows (by rw [gate_call, timing_call]; exact hTies')
        (by rw [gate_call]; exact hUntied')
      rw [timeline, ← now_call, hOutlook]
      exact hRest

end Driver

end PaneEngine.Reveal
