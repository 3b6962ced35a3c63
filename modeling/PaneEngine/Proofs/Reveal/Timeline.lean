import PaneEngine.Reveal.Driver

/-!
# Calls on a timeline

What a run of calls should do to a pane is said here without a driver: the calls
are put on a timeline, and for each evaluation the calls before it decide
whether a scroll is launched, and the calls behind it whether the scroll is
kept.  No state is carried along; the calls before and behind are looked through
for each evaluation anew.

## Main definitions

* `TimedCall`, `timeline` — the calls of a run with the times at which they are done;
* `isLaunch`, `isKept`, `isReached` — what decides about a scroll;
* `shown`, `scrolls` — the acts that evaluations ask for, and the scrolls;
* `NoTies` — no scroll falls due together with a later evaluation.

## Main results

* `isReached_timeline` — a time that lies ahead is reached exactly by a clock that ends no earlier.
-/

namespace PaneEngine.Reveal

open Belief (Gate)

/-! ## Timelines -/

/-- A call with the time at which it is done. -/
structure TimedCall where
  time : Nat
  call : Call
deriving DecidableEq

/-- A call that is made at `now`; waiting is done at its end. -/
def stamp (now : Nat) : Call → TimedCall
  | .evaluate bs => ⟨now, .evaluate bs⟩
  | .wait ms => ⟨now + ms, .wait ms⟩
  | .pageLoaded => ⟨now, .pageLoaded⟩

/-- Calls that are made from `now` on. -/
def timeline (now : Nat) : List Call → List TimedCall
  | [] => []
  | c :: rest => stamp now c :: timeline (stamp now c).time rest

namespace TimedCall

/-- The decision of an evaluation. -/
def decision? (gate : Gate) (c : TimedCall) : Option Bool :=
  match c.call with
  | .evaluate bs => some (gate.isOpen bs)
  | _ => none

/-- Whether a call is the loading of a page. -/
def isLoad (c : TimedCall) : Bool := c.call = .pageLoaded

/-- Whether a call waits. -/
def isWait (c : TimedCall) : Bool :=
  match c.call with
  | .wait _ => true
  | _ => false

end TimedCall

theorem stamp_le (now : Nat) (c : Call) : now ≤ (stamp now c).time := by
  cases c with
  | wait ms => exact Nat.le_add_right now ms
  | evaluate bs => exact Nat.le_refl now
  | pageLoaded => exact Nat.le_refl now

/-- Time does not run backwards. -/
theorem timeline_le {now : Nat} {calls : List Call} {c : TimedCall}
    (h : c ∈ timeline now calls) : now ≤ c.time := by
  induction calls generalizing now with
  | nil => cases h
  | cons call rest ih =>
      have hStamp := stamp_le now call
      cases h with
      | head => exact hStamp
      | tail _ hRest => exact Nat.le_trans hStamp (ih hRest)

/-! ## What the calls ask for -/

/-- The decision of the latest evaluation. -/
def lastDecision (gate : Gate) (cs : List TimedCall) : Option Bool :=
  (cs.filterMap (·.decision? gate)).getLast?

/-- When the page was last loaded; a run begins with the loading of the page. -/
def lastLoad (cs : List TimedCall) : Nat :=
  (((cs.filter (·.isLoad)).getLast?).map (·.time)).getD 0

/-- Whether a call launches a scroll: it decides to show the pane, the evaluation before it decided
to hide the pane, and the page has settled since it was last loaded. -/
def isLaunch (gate : Gate) (timing : Timing) (before : List TimedCall) (c : TimedCall) : Bool :=
  c.decision? gate = some true && lastDecision gate before = some false &&
    lastLoad before + timing.settle ≤ c.time

/-- Whether no evaluation before `due` decides to hide the pane. -/
def isKept (gate : Gate) (due : Nat) (after : List TimedCall) : Bool :=
  after.all fun c => !(c.decision? gate = some false && c.time < due)

/-- Whether the run lasts until `due`: nothing is done but while waiting, so even a scroll that
falls due at once needs the run to wait after it. -/
def isReached (due : Nat) (after : List TimedCall) : Bool :=
  after.any fun c => c.isWait && due ≤ c.time

/-- The scroll that falls due at a time, if it is kept and the run lasts that long. -/
def scrollAt (gate : Gate) (due : Nat) (after : List TimedCall) : List (Nat × Act) :=
  if isKept gate due after && isReached due after then [(due, .scroll)] else []

/-- The scrolls that calls behind other calls launch. -/
def scrolls (gate : Gate) (timing : Timing) (before : List TimedCall) :
    List TimedCall → List (Nat × Act)
  | [] => []
  | c :: after =>
    (if isLaunch gate timing before c then scrollAt gate (c.time + timing.scrollDelay) after
      else []) ++ scrolls gate timing (before ++ [c]) after

/-- One act for each evaluation. -/
def shown (gate : Gate) (cs : List TimedCall) : List (Nat × Act) :=
  cs.filterMap fun c => (c.decision? gate).map fun v => (c.time, if v then .reveal else .conceal)

/-- No scroll that is launched and kept falls due at the time of a later evaluation. -/
def NoTies (gate : Gate) (timing : Timing) (before cs : List TimedCall) : Prop :=
  ∀ (mid : List TimedCall) (c : TimedCall) (after : List TimedCall), cs = mid ++ c :: after →
    isLaunch gate timing (before ++ mid) c = true →
    isKept gate (c.time + timing.scrollDelay) after = true →
    ∀ e ∈ after, (e.decision? gate).isSome → e.time ≠ c.time + timing.scrollDelay

/-! ## One call more -/

theorem lastDecision_concat (gate : Gate) (cs : List TimedCall) (c : TimedCall) :
    lastDecision gate (cs ++ [c]) = (c.decision? gate).or (lastDecision gate cs) := by
  unfold lastDecision
  rw [List.filterMap_append, List.getLast?_append]
  cases hDecision : c.decision? gate with
  | none => simp [hDecision]
  | some v => simp [hDecision]

theorem lastLoad_concat (cs : List TimedCall) (c : TimedCall) :
    lastLoad (cs ++ [c]) = if c.isLoad then c.time else lastLoad cs := by
  unfold lastLoad
  rw [List.filter_append, List.getLast?_append]
  by_cases hLoad : c.isLoad = true
  · simp [hLoad]
  · simp [hLoad]

theorem noTies_cons {gate : Gate} {timing : Timing} {before : List TimedCall} {c : TimedCall}
    {after : List TimedCall} :
    NoTies gate timing before (c :: after) ↔
      (isLaunch gate timing before c = true →
        isKept gate (c.time + timing.scrollDelay) after = true →
        ∀ e ∈ after, (e.decision? gate).isSome → e.time ≠ c.time + timing.scrollDelay) ∧
      NoTies gate timing (before ++ [c]) after := by
  constructor
  · intro h
    constructor
    · intro hLaunch
      exact h [] c after rfl (by rw [List.append_nil, hLaunch])
    · intro mid e rest hSplit hLaunch
      rw [List.append_assoc, List.singleton_append] at hLaunch
      exact h (c :: mid) e rest (by rw [hSplit, List.cons_append]) hLaunch
  · rintro ⟨hHead, hTail⟩ mid e rest hSplit hLaunch
    cases mid with
    | nil =>
        injection hSplit with hCall hAfter
        subst hCall hAfter
        rw [List.append_nil] at hLaunch
        exact hHead hLaunch
    | cons c' mid =>
        injection hSplit with hCall hAfter
        subst hCall
        exact hTail mid e rest hAfter
          (by rw [List.append_assoc, List.singleton_append, hLaunch])

instance decidableNoTies (gate : Gate) (timing : Timing) :
    ∀ before cs : List TimedCall, Decidable (NoTies gate timing before cs)
  | _, [] => .isTrue fun mid _ _ hSplit => by cases mid <;> cases hSplit
  | before, c :: after =>
    have := decidableNoTies gate timing (before ++ [c]) after
    decidable_of_iff _ noTies_cons.symm

theorem eq_of_mem_scrollAt {gate : Gate} {due : Nat} {after : List TimedCall} {s : Nat × Act}
    (h : s ∈ scrollAt gate due after) : s = (due, .scroll) := by
  unfold scrollAt at h
  split at h
  · exact List.mem_singleton.1 h
  · cases h

theorem mem_shown {gate : Gate} {cs : List TimedCall} {a : Nat × Act} (h : a ∈ shown gate cs) :
    ∃ c ∈ cs, (c.decision? gate).isSome ∧ a.1 = c.time := by
  obtain ⟨c, hMem, hAct⟩ := List.mem_filterMap.1 h
  obtain ⟨v, hDecision, rfl⟩ := Option.map_eq_some_iff.1 hAct
  exact ⟨c, hMem, by rw [hDecision]; rfl, rfl⟩

/-- Calls that decide nothing launch nothing. -/
theorem scrolls_cons_of_none {gate : Gate} {c : TimedCall} (h : c.decision? gate = none)
    (timing : Timing) (before after : List TimedCall) :
    scrolls gate timing before (c :: after) = scrolls gate timing (before ++ [c]) after := by
  simp [scrolls, isLaunch, h]

theorem shown_cons_of_none {gate : Gate} {c : TimedCall} (h : c.decision? gate = none)
    (after : List TimedCall) : shown gate (c :: after) = shown gate after := by
  simp [shown, h]

/-- A scroll is done no earlier than the calls that could launch it. -/
theorem scrolls_le {gate : Gate} {timing : Timing} {before after : List TimedCall} {now : Nat}
    (hLate : ∀ c ∈ after, now ≤ c.time) {s : Nat × Act}
    (h : s ∈ scrolls gate timing before after) : now ≤ s.1 := by
  induction after generalizing before with
  | nil => cases h
  | cons c after ih =>
      rcases List.mem_append.1 h with hHere | hLater
      · have hTime := hLate c List.mem_cons_self
        split at hHere
        · rw [eq_of_mem_scrollAt hHere]
          exact Nat.le_add_right_of_le hTime
        · cases hHere
      · exact ih (fun e he => hLate e (List.mem_cons_of_mem _ he)) hLater

/-! ## The end of a run -/

/-- The time after calls that are made from `now` on. -/
def endTime (now : Nat) (calls : List Call) : Nat :=
  calls.foldl (fun time c => (stamp time c).time) now

theorem le_endTime (now : Nat) (calls : List Call) : now ≤ endTime now calls := by
  induction calls generalizing now with
  | nil => exact Nat.le_refl now
  | cons c rest ih => exact Nat.le_trans (stamp_le now c) (ih (stamp now c).time)

/-- A time that lies ahead is reached exactly if the clock ends no earlier. -/
theorem isReached_timeline {now due : Nat} (h : now < due) (calls : List Call) :
    isReached due (timeline now calls) = true ↔ due ≤ endTime now calls := by
  induction calls generalizing now with
  | nil => simp [isReached, timeline, endTime, h]
  | cons c rest ih =>
      have hCons : isReached due (timeline now (c :: rest)) =
          ((stamp now c).isWait && decide (due ≤ (stamp now c).time) ||
            isReached due (timeline (stamp now c).time rest)) := rfl
      have hEnd : endTime now (c :: rest) = endTime (stamp now c).time rest := rfl
      rw [hCons, hEnd]
      by_cases hHere : due ≤ (stamp now c).time
      · have hWait : (stamp now c).isWait = true := by
          cases c with
          | wait ms => rfl
          | evaluate bs => exact absurd hHere (Nat.not_le_of_lt h)
          | pageLoaded => exact absurd hHere (Nat.not_le_of_lt h)
        have hLe := Nat.le_trans hHere (le_endTime (stamp now c).time rest)
        simp [hWait, hHere, hLe]
      · simp only [hHere, decide_false, Bool.and_false, Bool.false_or]
        exact ih (Nat.lt_of_not_le hHere)

theorem timeline_append (now : Nat) (calls calls' : List Call) :
    timeline now (calls ++ calls') = timeline now calls ++ timeline (endTime now calls) calls' := by
  induction calls generalizing now with
  | nil => rfl
  | cons c rest ih => exact congrArg (stamp now c :: ·) (ih (stamp now c).time)

/-- No call is done after the end. -/
theorem timeline_le_endTime {now : Nat} {calls : List Call} {c : TimedCall}
    (h : c ∈ timeline now calls) : c.time ≤ endTime now calls := by
  induction calls generalizing now with
  | nil => cases h
  | cons call rest ih =>
      cases h with
      | head => exact le_endTime (stamp now call).time rest
      | tail _ hRest => exact ih hRest

end PaneEngine.Reveal
