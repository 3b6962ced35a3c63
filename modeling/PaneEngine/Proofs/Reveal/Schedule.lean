import PaneEngine.Proofs.Belief.Change
import PaneEngine.Reveal.Replay

/-!
# When the panes of a replay are evaluated

What a replay should do to the beliefs, and when it should evaluate the panes,
is said here of the steps in order alone: no page and no clock is kept.  The
replay itself goes from millisecond to millisecond; both ways of counting lead
to the same evaluations.

## Main definitions

* `beliefsAfter`, `changing` — the beliefs after steps, and the steps that change them;
* `wakeTimes`, `beliefsAt` — when the panes are evaluated, and on which beliefs;
* `stepsOf` — the steps of moments;
* `evaluations` — the evaluations that moments lead to.

## Main results

* `pairwise_inOrder`, `filter_inOrder` — steps in order go by time, then by their place in the list;
* `stepsOf_moments`, `pairwise_moments` — moments are the steps, and they ascend;
* `evaluations_withStart` — the evaluations of a replay.
-/

namespace PaneEngine.Reveal

/-! ## Steps in order -/

theorem stepTime_trans (a b c : Step) (hab : decide (a.time ≤ b.time) = true)
    (hbc : decide (b.time ≤ c.time) = true) : decide (a.time ≤ c.time) = true := by
  simp only [decide_eq_true_eq] at hab hbc ⊢
  omega

theorem stepTime_total (a b : Step) :
    (decide (a.time ≤ b.time) || decide (b.time ≤ a.time)) = true := by
  simp only [Bool.or_eq_true, decide_eq_true_eq]
  omega

/-- Steps in order go by time. -/
theorem pairwise_inOrder (steps : List Step) :
    (inOrder steps).Pairwise fun a b => a.time ≤ b.time := by
  have hSorted := List.pairwise_mergeSort stepTime_trans stepTime_total steps
  exact hSorted.imp fun h => of_decide_eq_true h

/-- Steps of one time keep their places. -/
theorem filter_inOrder (steps : List Step) (t : Nat) :
    (inOrder steps).filter (fun s => s.time = t) = steps.filter fun s => s.time = t := by
  have hSame : (steps.filter fun s => s.time = t).Pairwise
      fun a b => decide (a.time ≤ b.time) = true := by
    refine List.pairwise_of_forall_mem_list ?_
    intro a ha b hb
    have hTimeA := of_decide_eq_true (List.mem_filter.1 ha).2
    have hTimeB := of_decide_eq_true (List.mem_filter.1 hb).2
    simp [hTimeA, hTimeB]
  have hSublist := List.sublist_mergeSort stepTime_trans stepTime_total hSame List.filter_sublist
  have hInside := hSublist.filter fun s => decide (s.time = t)
  rw [List.filter_filter, List.filter_congr fun s _ => Bool.and_self _] at hInside
  have hPerm := (List.mergeSort_perm steps fun a b => decide (a.time ≤ b.time)).filter
    fun s => decide (s.time = t)
  exact (hInside.eq_of_length hPerm.length_eq.symm).symm

/-! ## What steps do to beliefs -/

/-- The beliefs after steps. -/
def beliefsAfter (bs : Beliefs) (steps : List Step) : Beliefs :=
  bs.applyAll (steps.map (·.event))

/-- The steps that change the beliefs at their turn. -/
def changing (bs : Beliefs) : List Step → List Step
  | [] => []
  | s :: rest =>
    let next := (bs.apply s.event).beliefs
    (if next = bs then [] else [s]) ++ changing next rest

/-- The beliefs at the end of a millisecond. -/
def beliefsAt (bs : Beliefs) (steps : List Step) (time : Nat) : Beliefs :=
  beliefsAfter bs (steps.filter fun s => s.time ≤ time)

/-- When the panes are evaluated: at the start, and in each later millisecond in which a step
changes the beliefs. -/
def wakeTimes (bs : Beliefs) (steps : List Step) : List Nat :=
  (0 :: (changing bs steps).map (·.time)).eraseDups

theorem beliefsAfter_append (bs : Beliefs) (as as' : List Step) :
    beliefsAfter bs (as ++ as') = beliefsAfter (beliefsAfter bs as) as' := by
  unfold beliefsAfter
  rw [List.map_append, Beliefs.applyAll_append]

theorem changing_append (bs : Beliefs) (as as' : List Step) :
    changing bs (as ++ as') = changing bs as ++ changing (beliefsAfter bs as) as' := by
  induction as generalizing bs with
  | nil => rfl
  | cons s rest ih =>
      have hRest := ih (bs.apply s.event).beliefs
      rw [List.cons_append, changing, changing, hRest, List.append_assoc]
      rfl

theorem mem_of_mem_changing {bs : Beliefs} {steps : List Step} {s : Step}
    (h : s ∈ changing bs steps) : s ∈ steps := by
  induction steps generalizing bs with
  | nil => cases h
  | cons s' rest ih =>
      rcases List.mem_append.1 h with hHere | hRest
      · split at hHere
        · cases hHere
        · rw [List.mem_singleton.1 hHere]
          exact List.mem_cons_self
      · exact List.mem_cons_of_mem _ (ih hRest)

/-- The steps that change nothing leave no trace in the beliefs. -/
theorem beliefsAfter_changing (bs : Beliefs) (steps : List Step) :
    beliefsAfter bs (changing bs steps) = beliefsAfter bs steps := by
  induction steps generalizing bs with
  | nil => rfl
  | cons s rest ih =>
      have hRest := ih (bs.apply s.event).beliefs
      rw [changing]
      by_cases hSame : (bs.apply s.event).beliefs = bs
      · rw [if_pos hSame, List.nil_append]
        show _ = beliefsAfter (bs.apply s.event).beliefs rest
        rw [← hRest, hSame]
      · rw [if_neg hSame]
        exact hRest

theorem beliefsAfter_of_changing_eq_nil {bs : Beliefs} {steps : List Step}
    (h : changing bs steps = []) : beliefsAfter bs steps = bs := by
  rw [← beliefsAfter_changing, h]
  rfl

/-! ## Moments -/

/-- The steps of a moment. -/
def stepsAt (m : Nat × List Event) : List Step := m.2.map fun e => ⟨m.1, e⟩

/-- The steps of moments. -/
def stepsOf (ms : List (Nat × List Event)) : List Step := ms.flatMap stepsAt

theorem time_of_mem_stepsAt {m : Nat × List Event} {s : Step} (h : s ∈ stepsAt m) :
    s.time = m.1 := by
  obtain ⟨e, _, rfl⟩ := List.mem_map.1 h
  rfl

theorem stepsOf_cons (m : Nat × List Event) (ms : List (Nat × List Event)) :
    stepsOf (m :: ms) = stepsAt m ++ stepsOf ms := List.flatMap_cons

/-- Moments are the steps, put together. -/
theorem stepsOf_moments (steps : List Step) : stepsOf (moments steps) = steps := by
  induction steps with
  | nil => rfl
  | cons s rest ih =>
      unfold moments
      cases hRest : moments rest with
      | nil =>
          rw [hRest] at ih
          rw [← ih]
          rfl
      | cons m more =>
          rw [hRest] at ih
          by_cases hTime : s.time = m.1
          · simp only [if_pos hTime]
            rw [← ih]
            obtain ⟨time, event⟩ := s
            subst hTime
            rfl
          · simp only [if_neg hTime]
            rw [← ih]
            rfl

theorem stepsOf_withStart (ms : List (Nat × List Event)) : stepsOf (withStart ms) = stepsOf ms := by
  unfold withStart
  split
  · rfl
  · rfl

/-- A moment is the time of a step. -/
theorem mem_moments {steps : List Step} {m : Nat × List Event} (h : m ∈ moments steps) :
    ∃ s ∈ steps, s.time = m.1 := by
  induction steps generalizing m with
  | nil => cases h
  | cons s rest ih =>
      unfold moments at h
      cases hRest : moments rest with
      | nil =>
          rw [hRest] at h
          rw [List.mem_singleton.1 h]
          exact ⟨s, List.mem_cons_self, rfl⟩
      | cons m' more =>
          rw [hRest] at h
          by_cases hTime : s.time = m'.1
          · simp only [if_pos hTime] at h
            rcases List.mem_cons.1 h with rfl | hMore
            · exact ⟨s, List.mem_cons_self, hTime⟩
            · obtain ⟨s', hMem, hEq⟩ := ih (by rw [hRest]; exact List.mem_cons_of_mem _ hMore)
              exact ⟨s', List.mem_cons_of_mem _ hMem, hEq⟩
          · simp only [if_neg hTime] at h
            rcases List.mem_cons.1 h with rfl | hMore
            · exact ⟨s, List.mem_cons_self, rfl⟩
            · obtain ⟨s', hMem, hEq⟩ := ih (by rw [hRest]; exact hMore)
              exact ⟨s', List.mem_cons_of_mem _ hMem, hEq⟩

/-- The moments of steps in order ascend. -/
theorem pairwise_moments {steps : List Step} (h : steps.Pairwise fun a b => a.time ≤ b.time) :
    (moments steps).Pairwise fun a b => a.1 < b.1 := by
  induction steps with
  | nil => exact .nil
  | cons s rest ih =>
      obtain ⟨hFirst, hOrdered⟩ := List.pairwise_cons.1 h
      have hAscend := ih hOrdered
      unfold moments
      cases hRest : moments rest with
      | nil => exact List.pairwise_singleton _ _
      | cons m more =>
          rw [hRest] at hAscend
          obtain ⟨hMore, hTail⟩ := List.pairwise_cons.1 hAscend
          by_cases hTime : s.time = m.1
          · simp only [if_pos hTime]
            exact List.pairwise_cons.2 ⟨hMore, hTail⟩
          · simp only [if_neg hTime]
            have hMoment : m ∈ moments rest := by
              rw [hRest]
              exact List.mem_cons_self
            obtain ⟨s', hMem, hEq⟩ := mem_moments hMoment
            have hLt : s.time < m.1 := by
              have hLe := hFirst s' hMem
              omega
            refine List.pairwise_cons.2 ⟨?_, hAscend⟩
            intro m' hMem'
            rcases List.mem_cons.1 hMem' with rfl | hLater
            · exact hLt
            · exact Nat.lt_trans hLt (hMore m' hLater)

/-- With a moment at the start the moments still ascend, from zero on. -/
theorem withStart_cases {ms : List (Nat × List Event)}
    (h : ms.Pairwise fun a b => a.1 < b.1) :
    ∃ events rest, withStart ms = (0, events) :: rest ∧
      ((0, events) :: rest).Pairwise fun a b => a.1 < b.1 := by
  unfold withStart
  split
  · next events more => exact ⟨events, more, rfl, h⟩
  · next hNot =>
      refine ⟨[], ms, rfl, List.pairwise_cons.2 ⟨?_, h⟩⟩
      intro m hMem
      cases ms with
      | nil => cases hMem
      | cons first more =>
          have hFirst : 0 < first.1 := by
            refine Nat.pos_of_ne_zero ?_
            intro hZero
            exact hNot first.2 more (by rw [← hZero])
          rcases List.mem_cons.1 hMem with rfl | hLater
          · exact hFirst
          · exact Nat.lt_trans hFirst ((List.pairwise_cons.1 h).1 m hLater)

/-! ## Evaluations -/

/-- The evaluations that moments lead to: in a moment in which a step changes the beliefs, or in
the first one if the panes are due for one. -/
def evaluations (stale : Bool) (bs : Beliefs) : List (Nat × List Event) → List (Nat × Beliefs)
  | [] => []
  | m :: rest =>
    let next := beliefsAfter bs (stepsAt m)
    (if stale || !(changing bs (stepsAt m)).isEmpty then [(m.1, next)] else []) ++
      evaluations false next rest

theorem time_of_mem_evaluations {ms : List (Nat × List Event)} {stale : Bool} {bs : Beliefs}
    {e : Nat × Beliefs} (h : e ∈ evaluations stale bs ms) : ∃ m ∈ ms, m.1 = e.1 := by
  induction ms generalizing stale bs with
  | nil => cases h
  | cons m rest ih =>
      rcases List.mem_append.1 h with hHere | hLater
      · split at hHere
        · rw [List.mem_singleton.1 hHere]
          exact ⟨m, List.mem_cons_self, rfl⟩
        · cases hHere
      · obtain ⟨m', hMem, hTime⟩ := ih hLater
        exact ⟨m', List.mem_cons_of_mem _ hMem, hTime⟩

/-- Evaluations ascend with the moments. -/
theorem pairwise_evaluations {ms : List (Nat × List Event)}
    (h : ms.Pairwise fun a b => a.1 < b.1) (stale : Bool) (bs : Beliefs) :
    (evaluations stale bs ms).Pairwise fun a b => a.1 < b.1 := by
  induction ms generalizing stale bs with
  | nil => exact .nil
  | cons m rest ih =>
      obtain ⟨hFirst, hTail⟩ := List.pairwise_cons.1 h
      refine List.pairwise_append.2 ⟨?_, ih hTail false _, ?_⟩
      · split
        · exact List.pairwise_singleton _ _
        · exact .nil
      · intro a ha b hb
        obtain ⟨m', hMem, hTime⟩ := time_of_mem_evaluations hb
        split at ha
        · rw [List.mem_singleton.1 ha, ← hTime]
          exact hFirst m' hMem
        · cases ha

theorem eraseDups_replicate_append {t : Nat} {ts : List Nat} (h : ∀ t' ∈ ts, t < t') (n : Nat) :
    (List.replicate n t ++ ts).eraseDups = (if n = 0 then [] else [t]) ++ ts.eraseDups := by
  cases n with
  | zero => rfl
  | succ n =>
      have hOthers : (List.replicate n t ++ ts).filter (fun t' => !t' == t) = ts := by
        rw [List.filter_append, List.filter_replicate, List.filter_eq_self.2]
        · simp
        · intro t' hMem
          have hNe : t' ≠ t := Nat.ne_of_gt (h t' hMem)
          simpa using hNe
      rw [List.replicate_succ, List.cons_append, List.eraseDups_cons, hOthers]
      rfl

/-- The times at which a moment's steps change the beliefs are all the same. -/
theorem times_changing_stepsAt (bs : Beliefs) (m : Nat × List Event) :
    (changing bs (stepsAt m)).map (·.time) =
      List.replicate (changing bs (stepsAt m)).length m.1 := by
  refine List.map_eq_replicate_iff.2 ?_
  intro s hMem
  exact time_of_mem_stepsAt (mem_of_mem_changing hMem)

section first

variable {m : Nat × List Event} {rest : List (Nat × List Event)}

theorem time_lt_of_mem_stepsOf (h : (m :: rest).Pairwise fun a b => a.1 < b.1) {s : Step}
    (hMem : s ∈ stepsOf rest) : m.1 < s.time := by
  obtain ⟨m', hMoment, hStep⟩ := List.mem_flatMap.1 hMem
  rw [time_of_mem_stepsAt hStep]
  exact (List.pairwise_cons.1 h).1 m' hMoment

/-- By the end of a moment its steps are done and no later ones. -/
theorem beliefsAt_first (h : (m :: rest).Pairwise fun a b => a.1 < b.1) (bs : Beliefs) :
    beliefsAt bs (stepsOf (m :: rest)) m.1 = beliefsAfter bs (stepsAt m) := by
  have hHere : (stepsAt m).filter (fun s => s.time ≤ m.1) = stepsAt m := by
    refine List.filter_eq_self.2 ?_
    intro s hMem
    simp [time_of_mem_stepsAt hMem]
  have hLater : (stepsOf rest).filter (fun s => s.time ≤ m.1) = [] := by
    refine List.filter_eq_nil_iff.2 ?_
    intro s hMem
    have hLt := time_lt_of_mem_stepsOf h hMem
    simpa using hLt
  rw [beliefsAt, stepsOf_cons, List.filter_append, hHere, hLater, List.append_nil]

/-- Later on the steps of the first moment are done. -/
theorem beliefsAt_later {t : Nat} (hLater : m.1 < t) (bs : Beliefs) :
    beliefsAt bs (stepsOf (m :: rest)) t =
      beliefsAt (beliefsAfter bs (stepsAt m)) (stepsOf rest) t := by
  have hHere : (stepsAt m).filter (fun s => s.time ≤ t) = stepsAt m := by
    refine List.filter_eq_self.2 ?_
    intro s hMem
    have hTime := time_of_mem_stepsAt hMem
    simp only [decide_eq_true_eq]
    omega
  rw [beliefsAt, stepsOf_cons, List.filter_append, hHere, beliefsAfter_append]
  rfl

/-- The evaluations of the first moment and those of the later ones, by their times.  `n` counts
the reasons to evaluate the panes in the first moment. -/
theorem map_beliefsAt_first (h : (m :: rest).Pairwise fun a b => a.1 < b.1) (bs : Beliefs)
    (n : Nat) :
    (List.replicate n m.1 ++
        (changing (beliefsAfter bs (stepsAt m)) (stepsOf rest)).map (·.time)).eraseDups.map
        (fun t => (t, beliefsAt bs (stepsOf (m :: rest)) t)) =
      (if n = 0 then [] else [(m.1, beliefsAfter bs (stepsAt m))]) ++
        ((changing (beliefsAfter bs (stepsAt m)) (stepsOf rest)).map (·.time)).eraseDups.map
          fun t => (t, beliefsAt (beliefsAfter bs (stepsAt m)) (stepsOf rest) t) := by
  have hTimes : ∀ t ∈ (changing (beliefsAfter bs (stepsAt m)) (stepsOf rest)).map (·.time),
      m.1 < t := by
    intro t hMem
    obtain ⟨s, hStep, rfl⟩ := List.mem_map.1 hMem
    exact time_lt_of_mem_stepsOf h (mem_of_mem_changing hStep)
  rw [eraseDups_replicate_append hTimes, List.map_append]
  congr 1
  · by_cases hZero : n = 0
    · rw [if_pos hZero, if_pos hZero]
      rfl
    · rw [if_neg hZero, if_neg hZero, List.map_singleton, beliefsAt_first h]
  · refine List.map_congr_left ?_
    intro t hMem
    rw [beliefsAt_later (hTimes t (List.mem_eraseDups.1 hMem))]

end first

/-- The evaluations of moments that ascend, none being due at the start. -/
theorem evaluations_eq {ms : List (Nat × List Event)} (h : ms.Pairwise fun a b => a.1 < b.1)
    (bs : Beliefs) :
    evaluations false bs ms =
      ((changing bs (stepsOf ms)).map (·.time)).eraseDups.map
        fun t => (t, beliefsAt bs (stepsOf ms) t) := by
  induction ms generalizing bs with
  | nil => rfl
  | cons m rest ih =>
      have hRest := ih (List.pairwise_cons.1 h).2 (beliefsAfter bs (stepsAt m))
      have hFirst := map_beliefsAt_first h bs (changing bs (stepsAt m)).length
      rw [evaluations, hRest]
      rw [← times_changing_stepsAt, ← List.map_append, ← changing_append, ← stepsOf_cons] at hFirst
      rw [hFirst]
      congr 1
      cases hNone : changing bs (stepsAt m) with
      | nil => rfl
      | cons s more => rfl

/-- **The evaluations of a replay**: one at the start, and one in each later millisecond in which a
step changes the beliefs, on the beliefs at the end of the millisecond. -/
theorem evaluations_withStart {steps : List Step}
    (h : steps.Pairwise fun a b => a.time ≤ b.time) (bs : Beliefs) :
    evaluations true bs (withStart (moments steps)) =
      (wakeTimes bs steps).map fun t => (t, beliefsAt bs steps t) := by
  obtain ⟨events, rest, hStart, hAscend⟩ := withStart_cases (pairwise_moments h)
  have hSteps : steps = stepsOf ((0, events) :: rest) := by
    rw [← hStart, stepsOf_withStart, stepsOf_moments]
  have hRest := evaluations_eq (List.pairwise_cons.1 hAscend).2
    (beliefsAfter bs (stepsAt (0, events)))
  have hFirst := map_beliefsAt_first hAscend bs ((changing bs (stepsAt (0, events))).length + 1)
  rw [List.replicate_succ, List.cons_append, ← times_changing_stepsAt, ← List.map_append,
    ← changing_append, ← stepsOf_cons, if_neg (Nat.succ_ne_zero _)] at hFirst
  rw [hStart, hSteps, wakeTimes, hFirst, evaluations, hRest]
  rfl

end PaneEngine.Reveal
