import PaneEngine.Command.Visible
import PaneEngine.Proofs.Reveal.Appearance
import PaneEngine.Proofs.Reveal.Schedule

/-!
# Panes on their own

In a replay all panes share the beliefs and the clock.  Yet each pane is driven
as if it were the only one: its acts are those of a driver that is called at the
times at which the panes are evaluated, and then left to itself.

## Main definitions

* `watchCalls` — the calls of a driver that is evaluated when the panes of a replay are;
* `Driver.watch` — the driver after evaluations at given times.

## Main results

* `Scene.drivers_foldl_play` — the drivers of a page after moments;
* `Driver.run_watchFrom` — evaluations at given times as calls;
* `scroll_recorded` — every scroll that is launched and kept is done once the driver is left alone;
* `replay_isolated` — what a replay comes to, and its document.
-/

namespace PaneEngine.Reveal

open Belief (Gate)

/-! ## Calls at given times -/

/-- The calls from `now` on that evaluate a pane at given times. -/
def watchFrom (now : Nat) : List (Nat × Beliefs) → List Call
  | [] => []
  | e :: rest => .wait (e.1 - now) :: .evaluate e.2 :: watchFrom e.1 rest

/-- The calls of a driver that is evaluated when the panes of a replay are. -/
def watchCalls (bs : Beliefs) (steps : List Step) : List Call :=
  watchFrom 0 ((wakeTimes bs steps).map fun t => (t, beliefsAt bs steps t))

/-- The evaluation that a call makes: its time and the beliefs. -/
def TimedCall.evaluation? (c : TimedCall) : Option (Nat × Beliefs) :=
  match c.call with
  | .evaluate bs => some (c.time, bs)
  | _ => none

/-- The evaluations of a driver are made at their times. -/
theorem evaluations_watchFrom {evs : List (Nat × Beliefs)} {now : Nat}
    (hNow : ∀ e ∈ evs, now ≤ e.1) (hAscend : evs.Pairwise fun a b => a.1 < b.1) :
    (timeline now (watchFrom now evs)).filterMap (·.evaluation?) = evs := by
  induction evs generalizing now with
  | nil => rfl
  | cons e rest ih =>
      obtain ⟨hFirst, hTail⟩ := List.pairwise_cons.1 hAscend
      have hTime : now + (e.1 - now) = e.1 := by
        have hLe := hNow e List.mem_cons_self
        omega
      have hRest := ih (fun e' hMem => Nat.le_of_lt (hFirst e' hMem)) hTail
      show ((timeline (now + (e.1 - now)) (.evaluate e.2 :: watchFrom e.1 rest)).filterMap
        (·.evaluation?)) = _
      rw [hTime]
      show e :: (timeline e.1 (watchFrom e.1 rest)).filterMap (·.evaluation?) = _
      rw [hRest]

namespace Driver

/-- The driver after evaluations at given times. -/
def watch (d : Driver) (evs : List (Nat × Beliefs)) : Driver :=
  evs.foldl (fun d e => (d.waitUntil e.1).evaluate e.2) d

theorem now_waitUntil (d : Driver) (time : Nat) : (d.waitUntil time).now = time := by
  unfold waitUntil
  split
  · split <;> rfl
  · rfl

/-- Waiting can be interrupted. -/
theorem waitUntil_waitUntil (d : Driver) {t t' : Nat} (h : t ≤ t') :
    (d.waitUntil t).waitUntil t' = d.waitUntil t' := by
  unfold waitUntil
  cases hDue : d.due with
  | none => simp
  | some u =>
      by_cases hEarly : u ≤ t
      · have hLe : u ≤ t' := Nat.le_trans hEarly h
        simp [hEarly, hLe]
      · simp [hEarly]

/-- A driver that waits ahead of its next evaluation is none the worse for it. -/
theorem watch_waitUntil (d : Driver) {evs : List (Nat × Beliefs)} {t last : Nat}
    (hEvs : ∀ e ∈ evs, t ≤ e.1) (hLast : t ≤ last) :
    ((d.waitUntil t).watch evs).waitUntil last = (d.watch evs).waitUntil last := by
  cases evs with
  | nil => exact waitUntil_waitUntil d hLast
  | cons e rest =>
      show ((((d.waitUntil t).waitUntil e.1).evaluate e.2).watch rest).waitUntil last = _
      rw [waitUntil_waitUntil d (hEvs e List.mem_cons_self)]
      rfl

theorem run_watchFrom {evs : List (Nat × Beliefs)} (d : Driver) (hNow : ∀ e ∈ evs, d.now ≤ e.1)
    (hAscend : evs.Pairwise fun a b => a.1 < b.1) :
    d.run (watchFrom d.now evs) = d.watch evs := by
  induction evs generalizing d with
  | nil => rfl
  | cons e rest ih =>
      obtain ⟨hFirst, hTail⟩ := List.pairwise_cons.1 hAscend
      have hWait : d.wait (e.1 - d.now) = d.waitUntil e.1 := by
        have hLe := hNow e List.mem_cons_self
        unfold wait
        congr 1
        omega
      have hNext : ((d.waitUntil e.1).evaluate e.2).now = e.1 := now_waitUntil d e.1
      have hRest := ih ((d.waitUntil e.1).evaluate e.2)
        (fun e' hMem => by rw [hNext]; exact Nat.le_of_lt (hFirst e' hMem)) hTail
      rw [hNext] at hRest
      show ((d.wait (e.1 - d.now)).evaluate e.2).run (watchFrom e.1 rest) = _
      rw [hWait, hRest]
      rfl

theorem now_watch_le {evs : List (Nat × Beliefs)} {d : Driver} {last : Nat} (hNow : d.now ≤ last)
    (hEvs : ∀ e ∈ evs, e.1 ≤ last) : (d.watch evs).now ≤ last := by
  induction evs generalizing d with
  | nil => exact hNow
  | cons e rest ih =>
      refine ih ?_ fun e' hMem => hEvs e' (List.mem_cons_of_mem _ hMem)
      show (d.waitUntil e.1).now ≤ last
      rw [now_waitUntil]
      exact hEvs e List.mem_cons_self

/-! ## Scrolls that are pending at the end -/

/-- A pending scroll falls due within the delay. -/
theorem due_run_le {d : Driver} (h : ∀ u, d.due = some u → u ≤ d.now + d.timing.scrollDelay)
    (calls : List Call) :
    ∀ u, (d.run calls).due = some u → u ≤ (d.run calls).now + d.timing.scrollDelay := by
  induction calls generalizing d with
  | nil => exact h
  | cons c rest ih =>
      have hCall : ∀ u, (d.call c).due = some u →
          u ≤ (d.call c).now + (d.call c).timing.scrollDelay := by
        intro u hDue
        rw [timing_call, now_call]
        have hLe := stamp_le d.now c
        rcases due_call_cases hDue with hBefore | ⟨_, _, _, hTime⟩
        · have hBound := h u hBefore
          omega
        · omega
      have hRest := ih hCall
      rw [timing_call] at hRest
      exact hRest

/-- Once a pending scroll has been done it does not matter how long the driver is left alone. -/
theorem trace_waitUntil {d : Driver} {last last' : Nat} (h : ∀ u, d.due = some u → u ≤ last)
    (h' : ∀ u, d.due = some u → u ≤ last') :
    (d.waitUntil last).trace = (d.waitUntil last').trace := by
  unfold waitUntil
  cases hDue : d.due with
  | none => rfl
  | some u => simp only [if_pos (h u hDue), if_pos (h' u hDue)]

/-- The trace of a run without ties, from the calls alone. -/
theorem trace_run_start {gate : Gate} {timing : Timing} {calls : List Call}
    (hTies : NoTies gate timing [] (timeline 0 calls)) :
    ((start gate timing).run calls).trace =
      (shown gate (timeline 0 calls)).merge (scrolls gate timing [] (timeline 0 calls))
        byTime := by
  rw [run_trace calls (follows_start gate timing) hTies fun u hDue => by cases hDue]
  rfl

end Driver

/-- A scroll that is launched, kept and reached is one of the scrolls. -/
theorem mem_scrolls {gate : Gate} {timing : Timing} {before mid after : List TimedCall}
    {c : TimedCall} (hLaunch : isLaunch gate timing (before ++ mid) c = true)
    (hKept : isKept gate (c.time + timing.scrollDelay) after = true)
    (hReached : isReached (c.time + timing.scrollDelay) after = true) :
    (c.time + timing.scrollDelay, Act.scroll) ∈ scrolls gate timing before (mid ++ c :: after) := by
  induction mid generalizing before with
  | nil =>
      rw [List.append_nil] at hLaunch
      refine List.mem_append_left _ ?_
      rw [if_pos hLaunch, scrollAt, hKept, hReached]
      exact List.mem_singleton.2 rfl
  | cons e mid ih =>
      refine List.mem_append_right _ (ih ?_)
      rw [List.append_assoc, List.singleton_append]
      exact hLaunch

/-- **Nothing that is launched is lost**: if the driver is left alone for the delay, every scroll
that is launched and kept is done. -/
theorem scroll_recorded {gate : Gate} {timing : Timing} {calls : List Call} {rest : Nat}
    (hRest : timing.scrollDelay ≤ rest)
    (hTies : NoTies gate timing [] (timeline 0 (calls ++ [.wait rest])))
    {before after : List TimedCall} {c : TimedCall}
    (hSplit : timeline 0 (calls ++ [.wait rest]) = before ++ c :: after)
    (hLaunch : isLaunch gate timing before c = true)
    (hKept : isKept gate (c.time + timing.scrollDelay) after = true) :
    (c.time + timing.scrollDelay, Act.scroll) ∈
      ((Driver.start gate timing).run (calls ++ [.wait rest])).trace := by
  have hEnd : timeline 0 (calls ++ [.wait rest]) =
      timeline 0 calls ++ [⟨endTime 0 calls + rest, .wait rest⟩] := timeline_append 0 calls _
  -- what is launched by one of the calls falls due before the last wait ends
  have hReached : isReached (c.time + timing.scrollDelay) after = true := by
    rw [hEnd] at hSplit
    rcases List.eq_nil_or_concat after with rfl | ⟨after, last, rfl⟩
    · -- the last call waits, and waiting launches nothing
      obtain ⟨_, hLast⟩ := List.append_inj' hSplit rfl
      injection hLast with hLast
      rw [← hLast] at hLaunch
      simp [isLaunch, TimedCall.decision?] at hLaunch
    · rw [List.concat_eq_append, ← List.cons_append, ← List.append_assoc] at hSplit
      obtain ⟨hCalls, hLast⟩ := List.append_inj' hSplit rfl
      injection hLast with hLast
      have hMem : c ∈ timeline 0 calls := by
        rw [hCalls]
        exact List.mem_append_right _ List.mem_cons_self
      have hTime := timeline_le_endTime hMem
      unfold isReached
      rw [List.concat_eq_append, List.any_append, ← hLast]
      have hLate : c.time + timing.scrollDelay ≤ endTime 0 calls + rest := by omega
      simp [TimedCall.isWait, hLate]
  rw [Driver.trace_run_start hTies]
  refine List.mem_merge.2 (.inr ?_)
  rw [hSplit]
  exact mem_scrolls hLaunch hKept hReached

/-! ## Pages -/

namespace Scene

theorem foldl_receive (s : Scene) (steps : List Step) :
    (steps.map (·.event)).foldl receive s =
      { beliefs := beliefsAfter s.beliefs steps
        drivers := s.drivers
        events := s.events ++ (changing s.beliefs steps).map (·.event)
        isStale := s.isStale || !(changing s.beliefs steps).isEmpty } := by
  induction steps generalizing s with
  | nil => simp [beliefsAfter, Beliefs.applyAll, changing]
  | cons step rest ih =>
      obtain ⟨hNotified, hEvents⟩ := Beliefs.apply_exact s.beliefs step.event
      have hRest := ih (s.receive step.event)
      refine hRest.trans ?_
      unfold receive
      simp only [hNotified, hEvents, changing]
      by_cases hSame : (s.beliefs.apply step.event).beliefs = s.beliefs
      · simp [hSame, beliefsAfter, Beliefs.applyAll]
      · simp [hSame, beliefsAfter, Beliefs.applyAll]

/-- What one moment does to a page. -/
theorem play_eq (s : Scene) (m : Nat × List Event) :
    s.play m =
      { beliefs := beliefsAfter s.beliefs (stepsAt m)
        drivers := s.drivers.map fun _ d =>
          if s.isStale || !(changing s.beliefs (stepsAt m)).isEmpty then
            (d.waitUntil m.1).evaluate (beliefsAfter s.beliefs (stepsAt m))
          else d.waitUntil m.1
        events := s.events ++ (changing s.beliefs (stepsAt m)).map (·.event)
        isStale := false } := by
  have hEvents : m.2 = (stepsAt m).map (·.event) := by
    simp [stepsAt, List.map_map, Function.comp_def]
  unfold play
  rw [hEvents, foldl_receive]
  unfold refresh waitUntil
  by_cases hStale : (s.isStale || !(changing s.beliefs (stepsAt m)).isEmpty) = true
  · simp only [hStale, if_true, Dict.map_map]
  · have hFresh : (s.isStale || !(changing s.beliefs (stepsAt m)).isEmpty) = false := by
      simpa using hStale
    simp [hFresh]

/-- The beliefs and events after moments. -/
theorem foldl_play (ms : List (Nat × List Event)) (s : Scene) :
    (ms.foldl play s).beliefs = beliefsAfter s.beliefs (stepsOf ms) ∧
      (ms.foldl play s).events = s.events ++ (changing s.beliefs (stepsOf ms)).map (·.event) := by
  induction ms generalizing s with
  | nil => exact ⟨rfl, (List.append_nil _).symm⟩
  | cons m rest ih =>
      obtain ⟨hBeliefs, hEvents⟩ := ih (s.play m)
      rw [play_eq] at hBeliefs hEvents
      rw [List.foldl_cons, play_eq, hBeliefs, hEvents, stepsOf_cons, beliefsAfter_append,
        changing_append, List.map_append, List.append_assoc]
      exact ⟨rfl, rfl⟩

/-- **The drivers of a page after moments** that ascend: each is evaluated on its own. -/
theorem drivers_foldl_play {ms : List (Nat × List Event)} (last : Nat)
    (h : ms.Pairwise fun a b => a.1 < b.1) (hLast : ∀ m ∈ ms, m.1 ≤ last) (s : Scene) :
    ((ms.foldl play s).waitUntil last).drivers =
      s.drivers.map fun _ d => (d.watch (evaluations s.isStale s.beliefs ms)).waitUntil last := by
  induction ms generalizing s with
  | nil => rfl
  | cons m rest ih =>
      obtain ⟨hFirst, hTail⟩ := List.pairwise_cons.1 h
      have hRest := ih hTail (fun m' hMem => hLast m' (List.mem_cons_of_mem _ hMem)) (s.play m)
      rw [List.foldl_cons, hRest, play_eq]
      simp only [Dict.map_map, evaluations]
      congr 1
      funext _ d
      by_cases hStale : (s.isStale || !(changing s.beliefs (stepsAt m)).isEmpty) = true
      · simp only [hStale, if_true]
        rfl
      · -- nothing is evaluated, and the page has only waited ahead of what comes next
        simp only [hStale]
        refine Driver.watch_waitUntil d ?_ (hLast m List.mem_cons_self)
        intro e hMem
        obtain ⟨m', hMoment, hTime⟩ := time_of_mem_evaluations hMem
        rw [← hTime]
        exact Nat.le_of_lt (hFirst m' hMoment)

end Scene

theorem le_foldl_time (steps : List Step) (t : Nat) :
    t ≤ steps.foldl (fun t step => max t step.time) t ∧
      ∀ s ∈ steps, s.time ≤ steps.foldl (fun t step => max t step.time) t := by
  induction steps generalizing t with
  | nil => simp
  | cons step rest ih =>
      obtain ⟨hStart, hRest⟩ := ih (max t step.time)
      rw [List.foldl_cons]
      refine ⟨by omega, ?_⟩
      intro s hMem
      rcases List.mem_cons.1 hMem with rfl | hLater
      · omega
      · exact hRest s hLater

theorem le_lastTime {steps : List Step} {s : Step} (h : s ∈ steps) : s.time ≤ lastTime steps :=
  (le_foldl_time steps 0).2 s h

/-- No moment of a replay comes after its last step. -/
theorem time_le_lastTime {steps : List Step} {m : Nat × List Event}
    (h : m ∈ withStart (moments (inOrder steps))) : m.1 ≤ lastTime steps := by
  have hMoments : m.1 = 0 ∨ m ∈ moments (inOrder steps) := by
    unfold withStart at h
    split at h
    · next hStart =>
      rw [← hStart] at h
      exact .inr h
    · rcases List.mem_cons.1 h with rfl | hMem
      · exact .inl rfl
      · exact .inr hMem
  rcases hMoments with hZero | hMem
  · omega
  · obtain ⟨s, hStep, hTime⟩ := mem_moments hMem
    rw [← hTime]
    exact le_lastTime (List.mem_mergeSort.1 hStep)

/-- The acts of a pane in a replay are those of a driver that is on its own. -/
theorem acts_alone {timing : Timing} {evs : List (Nat × Beliefs)} {last rest : Nat} (gate : Gate)
    (hAscend : evs.Pairwise fun a b => a.1 < b.1) (hEvs : ∀ e ∈ evs, e.1 ≤ last)
    (hRest : timing.scrollDelay ≤ rest) :
    (((Driver.start gate timing).watch evs).waitUntil (last + timing.scrollDelay + 1)).acts =
      ((Driver.start gate timing).run (watchFrom 0 evs ++ [.wait rest])).acts := by
  have hRun : (Driver.start gate timing).run (watchFrom 0 evs) =
      (Driver.start gate timing).watch evs :=
    Driver.run_watchFrom (Driver.start gate timing) (fun e _ => Nat.zero_le e.1) hAscend
  have hDue := Driver.due_run_le (d := Driver.start gate timing)
    (fun u hNone => by cases hNone) (watchFrom 0 evs)
  rw [hRun] at hDue
  have hNow := Driver.now_watch_le (d := Driver.start gate timing) (Nat.zero_le last) hEvs
  have hDelay : (Driver.start gate timing).timing.scrollDelay = timing.scrollDelay := rfl
  rw [Driver.run_concat, hRun]
  unfold Driver.acts
  congr 1
  refine Driver.trace_waitUntil ?_ ?_
  · intro u hPending
    have hBound := hDue u hPending
    omega
  · intro u hPending
    have hBound := hDue u hPending
    omega

section replay

variable (bs : Beliefs) (panes : Dict Gate) (timing : Timing) (steps : List Step)

theorem moments_replay :
    (withStart (moments (inOrder steps))).Pairwise (fun a b => a.1 < b.1) ∧
      stepsOf (withStart (moments (inOrder steps))) = inOrder steps := by
  obtain ⟨events, rest, hStart, hAscend⟩ :=
    withStart_cases (pairwise_moments (pairwise_inOrder steps))
  rw [← hStart] at hAscend
  exact ⟨hAscend, by rw [stepsOf_withStart, stepsOf_moments]⟩

/-- The evaluations of a replay ascend, and none comes after the last step. -/
theorem evaluations_replay :
    evaluations true bs (withStart (moments (inOrder steps))) =
        (wakeTimes bs (inOrder steps)).map (fun t => (t, beliefsAt bs (inOrder steps) t)) ∧
      (evaluations true bs (withStart (moments (inOrder steps)))).Pairwise
        (fun a b => a.1 < b.1) ∧
      ∀ e ∈ evaluations true bs (withStart (moments (inOrder steps))), e.1 ≤ lastTime steps := by
  refine ⟨evaluations_withStart (pairwise_inOrder steps) bs,
    pairwise_evaluations (moments_replay steps).1 true bs, ?_⟩
  intro e hMem
  obtain ⟨m, hMoment, hTime⟩ := time_of_mem_evaluations hMem
  rw [← hTime]
  exact time_le_lastTime hMoment

theorem beliefs_replay :
    (replay bs panes timing steps).beliefs = beliefsAfter bs (inOrder steps) := by
  have hBeliefs :=
    (Scene.foldl_play (withStart (moments (inOrder steps))) (.start bs panes timing)).1
  rw [(moments_replay steps).2] at hBeliefs
  exact hBeliefs

theorem events_replay :
    (replay bs panes timing steps).events = (changing bs (inOrder steps)).map (·.event) := by
  have hEvents :=
    (Scene.foldl_play (withStart (moments (inOrder steps))) (.start bs panes timing)).2
  rw [(moments_replay steps).2] at hEvents
  exact hEvents.trans (List.nil_append _)

/-- The acts of the panes of a replay. -/
theorem acts_replay {rest : Nat} (hRest : timing.scrollDelay ≤ rest) :
    (replay bs panes timing steps).drivers.map (fun _ d => d.acts) =
      panes.map fun _ gate =>
        ((Driver.start gate timing).run (watchCalls bs (inOrder steps) ++ [.wait rest])).acts := by
  obtain ⟨hEvs, hAscend, hEarly⟩ := evaluations_replay bs steps
  have hDrivers := Scene.drivers_foldl_play (lastTime steps + timing.scrollDelay + 1)
    (moments_replay steps).1 (fun m hMem => Nat.le_trans (time_le_lastTime hMem) (by omega))
    (.start bs panes timing)
  have hActs := congrArg (Dict.map fun _ (d : Driver) => d.acts) hDrivers
  refine hActs.trans ?_
  simp only [Scene.start, Dict.map_map]
  congr 1
  funext _ gate
  rw [acts_alone gate hAscend hEarly hRest, hEvs]
  rfl

end replay

/-- **Panes on their own.**  For all beliefs, panes, delays and steps, a replay comes to what the
steps come to when they are taken by time and then by their place in the list: its beliefs are those
after all steps, its events are those of the steps that change the beliefs at their turn, and the
acts of each pane are those of a driver of that pane alone, evaluated at the start and in each later
millisecond in which a step changes the beliefs, on the beliefs at the end of the millisecond, and
then left alone for as long as a scroll may take.  The document has one entry for each belief, event
and act, and the visibility on the last beliefs.  If no scroll falls due together with a later
evaluation, the acts are those that the calls ask for, and every scroll that is launched and kept is
among them. -/
theorem replay_isolated (bs : Beliefs) (panes : Dict Gate) (timing : Timing) (steps : List Step)
    (rest : Nat) (hRest : timing.scrollDelay ≤ rest) :
    let ordered := inOrder steps
    let final := beliefsAfter bs ordered
    let calls := watchCalls bs ordered ++ [.wait rest]
    let alone := fun gate => (Driver.start gate timing).run calls
    let scene := replay bs panes timing steps
    ordered.Pairwise (fun a b => a.time ≤ b.time) ∧
    (∀ t, ordered.filter (fun s => s.time = t) = steps.filter fun s => s.time = t) ∧
    scene.beliefs = final ∧
    scene.events = (changing bs ordered).map (·.event) ∧
    scene.drivers.map (fun _ d => d.acts) = panes.map (fun _ gate => (alone gate).acts) ∧
    Command.Visible.replayJson panes scene =
      .object [
        ("visibility", .ofDict ((Belief.visibility panes final).map fun _ open? => .bool open?)),
        ("surfaceOps", .ofDict (panes.map fun _ gate =>
          .array ((alone gate).acts.map fun act => .string act.name))),
        ("beliefs", .array (final.toList.map Belief.toJson)),
        ("events", .array ((changing bs ordered).map fun step => step.event.toJson))] ∧
    (timeline 0 calls).filterMap (·.evaluation?) =
      (wakeTimes bs ordered).map (fun t => (t, beliefsAt bs ordered t)) ∧
    ∀ gate, NoTies gate timing [] (timeline 0 calls) →
      (alone gate).trace = (shown gate (timeline 0 calls)).merge
          (scrolls gate timing [] (timeline 0 calls)) byTime ∧
      ∀ before c after, timeline 0 calls = before ++ c :: after →
        isLaunch gate timing before c = true →
        isKept gate (c.time + timing.scrollDelay) after = true →
        (c.time + timing.scrollDelay, Act.scroll) ∈ (alone gate).trace := by
  intro ordered final calls alone scene
  obtain ⟨hEvs, hAscend, _⟩ := evaluations_replay bs steps
  rw [hEvs] at hAscend
  have hActs : scene.drivers.map (fun _ d => d.acts) = panes.map fun _ gate => (alone gate).acts :=
    acts_replay bs panes timing steps hRest
  refine ⟨pairwise_inOrder steps, filter_inOrder steps, beliefs_replay bs panes timing steps,
    events_replay bs panes timing steps, hActs, ?_, ?_, ?_⟩
  · have hNames := congrArg
      (Dict.map fun _ (acts : List Act) => Json.array (acts.map fun act => .string act.name)) hActs
    simp only [Dict.map_map] at hNames
    unfold Command.Visible.replayJson Command.Visible.visibilityJson Command.Visible.eventsJson
    simp only [Json.strings, Beliefs.toJson, List.map_map, Function.comp_def]
    rw [hNames, beliefs_replay, events_replay, List.map_map]
    rfl
  · have hWatch := evaluations_watchFrom (fun e _ => Nat.zero_le e.1) hAscend
    show (timeline 0 (watchCalls bs ordered ++ [.wait rest])).filterMap (·.evaluation?) = _
    rw [timeline_append, List.filterMap_append]
    exact (congrArg (· ++ []) hWatch).trans (List.append_nil _)
  · intro gate hTies
    exact ⟨Driver.trace_run_start hTies, fun _ _ _ => scroll_recorded hRest hTies⟩

/-! ## Steps out of order -/

/-- A pane that appears with a belief, and one that disappears with it. -/
def twoPanes : Dict Gate :=
  .ofList [("deep", gateOnYes), ("gone", ⟨none, some (.ofList [("A", .one "*")])⟩)]

/-- The last step comes first, one step changes nothing, and one is about no belief. -/
def outOfOrder : List Step :=
  [⟨8000, .belief "A" Event.unsetVerb none⟩, ⟨6000, .belief "A" "yes" none⟩,
    ⟨6000, .belief "A" "yes" none⟩, ⟨6020, .paneClicked "p" "q"⟩, ⟨6020, .belief "B" "no" none⟩]

theorem inOrder_outOfOrder :
    inOrder outOfOrder =
      [⟨6000, .belief "A" "yes" none⟩, ⟨6000, .belief "A" "yes" none⟩,
        ⟨6020, .paneClicked "p" "q"⟩, ⟨6020, .belief "B" "no" none⟩,
        ⟨8000, .belief "A" Event.unsetVerb none⟩] := by
  simp [inOrder, outOfOrder, List.mergeSort]

/-- The step that changes another belief evaluates both panes, and the scroll that is pending on one
of them is done in time.  Of the five steps three change the beliefs, and the last of them takes
away what the first one set. -/
theorem replay_isolated_outOfOrder :
    Timing.standard.scrollDelay ≤ 50 ∧
      NoTies gateOnYes .standard []
        (timeline 0 (watchCalls .empty (inOrder outOfOrder) ++ [.wait 50])) ∧
      wakeTimes .empty (inOrder outOfOrder) = [0, 6000, 6020, 8000] ∧
      (replay .empty twoPanes .standard outOfOrder).beliefs.entries =
        [("B", ⟨"B", "no", none⟩)] ∧
      (replay .empty twoPanes .standard outOfOrder).events =
        [.belief "A" "yes" none, .belief "B" "no" none, .belief "A" "UNSET" none] ∧
      Command.Visible.replayJson twoPanes (replay .empty twoPanes .standard outOfOrder) =
        .object [("visibility", .object [("deep", .bool false), ("gone", .bool true)]),
          ("surfaceOps", .object [
            ("deep", .array [.string "hide", .string "show", .string "show", .string "scroll",
              .string "hide"]),
            ("gone", .array [.string "show", .string "hide", .string "hide", .string "show",
              .string "scroll"])]),
          ("beliefs", .array [.object [("slug", .string "B"), ("verb", .string "no")]]),
          ("events", .array [
            .object [("id", .string "A"), ("type", .string "Belief"), ("verb", .string "yes")],
            .object [("id", .string "B"), ("type", .string "Belief"), ("verb", .string "no")],
            .object [("id", .string "A"), ("type", .string "Belief"),
              ("verb", .string "UNSET")]])] ∧
      ((Driver.start gateOnYes .standard).run
          (watchCalls .empty (inOrder outOfOrder) ++ [.wait 50])).trace =
        [(0, .conceal), (6000, .reveal), (6020, .reveal), (6050, .scroll), (8000, .conceal)] := by
  have hDelay : Timing.standard.scrollDelay ≤ 50 := by decide
  have hTies : NoTies gateOnYes .standard []
      (timeline 0 (watchCalls .empty (inOrder outOfOrder) ++ [.wait 50])) := by
    rw [inOrder_outOfOrder]
    decide
  obtain ⟨_, _, hBeliefs, hEvents, _, hJson, _, hTrace⟩ :=
    replay_isolated .empty twoPanes .standard outOfOrder 50 hDelay
  refine ⟨hDelay, hTies, ?_, ?_, ?_, ?_, ?_⟩
  · rw [inOrder_outOfOrder]
    decide
  · rw [hBeliefs, inOrder_outOfOrder]
    decide
  · rw [hEvents, inOrder_outOfOrder]
    decide
  · rw [hJson, inOrder_outOfOrder]
    rfl
  · have hShown : shown gateOnYes
        (timeline 0 (watchCalls .empty (inOrder outOfOrder) ++ [.wait 50])) =
          [(0, .conceal), (6000, .reveal), (6020, .reveal), (8000, .conceal)] := by
      rw [inOrder_outOfOrder]
      decide
    have hScrolls : scrolls gateOnYes .standard []
        (timeline 0 (watchCalls .empty (inOrder outOfOrder) ++ [.wait 50])) =
          [(6050, .scroll)] := by
      rw [inOrder_outOfOrder]
      decide
    rw [(hTrace gateOnYes hTies).1, hShown, hScrolls]
    simp [byTime]

end PaneEngine.Reveal
