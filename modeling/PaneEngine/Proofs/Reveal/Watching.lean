import PaneEngine.Proofs.Belief.Notification
import PaneEngine.Proofs.Reveal.Isolation

/-!
# Watching the beliefs

The panes of a page are evaluated when the beliefs notify.  As an event notifies
exactly if it changes the beliefs, an event that changes nothing wakes no pane:
it can be left out of a replay, and nothing of what the replay shows is any
different.

Leaving such steps out keeps the rest in order, keeps the beliefs at the end of
every millisecond and keeps the milliseconds in which the panes are evaluated;
these determine the replay.

## Main results

* `changing_filter_time` — the changing steps up to some time;
* `beliefsAt_changing`, `wakeTimes_changing` — what steps without effect cannot influence;
* `replayJson_changing` — a replay of the changing steps alone;
* `notification_exact` — all that is said here about notifications.
-/

namespace PaneEngine.Reveal

open Belief (Gate)
open Command.Visible (replayJson)

/-! ## Steps without effect -/

theorem changing_sublist (bs : Beliefs) (steps : List Step) :
    (changing bs steps).Sublist steps := by
  induction steps generalizing bs with
  | nil => exact List.Sublist.refl []
  | cons s rest ih =>
      have hRest := ih (bs.apply s.event).beliefs
      rw [changing]
      split
      · exact hRest.cons s
      · exact hRest.cons_cons s

/-- Of the changing steps each changes the beliefs at its turn also without the others. -/
theorem changing_changing (bs : Beliefs) (steps : List Step) :
    changing bs (changing bs steps) = changing bs steps := by
  induction steps generalizing bs with
  | nil => rfl
  | cons s rest ih =>
      have hRest := ih (bs.apply s.event).beliefs
      rw [changing]
      by_cases hSame : (bs.apply s.event).beliefs = bs
      · rw [hSame] at hRest ⊢
        rw [if_pos rfl, List.nil_append]
        exact hRest
      · rw [if_neg hSame]
        show (if (bs.apply s.event).beliefs = bs then [] else [s]) ++
          changing (bs.apply s.event).beliefs (changing (bs.apply s.event).beliefs rest) = _
        rw [if_neg hSame, hRest]

/-- In steps in order those up to some time come first, so that they do not notice the others. -/
theorem changing_filter_time {steps : List Step} (h : steps.Pairwise fun a b => a.time ≤ b.time)
    (bs : Beliefs) (t : Nat) :
    changing bs (steps.filter fun s => s.time ≤ t) =
      (changing bs steps).filter fun s => s.time ≤ t := by
  induction steps generalizing bs with
  | nil => rfl
  | cons s rest ih =>
      obtain ⟨hFirst, hOrdered⟩ := List.pairwise_cons.1 h
      by_cases hTime : s.time ≤ t
      · have hRest := ih hOrdered (bs.apply s.event).beliefs
        rw [List.filter_cons_of_pos (by simpa using hTime), changing, changing, hRest,
          List.filter_append]
        congr 1
        split
        · rfl
        · rw [List.filter_cons_of_pos (by simpa using hTime)]
          rfl
      · -- the first step is too late already, and so are all others
        have hLate : ∀ s' ∈ s :: rest, ¬ s'.time ≤ t := by
          intro s' hMem hLe
          rcases List.mem_cons.1 hMem with rfl | hLater
          · exact hTime hLe
          · exact hTime (Nat.le_trans (hFirst s' hLater) hLe)
        have hNone : (s :: rest).filter (fun s => s.time ≤ t) = [] := by
          refine List.filter_eq_nil_iff.2 ?_
          intro s' hMem
          simpa using hLate s' hMem
        have hNoChange : (changing bs (s :: rest)).filter (fun s => s.time ≤ t) = [] := by
          refine List.filter_eq_nil_iff.2 ?_
          intro s' hMem
          simpa using hLate s' (mem_of_mem_changing hMem)
        rw [hNone, hNoChange]
        rfl

theorem beliefsAt_changing {steps : List Step} (h : steps.Pairwise fun a b => a.time ≤ b.time)
    (bs : Beliefs) (t : Nat) : beliefsAt bs (changing bs steps) t = beliefsAt bs steps t := by
  unfold beliefsAt
  rw [← changing_filter_time h, beliefsAfter_changing]

theorem wakeTimes_changing (bs : Beliefs) (steps : List Step) :
    wakeTimes bs (changing bs steps) = wakeTimes bs steps := by
  unfold wakeTimes
  rw [changing_changing]

theorem watchCalls_changing {steps : List Step} (h : steps.Pairwise fun a b => a.time ≤ b.time)
    (bs : Beliefs) : watchCalls bs (changing bs steps) = watchCalls bs steps := by
  unfold watchCalls
  rw [wakeTimes_changing]
  congr 1
  refine List.map_congr_left ?_
  intro t _
  rw [beliefsAt_changing h]

/-! ## Replays -/

theorem inOrder_changing (bs : Beliefs) (steps : List Step) :
    inOrder (changing bs (inOrder steps)) = changing bs (inOrder steps) := by
  refine List.mergeSort_of_pairwise ?_
  have hOrdered := (pairwise_inOrder steps).sublist (changing_sublist bs (inOrder steps))
  exact hOrdered.imp fun hLe => decide_eq_true hLe

/-- **A replay of the changing steps alone** shows the same as a replay of all. -/
theorem replayJson_changing (bs : Beliefs) (panes : Dict Gate) (timing : Timing)
    (steps : List Step) :
    replayJson panes (replay bs panes timing (changing bs (inOrder steps))) =
      replayJson panes (replay bs panes timing steps) := by
  have hOrdered := pairwise_inOrder steps
  have hBeliefs : (replay bs panes timing (changing bs (inOrder steps))).beliefs =
      (replay bs panes timing steps).beliefs := by
    rw [beliefs_replay, beliefs_replay, inOrder_changing, beliefsAfter_changing]
  have hEvents : (replay bs panes timing (changing bs (inOrder steps))).events =
      (replay bs panes timing steps).events := by
    rw [events_replay, events_replay, inOrder_changing, changing_changing]
  have hActs : (replay bs panes timing (changing bs (inOrder steps))).drivers.map
      (fun _ d => d.acts) = (replay bs panes timing steps).drivers.map fun _ d => d.acts := by
    rw [acts_replay bs panes timing _ (Nat.le_refl _),
      acts_replay bs panes timing _ (Nat.le_refl _), inOrder_changing,
      watchCalls_changing hOrdered]
  have hNames := congrArg
    (Dict.map fun _ (acts : List Act) => Json.strings (acts.map Act.name)) hActs
  simp only [Dict.map_map] at hNames
  unfold Command.Visible.replayJson
  rw [hNames, hBeliefs, hEvents]

/-- **Notification is exact**, whatever is held.  (a) Giving up a belief, (b) an event and (c) the
way back notify exactly if the beliefs are not the same afterwards; the first two are recorded
exactly then, (d) while taking on a belief always notifies.  (e) So a subscriber who reads the
beliefs anew whenever it is notified has the current ones after every run of operations.  (f) The
panes of a page become due for an evaluation exactly if an event changes the beliefs, (g) in a
moment they are evaluated exactly if they are due or a step of it changes the beliefs at its turn,
and (h) a replay from which all steps without effect are left out shows the same. -/
theorem notification_exact (bs : Beliefs) :
    (∀ slug, ((bs.release slug).notified = true ↔ (bs.release slug).beliefs ≠ bs) ∧
      (bs.release slug).events =
        if (bs.release slug).beliefs = bs then [] else [Beliefs.releaseEvent slug]) ∧
    (∀ e, ((bs.apply e).notified = true ↔ (bs.apply e).beliefs ≠ bs) ∧
      (bs.apply e).events = if (bs.apply e).beliefs = bs then [] else [e]) ∧
    (∀ held, (bs.goBack held).notified = true ↔ (bs.goBack held).beliefs ≠ bs) ∧
    (∀ b, (bs.hold b).notified = true) ∧
    (∀ ops, (Beliefs.Subscribed.start bs).run ops = ⟨bs.runAll ops, bs.runAll ops⟩) ∧
    (∀ drivers events stale e, ((Scene.mk bs drivers events stale).receive e).isStale = true ↔
      stale = true ∨ (bs.apply e).beliefs ≠ bs) ∧
    (∀ drivers events stale time es,
      ((Scene.mk bs drivers events stale).play (time, es)).drivers = drivers.map fun _ d =>
        if stale || !(changing bs (stepsAt (time, es))).isEmpty then
          (d.waitUntil time).evaluate (bs.applyAll es)
        else d.waitUntil time) ∧
    (∀ panes timing steps,
      replayJson panes (replay bs panes timing (changing bs (inOrder steps))) =
        replayJson panes (replay bs panes timing steps)) := by
  refine ⟨Beliefs.release_exact bs, ?_, Beliefs.notified_goBack_iff_changed bs, fun _ => rfl,
    Beliefs.Subscribed.run_start bs, ?_, ?_, replayJson_changing bs⟩
  · intro e
    exact ⟨Beliefs.notified_apply_iff_changed bs e, (Beliefs.apply_exact bs e).2⟩
  · intro drivers events stale e
    show (stale || (bs.apply e).notified) = true ↔ _
    rw [Bool.or_eq_true, Beliefs.notified_apply_iff_changed]
  · intro drivers events stale time es
    have hEvents : (stepsAt (time, es)).map (·.event) = es := by
      simp [stepsAt, List.map_map, Function.comp_def]
    rw [Scene.play_eq, beliefsAfter, hEvents]

/-- Taking on what is held already notifies, though nothing changes; the same as an event does
not. -/
example :
    let b : Belief := ⟨"A", "yes", none⟩
    let bs := Beliefs.ofList [b]
    (bs.hold b).beliefs = bs ∧ (bs.hold b).notified = true ∧
      (bs.apply (Beliefs.holdEvent b)).notified = false := by
  decide

end PaneEngine.Reveal
