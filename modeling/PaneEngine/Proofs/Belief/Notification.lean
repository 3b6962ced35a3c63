import PaneEngine.Proofs.Belief.LastWrite

/-!
# When subscribers are notified

Each operation has its own way to tell whether it changes anything: whether
there was something to remove, whether the belief is held already, whether fewer
beliefs are left.  Each of these comes to the same: what the operation leaves
under the slugs that it is about was not there before.  So but for taking on a
belief, which always notifies, subscribers are notified exactly if the beliefs
are not the same afterwards, and a subscriber who reads the beliefs anew
whenever it is notified always has the current ones.

## Main definitions

* `Beliefs.Subscribed` — beliefs with the copy that a subscriber keeps of them.

## Main results

* `beliefs_step_eq_iff` — when an operation changes nothing;
* `release_exact`, `notified_goBack_iff_changed` — the shortcuts of two operations;
* `Subscribed.run_start` — the copy is current after every run.
-/

namespace PaneEngine.Beliefs

/-! ## What changes nothing -/

/-- An operation changes nothing exactly if what it leaves under its slugs is there already. -/
theorem beliefs_step_eq_iff (bs : Beliefs) (op : Operation) :
    (op.step bs).beliefs = bs ↔
      ∀ slug, op.concerns slug = true → bs.get? slug = op.leaves := by
  constructor
  · intro hSame slug hConcerns
    have hLook := get?_step bs op slug
    rw [hSame, if_pos hConcerns] at hLook
    exact hLook
  · intro hThere
    refine Dict.ext_get? ?_
    intro slug
    rw [get?_step]
    by_cases hConcerns : op.concerns slug = true
    · rw [if_pos hConcerns, hThere slug hConcerns]
    · rw [if_neg hConcerns]

theorem beliefs_release_eq_iff (bs : Beliefs) (slug : String) :
    (bs.release slug).beliefs = bs ↔ bs.contains slug = false := by
  refine (beliefs_step_eq_iff bs (.release slug)).trans ?_
  simp [Operation.concerns, Operation.leaves, Dict.contains]

/-- Giving up a belief notifies, and is recorded, exactly if it changes the beliefs. -/
theorem release_exact (bs : Beliefs) (slug : String) :
    ((bs.release slug).notified = true ↔ (bs.release slug).beliefs ≠ bs) ∧
      (bs.release slug).events =
        if (bs.release slug).beliefs = bs then [] else [releaseEvent slug] := by
  by_cases hHeld : bs.contains slug = true
  · have hRelease : bs.release slug = ⟨bs.erase slug, true, [releaseEvent slug]⟩ := if_pos hHeld
    have hChanged : (bs.release slug).beliefs ≠ bs := by
      rw [ne_eq, beliefs_release_eq_iff, hHeld]
      decide
    rw [if_neg hChanged]
    exact ⟨⟨fun _ => hChanged, fun _ => by rw [hRelease]⟩, by rw [hRelease]⟩
  · have hRelease : bs.release slug = ⟨bs, false, []⟩ := if_neg hHeld
    rw [hRelease]
    simp

/-- Fewer beliefs are left exactly if one of them is given up. -/
theorem notified_goBack_iff_changed (bs : Beliefs) (held : Belief.Filter) :
    (bs.goBack held).notified = true ↔ (bs.goBack held).beliefs ≠ bs := by
  rw [notified_goBack_iff]
  refine Iff.trans ?_ (not_congr (beliefs_step_eq_iff bs (.goBack held))).symm
  simp [Operation.concerns, Operation.leaves]

theorem notified_apply_iff_changed (bs : Beliefs) (e : Event) :
    (bs.apply e).notified = true ↔ (bs.apply e).beliefs ≠ bs := by
  rw [(apply_exact bs e).1, decide_eq_true_iff]

/-- An operation that does not notify changes nothing. -/
theorem beliefs_step_of_not_notified {bs : Beliefs} {op : Operation}
    (h : (op.step bs).notified = false) : (op.step bs).beliefs = bs := by
  refine Classical.byContradiction fun hChanged => ?_
  have hNotified : (op.step bs).notified = true := by
    cases op with
    | hold b => rfl
    | release slug => exact (release_exact bs slug).1.2 hChanged
    | apply e => exact (notified_apply_iff_changed bs e).2 hChanged
    | goBack held => exact (notified_goBack_iff_changed bs held).2 hChanged
  rw [h] at hNotified
  cases hNotified

/-! ## A subscriber -/

/-- Beliefs with the copy that a subscriber keeps of them. -/
structure Subscribed where
  beliefs : Beliefs
  copy : Beliefs
deriving DecidableEq

namespace Subscribed

/-- A subscriber begins with the beliefs as they are. -/
def start (bs : Beliefs) : Subscribed := ⟨bs, bs⟩

/-- An operation takes effect, and the beliefs are read anew if the subscriber is notified. -/
def step (s : Subscribed) (op : Operation) : Subscribed :=
  let change := op.step s.beliefs
  ⟨change.beliefs, if change.notified then change.beliefs else s.copy⟩

/-- Operations take effect one after the other. -/
def run (s : Subscribed) (ops : List Operation) : Subscribed := ops.foldl step s

theorem step_start (bs : Beliefs) (op : Operation) :
    (start bs).step op = start (op.step bs).beliefs := by
  show Subscribed.mk (op.step bs).beliefs
    (if (op.step bs).notified then (op.step bs).beliefs else bs) = _
  by_cases hNotified : (op.step bs).notified = true
  · rw [if_pos hNotified]
    rfl
  · rw [if_neg hNotified]
    have hSame := beliefs_step_of_not_notified (Bool.eq_false_iff.2 hNotified)
    rw [hSame]
    rfl

/-- **The copy is current after every run.** -/
theorem run_start (bs : Beliefs) (ops : List Operation) :
    (start bs).run ops = start (bs.runAll ops) := by
  induction ops generalizing bs with
  | nil => rfl
  | cons op rest ih =>
      show ((start bs).step op).run rest = _
      rw [step_start, ih, runAll_cons]

end Subscribed

end PaneEngine.Beliefs
