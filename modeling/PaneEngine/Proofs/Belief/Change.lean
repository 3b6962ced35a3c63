import PaneEngine.Belief.Store
import PaneEngine.Proofs.Dict

/-!
# What an operation changes

Each operation on beliefs is described by the look-ups it changes.  An event
writes at most under its own id; it is recorded and notified exactly if the
beliefs are not the same afterwards.

## Main definitions

* `Beliefs.written` — what an event about a belief leaves under its id;
* `Beliefs.applyAll` — the beliefs after events.

## Main results

* `get?_hold`, `get?_release`, `get?_apply`, `get?_goBack` — the look-ups after an operation;
* `apply_exact` — an event is recorded and notified exactly if it changes the beliefs.
-/

namespace PaneEngine.Beliefs

variable (bs : Beliefs)

/-! ## Taking on and giving up -/

theorem get?_hold (b : Belief) (k : String) :
    (bs.hold b).beliefs.get? k = if k = b.slug then some b else bs.get? k :=
  Dict.get?_insert bs b.slug k b

/-- A slug that is not held looks the same whether it is given up or not. -/
theorem get?_release (slug k : String) :
    (bs.release slug).beliefs.get? k = if k = slug then none else bs.get? k := by
  unfold release
  by_cases hHeld : bs.contains slug = true
  · rw [if_pos hHeld]
    exact Dict.get?_erase bs slug k
  · rw [if_neg hHeld]
    have hNone : bs.get? slug = none := by
      by_cases h : bs.get? slug = none
      · exact h
      · exact absurd ((Dict.contains_iff bs slug).2 h) hHeld
    by_cases hk : k = slug
    · rw [if_pos hk, hk, hNone]
    · rw [if_neg hk]

theorem get?_goBack (held : Belief.Filter) (k : String) :
    (bs.goBack held).beliefs.get? k = if k ∈ backSlugs held then none else bs.get? k := by
  have hFilter := Dict.get?_filter (fun slug => !(backSlugs held).contains slug) bs k
  refine hFilter.trans ?_
  by_cases hk : k ∈ backSlugs held
  · simp [hk]
  · simp [hk]

/-! ## Events -/

/-- What an event about a belief leaves under its id. -/
def written (e : Event) : Option Belief :=
  if e.verb = Event.unsetVerb then none else some (beliefOf e)

theorem apply_other {e : Event} (h : e.kind ≠ .belief) : bs.apply e = ⟨bs, false, []⟩ := by
  unfold apply
  rw [if_pos h]

theorem apply_unset {e : Event} (hKind : e.kind = .belief) (hVerb : e.verb = Event.unsetVerb) :
    bs.apply e =
      { bs.release e.id with events := if bs.contains e.id then [e] else [] } := by
  have hUnset : e.isUnset = true := by simp [Event.isUnset, hKind, hVerb]
  unfold apply
  rw [if_neg fun h => h hKind, if_pos hUnset]

theorem apply_set {e : Event} (hKind : e.kind = .belief) (hVerb : e.verb ≠ Event.unsetVerb) :
    bs.apply e =
      if bs.get? e.id = some (beliefOf e) then ⟨bs, false, []⟩
      else ⟨bs.insert e.id (beliefOf e), true, [e]⟩ := by
  have hSet : ¬ e.isUnset = true := by simp [Event.isUnset, hVerb]
  unfold apply
  rw [if_neg fun h => h hKind, if_neg hSet]

/-- **An event writes under its id**, and only if it is about a belief. -/
theorem get?_apply (e : Event) (k : String) :
    (bs.apply e).beliefs.get? k =
      if e.kind = .belief ∧ k = e.id then written e else bs.get? k := by
  by_cases hKind : e.kind = .belief
  · simp only [hKind, true_and]
    by_cases hVerb : e.verb = Event.unsetVerb
    · rw [apply_unset bs hKind hVerb, written, if_pos hVerb]
      exact get?_release bs e.id k
    · rw [apply_set bs hKind hVerb, written, if_neg hVerb]
      by_cases hSame : bs.get? e.id = some (beliefOf e)
      · rw [if_pos hSame]
        by_cases hk : k = e.id
        · rw [if_pos hk, hk]
          exact hSame
        · rw [if_neg hk]
      · rw [if_neg hSame]
        exact Dict.get?_insert bs e.id k (beliefOf e)
  · rw [apply_other bs hKind, if_neg fun h => hKind h.1]

/-- **An event is recorded and notified exactly if the beliefs are not the same afterwards.** -/
theorem apply_exact (e : Event) :
    (bs.apply e).notified = decide ((bs.apply e).beliefs ≠ bs) ∧
      (bs.apply e).events = if (bs.apply e).beliefs = bs then [] else [e] := by
  -- a change shows in the look-up of the id
  have hChanged : (bs.apply e).beliefs.get? e.id ≠ bs.get? e.id → (bs.apply e).beliefs ≠ bs :=
    fun hLook hSame => hLook (by rw [hSame])
  by_cases hKind : e.kind = .belief
  · by_cases hVerb : e.verb = Event.unsetVerb
    · rw [get?_apply, if_pos ⟨hKind, rfl⟩, written, if_pos hVerb] at hChanged
      rw [apply_unset bs hKind hVerb] at hChanged ⊢
      unfold release at hChanged ⊢
      by_cases hHeld : bs.contains e.id = true
      · have hNe := hChanged fun hNone => (Dict.contains_iff bs e.id).1 hHeld hNone.symm
        simp only [if_pos hHeld] at hNe ⊢
        simp [hNe]
      · simp [hHeld]
    · rw [get?_apply, if_pos ⟨hKind, rfl⟩, written, if_neg hVerb] at hChanged
      rw [apply_set bs hKind hVerb] at hChanged ⊢
      by_cases hSame : bs.get? e.id = some (beliefOf e)
      · simp [hSame]
      · have hNe := hChanged fun hSome => hSame hSome.symm
        simp only [if_neg hSame] at hNe ⊢
        simp [hNe]
  · rw [apply_other bs hKind]
    simp

/-! ## Events in sequence -/

/-- The beliefs after events. -/
def applyAll (es : List Event) : Beliefs := es.foldl (fun bs e => (bs.apply e).beliefs) bs

theorem applyAll_append (es es' : List Event) :
    bs.applyAll (es ++ es') = (bs.applyAll es).applyAll es' := List.foldl_append

/-- Events that give up slugs. -/
theorem get?_applyAll_release (slugs : List String) (k : String) :
    (bs.applyAll (slugs.map releaseEvent)).get? k =
      if k ∈ slugs then none else bs.get? k := by
  induction slugs generalizing bs with
  | nil => rfl
  | cons slug rest ih =>
      have hFirst : (bs.apply (releaseEvent slug)).beliefs.get? k =
          if k = slug then none else bs.get? k := by
        rw [get?_apply]
        simp [releaseEvent, Event.belief, written]
      have hRest := ih (bs.apply (releaseEvent slug)).beliefs
      rw [hFirst] at hRest
      refine hRest.trans ?_
      by_cases hMem : k ∈ rest
      · rw [if_pos hMem, if_pos (List.mem_cons_of_mem _ hMem)]
      · rw [if_neg hMem]
        by_cases hk : k = slug
        · rw [if_pos hk, if_pos (hk ▸ List.mem_cons_self)]
        · rw [if_neg hk, if_neg (by simp [hk, hMem])]

end PaneEngine.Beliefs
