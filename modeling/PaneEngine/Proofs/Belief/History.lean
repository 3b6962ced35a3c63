import PaneEngine.Proofs.Belief.Change

/-!
# Beliefs from their history

The events that operations record can be applied to the beliefs that were held
before the operations.  They lead to the beliefs held afterwards, with one
exception: a belief that is taken on with the verb reserved for giving up is
held, but its event says that it is given up.

## Main definitions

* `Beliefs.runAll`, `Beliefs.history` — the beliefs after operations, and their events;
* `Beliefs.endsReserved` — whether a slug was last taken on with the reserved verb;
* `Beliefs.Replays` — how the beliefs replayed from events stand to those held.

## Main results

* `replays_step` — one operation and its events;
* `history_reproduces_iff` — the events of a run lead to the same beliefs exactly if no slug is left
  with the reserved verb.
-/

namespace PaneEngine.Beliefs

/-! ## Runs -/

/-- The beliefs after operations. -/
def runAll (bs : Beliefs) (ops : List Operation) : Beliefs :=
  ops.foldl (fun bs op => (op.step bs).beliefs) bs

/-- The events that operations record, in order. -/
def history (bs : Beliefs) : List Operation → List Event
  | [] => []
  | op :: rest => (op.step bs).events ++ history (op.step bs).beliefs rest

namespace Operation

/-- Whether an operation is about a slug. -/
def concerns : Operation → String → Bool
  | .hold b, slug => slug = b.slug
  | .release slug', slug => slug = slug'
  | .apply e, slug => e.kind = .belief ∧ slug = e.id
  | .goBack held, slug => slug ∈ backSlugs held

/-- Whether an operation takes on a belief with the verb that is reserved for giving up. -/
def holdsReserved : Operation → Bool
  | .hold b => b.verb = Event.unsetVerb
  | _ => false

end Operation

/-- Whether the last operation about a slug takes on a belief with the reserved verb. -/
def endsReserved (ops : List Operation) (slug : String) : Bool :=
  ((ops.filter fun op => op.concerns slug).getLast?).any Operation.holdsReserved

/-- Whether a slug is left with the reserved verb by one operation more. -/
def reservedAfter (op : Operation) (reserved : String → Bool) (slug : String) : Bool :=
  if op.concerns slug then op.holdsReserved else reserved slug

theorem endsReserved_concat (ops : List Operation) (op : Operation) :
    endsReserved (ops ++ [op]) = reservedAfter op (endsReserved ops) := by
  funext slug
  unfold endsReserved reservedAfter
  rw [List.filter_append]
  by_cases hConcerns : op.concerns slug = true
  · simp [hConcerns]
  · simp [hConcerns]

/-! ## One operation -/

/-- How beliefs `r` that are replayed from events stand to the beliefs `a` that are held: they lack
the slugs that are left with the reserved verb, and are the same otherwise. -/
structure Replays (a r : Beliefs) (reserved : String → Bool) : Prop where
  look : ∀ slug, r.get? slug = if reserved slug then none else a.get? slug
  verb : ∀ slug, reserved slug = true → ∃ b, a.get? slug = some b ∧ b.verb = Event.unsetVerb

variable {a r : Beliefs} {reserved : String → Bool}

/-- What is not held is not replayed either. -/
theorem Replays.none (h : Replays a r reserved) {slug : String} (hNone : a.get? slug = none) :
    r.get? slug = none := by
  rw [h.look, hNone, ite_self]

theorem written_holdEvent (b : Belief) :
    written (holdEvent b) = if b.verb = Event.unsetVerb then none else some b := rfl

theorem replays_hold (h : Replays a r reserved) (b : Belief) :
    Replays (a.hold b).beliefs (r.applyAll (a.hold b).events)
      (reservedAfter (.hold b) reserved) := by
  have hReplayed : ∀ slug, (r.applyAll (a.hold b).events).get? slug =
      if slug = b.slug then written (holdEvent b) else r.get? slug := by
    intro slug
    refine (get?_apply r (holdEvent b) slug).trans ?_
    simp [holdEvent, Event.belief]
  refine ⟨?_, ?_⟩
  · intro slug
    rw [hReplayed, get?_hold, h.look]
    by_cases hSlug : slug = b.slug
    · rw [written_holdEvent]
      simp [hSlug, reservedAfter, Operation.concerns, Operation.holdsReserved]
    · simp [hSlug, reservedAfter, Operation.concerns]
  · intro slug hReserved
    rw [get?_hold]
    by_cases hSlug : slug = b.slug
    · refine ⟨b, if_pos hSlug, ?_⟩
      simpa [reservedAfter, Operation.concerns, hSlug, Operation.holdsReserved] using hReserved
    · rw [if_neg hSlug]
      exact h.verb slug (by simpa [reservedAfter, Operation.concerns, hSlug] using hReserved)

/-- An operation and its events that leave the same under the slugs that it is about. -/
theorem replays_alike (h : Replays a r reserved) {a' r' : Beliefs} {op : Operation}
    (value : Option Belief) (hOp : op.holdsReserved = false)
    (hHeld : ∀ slug, a'.get? slug = if op.concerns slug then value else a.get? slug)
    (hReplayed : ∀ slug, r'.get? slug = if op.concerns slug then value else r.get? slug) :
    Replays a' r' (reservedAfter op reserved) := by
  refine ⟨?_, ?_⟩
  · intro slug
    rw [hReplayed, hHeld, h.look, reservedAfter]
    by_cases hConcerns : op.concerns slug = true
    · simp [hConcerns, hOp]
    · simp [hConcerns]
  · intro slug hReserved
    rw [reservedAfter] at hReserved
    by_cases hConcerns : op.concerns slug = true
    · rw [if_pos hConcerns, hOp] at hReserved
      cases hReserved
    · rw [if_neg hConcerns] at hReserved
      rw [hHeld, if_neg hConcerns]
      exact h.verb slug hReserved

theorem replays_release (h : Replays a r reserved) (slug : String) :
    Replays (a.release slug).beliefs (r.applyAll (a.release slug).events)
      (reservedAfter (.release slug) reserved) := by
  refine replays_alike h none rfl ?_ ?_
  · intro k
    rw [get?_release]
    simp [Operation.concerns]
  · intro k
    unfold release
    by_cases hHeld : a.contains slug = true
    · rw [if_pos hHeld]
      refine (get?_applyAll_release r [slug] k).trans ?_
      simp [Operation.concerns]
    · -- nothing is recorded, and there is nothing to give up in the replayed beliefs
      have hNone : a.get? slug = none := by
        simpa [Dict.contains_iff] using hHeld
      rw [if_neg hHeld]
      show r.get? k = _
      by_cases hk : k = slug
      · simp [Operation.concerns, hk, h.none hNone]
      · simp [Operation.concerns, hk]

theorem replays_goBack (h : Replays a r reserved) (held : Belief.Filter) :
    Replays (a.goBack held).beliefs (r.applyAll (a.goBack held).events)
      (reservedAfter (.goBack held) reserved) := by
  refine replays_alike h none rfl ?_ ?_
  · intro k
    rw [get?_goBack]
    simp [Operation.concerns]
  · intro k
    refine (get?_applyAll_release r (backSlugs held) k).trans ?_
    simp [Operation.concerns]

/-- An event is recorded unless it changes nothing; then it would change nothing in the replayed
beliefs either, for a belief that it sets is not left with the reserved verb. -/
theorem replays_apply (h : Replays a r reserved) (e : Event) :
    Replays (a.apply e).beliefs (r.applyAll (a.apply e).events)
      (reservedAfter (.apply e) reserved) := by
  have hFree : ∀ slug, e.kind = .belief ∧ slug = e.id → written e = a.get? slug →
      reserved slug = false := by
    intro slug hConcerns hSame
    by_cases hReserved : reserved slug = true
    · obtain ⟨b, hb, hVerb⟩ := h.verb slug hReserved
      rw [hb, written] at hSame
      by_cases hUnset : e.verb = Event.unsetVerb
      · rw [if_pos hUnset] at hSame
        cases hSame
      · rw [if_neg hUnset] at hSame
        have hEq : (beliefOf e).verb = b.verb := congrArg Belief.verb (Option.some.inj hSame)
        exact absurd (hEq.trans hVerb) hUnset
    · simpa using hReserved
  have hReplayed : ∀ slug, (r.applyAll (a.apply e).events).get? slug =
      if e.kind = .belief ∧ slug = e.id then written e else r.get? slug := by
    intro slug
    rw [(apply_exact a e).2]
    by_cases hSame : (a.apply e).beliefs = a
    · -- nothing is recorded: the replayed beliefs must have what the event would write
      rw [if_pos hSame]
      show r.get? slug = _
      by_cases hConcerns : e.kind = .belief ∧ slug = e.id
      · have hLook := get?_apply a e slug
        rw [hSame, if_pos hConcerns] at hLook
        rw [if_pos hConcerns, h.look, hFree slug hConcerns hLook.symm, hLook]
        rfl
      · rw [if_neg hConcerns]
    · rw [if_neg hSame]
      exact get?_apply r e slug
  refine replays_alike h (written e) rfl ?_ ?_
  · intro slug
    rw [get?_apply]
    simp [Operation.concerns]
  · intro slug
    rw [hReplayed]
    simp [Operation.concerns]

theorem replays_step (h : Replays a r reserved) (op : Operation) :
    Replays (op.step a).beliefs (r.applyAll (op.step a).events) (reservedAfter op reserved) := by
  cases op with
  | hold b => exact replays_hold h b
  | release slug => exact replays_release h slug
  | apply e => exact replays_apply h e
  | goBack held => exact replays_goBack h held

/-! ## Runs of operations -/

theorem replays_run {before : List Operation} (h : Replays a r (endsReserved before))
    (ops : List Operation) :
    Replays (a.runAll ops) (r.applyAll (a.history ops)) (endsReserved (before ++ ops)) := by
  induction ops generalizing before a r with
  | nil =>
      rw [List.append_nil]
      exact h
  | cons op rest ih =>
      have hStep := replays_step h op
      rw [← endsReserved_concat] at hStep
      have hRest := ih hStep
      rw [List.append_assoc, List.singleton_append, ← applyAll_append] at hRest
      exact hRest

theorem endsReserved_eq_false {ops : List Operation} (h : ∀ op ∈ ops, op.holdsReserved = false)
    (slug : String) : endsReserved ops slug = false := by
  unfold endsReserved
  cases hLast : (ops.filter fun op => op.concerns slug).getLast? with
  | none => rfl
  | some op =>
      have hMem := List.mem_of_getLast? hLast
      exact h op (List.mem_filter.1 hMem).1

/-- **The history reproduces the beliefs**, from any beliefs and for every run of operations, up to
the slugs that are left with the reserved verb: those are held by the operations and given up by
their events.  So the beliefs are the same exactly if there is no such slug, and always if no
belief is taken on with that verb. -/
theorem history_reproduces_iff (bs : Beliefs) (ops : List Operation) :
    (∀ slug, (bs.applyAll (bs.history ops)).get? slug =
      if endsReserved ops slug then none else (bs.runAll ops).get? slug) ∧
    (∀ slug, endsReserved ops slug = true →
      ∃ b, (bs.runAll ops).get? slug = some b ∧ b.verb = Event.unsetVerb) ∧
    (bs.applyAll (bs.history ops) = bs.runAll ops ↔ ∀ slug, endsReserved ops slug = false) ∧
    ((∀ op ∈ ops, op.holdsReserved = false) →
      bs.applyAll (bs.history ops) = bs.runAll ops) := by
  have hStart : Replays bs bs (endsReserved []) :=
    ⟨fun _ => rfl, fun _ hReserved => by cases hReserved⟩
  have hRun : Replays (bs.runAll ops) (bs.applyAll (bs.history ops)) (endsReserved ops) :=
    replays_run hStart ops
  have hIff : bs.applyAll (bs.history ops) = bs.runAll ops ↔
      ∀ slug, endsReserved ops slug = false := by
    constructor
    · intro hSame slug
      by_cases hReserved : endsReserved ops slug = true
      · obtain ⟨b, hb, _⟩ := hRun.verb slug hReserved
        have hLook := hRun.look slug
        rw [hSame, hb, if_pos hReserved] at hLook
        cases hLook
      · simpa using hReserved
    · intro hFree
      refine Dict.ext_get? ?_
      intro slug
      rw [hRun.look, hFree slug]
      rfl
  refine ⟨hRun.look, hRun.verb, hIff, ?_⟩
  intro hUnreserved
  exact hIff.2 (endsReserved_eq_false hUnreserved)

/-- A belief that is taken on with the reserved verb. -/
def takeOnReserved : List Operation := [.hold ⟨"A", Event.unsetVerb, none⟩]

/-- The belief is held, but its own event gives it up. -/
theorem history_reproduces_iff_takeOnReserved :
    (Beliefs.ofList [⟨"A", "yes", none⟩]).history takeOnReserved =
        [.belief "A" Event.unsetVerb none] ∧
      (Beliefs.ofList [⟨"A", "yes", none⟩]).runAll takeOnReserved =
        .ofList [⟨"A", Event.unsetVerb, none⟩] ∧
      (Beliefs.ofList [⟨"A", "yes", none⟩]).applyAll [.belief "A" Event.unsetVerb none] = .empty ∧
      ¬ (Beliefs.ofList [⟨"A", "yes", none⟩]).applyAll
          ((Beliefs.ofList [⟨"A", "yes", none⟩]).history takeOnReserved) =
        (Beliefs.ofList [⟨"A", "yes", none⟩]).runAll takeOnReserved := by
  refine ⟨by decide, by decide, by decide, ?_⟩
  intro hSame
  have hFree := (history_reproduces_iff _ takeOnReserved).2.2.1.1 hSame "A"
  exact absurd hFree (by decide)

end PaneEngine.Beliefs
