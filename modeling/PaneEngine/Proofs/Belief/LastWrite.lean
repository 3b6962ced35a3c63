import Mathlib.Data.List.Induction
import PaneEngine.Proofs.Belief.History
import PaneEngine.Proofs.Belief.Return

/-!
# The last operation decides

Every operation is about certain slugs: it leaves the same under each of them,
whatever was held before, and everything else as it was.  So of a run of
operations only the last one about a slug matters for that slug, and operations
that are about different slugs do not notice each other.

What an operation records and whether it notifies depends on the look-ups of its
own slugs alone (`seen_of_agree`); that is why two operations about different
slugs can change places with all that they answer.

## Main definitions

* `Operation.leaves` — what an operation leaves under the slugs that it is about;
* `Beliefs.Keyed` — every belief is held under its own slug;
* `Beliefs.lastAbout` — the last operation about a slug;
* `Operation.Apart` — operations about different slugs.

## Main results

* `get?_step`, `get?_runAll` — the look-ups after one operation and after a run;
* `keyed_runAll` — beliefs stay under their slugs;
* `runAll_swap` — operations about different slugs can change places;
* `last_operation_decides` — all of this for every run.
-/

namespace PaneEngine.Beliefs

variable {bs bs' : Beliefs}

/-! ## One operation -/

/-- What an operation leaves under each slug that it is about. -/
def Operation.leaves : Operation → Option Belief
  | .hold b => some b
  | .release _ => none
  | .apply e => written e
  | .goBack _ => none

/-- **One operation** leaves its value under the slugs that it is about and nothing else changes. -/
theorem get?_step (bs : Beliefs) (op : Operation) (slug : String) :
    (op.step bs).beliefs.get? slug = if op.concerns slug then op.leaves else bs.get? slug := by
  cases op with
  | hold b =>
      refine (get?_hold bs b slug).trans ?_
      simp [Operation.concerns, Operation.leaves]
  | release slug' =>
      refine (get?_release bs slug' slug).trans ?_
      simp [Operation.concerns, Operation.leaves]
  | apply e =>
      refine (get?_apply bs e slug).trans ?_
      simp [Operation.concerns, Operation.leaves]
  | goBack held =>
      refine (get?_goBack bs held slug).trans ?_
      simp [Operation.concerns, Operation.leaves]

theorem concerns_goBack_iff (held : Belief.Filter) (slug : String) :
    (Operation.goBack held).concerns slug = true ↔
      slug ∈ held.required ∨ slug ∈ held.linked := by
  simp [Operation.concerns, mem_backSlugs]

/-- Every belief is held under its own slug. -/
def Keyed (bs : Beliefs) : Prop := ∀ e ∈ bs.entries, e.2.slug = e.1

theorem keyed_iff (bs : Beliefs) :
    Keyed bs ↔ ∀ slug b, bs.get? slug = some b → b.slug = slug := by
  simp only [Keyed, Prod.forall, Dict.mem_entries_iff]

theorem slug_of_written {e : Event} {b : Belief} (h : written e = some b) : b.slug = e.id := by
  unfold written at h
  split at h
  · cases h
  · cases h
    rfl

theorem slug_of_leaves {op : Operation} {slug : String} {b : Belief}
    (hConcerns : op.concerns slug = true) (hLeaves : op.leaves = some b) : b.slug = slug := by
  cases op with
  | hold b' =>
      cases hLeaves
      simpa [Operation.concerns, eq_comm] using hConcerns
  | release slug' => cases hLeaves
  | apply e =>
      have hId : e.kind = .belief ∧ slug = e.id := by
        simpa [Operation.concerns] using hConcerns
      rw [hId.2]
      exact slug_of_written hLeaves
  | goBack held => cases hLeaves

theorem keyed_step (h : Keyed bs) (op : Operation) : Keyed (op.step bs).beliefs := by
  rw [keyed_iff] at h ⊢
  intro slug b hb
  rw [get?_step] at hb
  by_cases hConcerns : op.concerns slug = true
  · rw [if_pos hConcerns] at hb
    exact slug_of_leaves hConcerns hb
  · rw [if_neg hConcerns] at hb
    exact h slug b hb

/-! ## Runs -/

theorem runAll_append (bs : Beliefs) (ops ops' : List Operation) :
    bs.runAll (ops ++ ops') = (bs.runAll ops).runAll ops' := List.foldl_append

theorem runAll_cons (bs : Beliefs) (op : Operation) (ops : List Operation) :
    bs.runAll (op :: ops) = (op.step bs).beliefs.runAll ops := rfl

/-- The last operation about a slug. -/
def lastAbout (ops : List Operation) (slug : String) : Option Operation :=
  (ops.filter fun op => op.concerns slug).getLast?

theorem lastAbout_concat (ops : List Operation) (op : Operation) (slug : String) :
    lastAbout (ops ++ [op]) slug =
      if op.concerns slug then some op else lastAbout ops slug := by
  unfold lastAbout
  rw [List.filter_append]
  by_cases hConcerns : op.concerns slug = true
  · simp [hConcerns]
  · simp [hConcerns]

/-- **A run** leaves under a slug what the last operation about it leaves. -/
theorem get?_runAll (bs : Beliefs) (ops : List Operation) (slug : String) :
    (bs.runAll ops).get? slug =
      match lastAbout ops slug with
      | some op => op.leaves
      | none => bs.get? slug := by
  induction ops using List.reverseRecOn with
  | nil => rfl
  | append_singleton ops op ih =>
      rw [runAll_append, runAll_cons, lastAbout_concat]
      show (op.step (bs.runAll ops)).beliefs.get? slug = _
      rw [get?_step, ih]
      by_cases hConcerns : op.concerns slug = true
      · simp only [if_pos hConcerns]
      · simp only [if_neg hConcerns]

theorem keyed_runAll (h : Keyed bs) (ops : List Operation) : Keyed (bs.runAll ops) := by
  induction ops generalizing bs with
  | nil => exact h
  | cons op ops ih => exact ih (keyed_step h op)

/-! ## What is held at first -/

/-- Of several beliefs about one slug the last one is held. -/
theorem get?_ofList_last (initial : List Belief) (slug : String) :
    (Beliefs.ofList initial).get? slug =
      (initial.filter fun b => b.slug = slug).getLast? := by
  unfold Beliefs.ofList
  rw [Dict.get?_ofList]
  induction initial using List.reverseRecOn with
  | nil => rfl
  | append_singleton initial b ih =>
      rw [List.map_append, List.map_singleton, List.reverse_concat, Dict.lookup_cons_eq_if, ih,
        List.filter_append]
      by_cases hSlug : slug = b.slug
      · simp [hSlug]
      · simp [hSlug, Ne.symm hSlug]

theorem keyed_ofList (initial : List Belief) : Keyed (Beliefs.ofList initial) := by
  intro e hMem
  obtain ⟨b, -, rfl⟩ := List.mem_map.1 (Dict.mem_of_mem_ofList hMem)
  rfl

/-! ## Operations about different slugs -/

/-- Two operations are about different slugs. -/
def Operation.Apart (op op' : Operation) : Prop :=
  ∀ slug, op.concerns slug = true → op'.concerns slug = false

theorem Operation.Apart.symm {op op' : Operation} (h : op.Apart op') : op'.Apart op := by
  intro slug hConcerns
  cases hOther : op.concerns slug with
  | false => rfl
  | true => exact absurd hConcerns (by simp [h slug hOther])

/-- The beliefs after two operations about different slugs do not depend on their order. -/
theorem beliefs_swap {op op' : Operation} (h : op.Apart op') (bs : Beliefs) :
    (op'.step (op.step bs).beliefs).beliefs = (op.step (op'.step bs).beliefs).beliefs := by
  refine Dict.ext_get? ?_
  intro slug
  simp only [get?_step]
  by_cases hConcerns : op.concerns slug = true
  · simp [hConcerns, h slug hConcerns]
  · simp [hConcerns]

/-- The way back notifies if one of the slugs that it is about is held. -/
theorem notified_goBack_iff (bs : Beliefs) (held : Belief.Filter) :
    (bs.goBack held).notified = true ↔ ∃ slug ∈ backSlugs held, bs.get? slug ≠ none := by
  have hLess : (bs.goBack held).notified = true ↔
      ∃ e ∈ bs.entries, e.1 ∈ backSlugs held := by
    have hKept := List.length_filter_eq_length_iff (l := bs.entries)
      (p := fun e => !(backSlugs held).contains e.1)
    simp only [goBack, Dict.filter, ne_eq, decide_eq_true_eq, hKept]
    simp
  rw [hLess]
  constructor
  · rintro ⟨⟨slug, b⟩, hEntry, hMem⟩
    refine ⟨slug, hMem, ?_⟩
    rw [(Dict.mem_entries_iff bs slug b).1 hEntry]
    exact Option.some_ne_none b
  · rintro ⟨slug, hMem, hHeld⟩
    obtain ⟨b, hb⟩ := Option.ne_none_iff_exists'.1 hHeld
    exact ⟨(slug, b), (Dict.mem_entries_iff bs slug b).2 hb, hMem⟩

/-- What an operation records and whether it notifies depends on its own slugs alone. -/
theorem seen_of_agree {op : Operation}
    (h : ∀ slug, op.concerns slug = true → bs.get? slug = bs'.get? slug) :
    (op.step bs).notified = (op.step bs').notified ∧
      (op.step bs).events = (op.step bs').events := by
  cases op with
  | hold b => exact ⟨rfl, rfl⟩
  | release slug =>
      have hLook : bs.contains slug = bs'.contains slug :=
        congrArg Option.isSome (h slug (by simp [Operation.concerns]))
      show (bs.release slug).notified = (bs'.release slug).notified ∧
        (bs.release slug).events = (bs'.release slug).events
      unfold release
      rw [hLook]
      by_cases hHeld : bs'.contains slug = true
      · simp only [if_pos hHeld, and_self]
      · simp only [if_neg hHeld, and_self]
  | apply e =>
      show (bs.apply e).notified = (bs'.apply e).notified ∧
        (bs.apply e).events = (bs'.apply e).events
      by_cases hKind : e.kind = .belief
      · have hLook : bs.get? e.id = bs'.get? e.id := h e.id (by simp [Operation.concerns, hKind])
        have hHeld : bs.contains e.id = bs'.contains e.id := congrArg Option.isSome hLook
        by_cases hVerb : e.verb = Event.unsetVerb
        · rw [apply_unset bs hKind hVerb, apply_unset bs' hKind hVerb]
          unfold release
          rw [hHeld]
          by_cases hHeld' : bs'.contains e.id = true
          · simp only [if_pos hHeld', and_self]
          · simp only [if_neg hHeld', and_self]
        · rw [apply_set bs hKind hVerb, apply_set bs' hKind hVerb, hLook]
          by_cases hSame : bs'.get? e.id = some (beliefOf e)
          · simp only [if_pos hSame, and_self]
          · simp only [if_neg hSame, and_self]
      · rw [apply_other bs hKind, apply_other bs' hKind]
        exact ⟨rfl, rfl⟩
  | goBack held =>
      refine ⟨?_, rfl⟩
      rw [Bool.eq_iff_iff]
      refine (notified_goBack_iff bs held).trans (Iff.trans ?_ (notified_goBack_iff bs' held).symm)
      refine exists_congr ?_
      intro slug
      refine and_congr_right ?_
      intro hMem
      rw [h slug (by simpa [Operation.concerns] using hMem)]

/-- An operation answers the same behind one about other slugs. -/
theorem seen_behind {op op' : Operation} (h : op.Apart op') (bs : Beliefs) :
    (op.step (op'.step bs).beliefs).notified = (op.step bs).notified ∧
      (op.step (op'.step bs).beliefs).events = (op.step bs).events := by
  refine seen_of_agree ?_
  intro slug hConcerns
  rw [get?_step, h slug hConcerns]
  rfl

theorem runAll_swap {op op' : Operation} (h : op.Apart op') (bs : Beliefs)
    (before after : List Operation) :
    bs.runAll (before ++ op :: op' :: after) = bs.runAll (before ++ op' :: op :: after) := by
  simp only [runAll_append, runAll_cons]
  rw [beliefs_swap h]

/-! ## The same event again -/

/-- An event that has been applied changes nothing when it is applied again. -/
theorem apply_apply (bs : Beliefs) (e : Event) :
    (bs.apply e).beliefs.apply e = ⟨(bs.apply e).beliefs, false, []⟩ := by
  have hSame : ((bs.apply e).beliefs.apply e).beliefs = (bs.apply e).beliefs := by
    refine Dict.ext_get? ?_
    intro slug
    simp only [get?_apply]
    split
    · rfl
    · rfl
  obtain ⟨hNotified, hEvents⟩ := apply_exact (bs.apply e).beliefs e
  have hQuiet : ((bs.apply e).beliefs.apply e).notified = false := by simp [hNotified, hSame]
  have hSilent : ((bs.apply e).beliefs.apply e).events = [] := by simp [hEvents, hSame]
  calc (bs.apply e).beliefs.apply e
      = ⟨((bs.apply e).beliefs.apply e).beliefs, ((bs.apply e).beliefs.apply e).notified,
          ((bs.apply e).beliefs.apply e).events⟩ := rfl
    _ = ⟨(bs.apply e).beliefs, false, []⟩ := by rw [hSame, hQuiet, hSilent]

/-! ## All runs -/

/-- **The last operation about a slug decides what is held about it**, for every list of beliefs at
first and every run of operations, and every belief is held under its own slug.  So neighbours
about different slugs can change places, and each of them answers the same; an event that is not
about a belief does nothing; and an event that is applied twice in a row is applied once, the
second time without a change. -/
theorem last_operation_decides (initial : List Belief) (ops : List Operation) :
    let run := (Beliefs.ofList initial).runAll
    (∀ e ∈ (run ops).entries, e.2.slug = e.1) ∧
    (∀ slug, (run ops).get? slug =
      match lastAbout ops slug with
      | some (.hold b) => some b
      | some (.apply e) =>
        if e.verb = Event.unsetVerb then none else some ⟨slug, e.verb, e.object⟩
      | some (.release _) => none
      | some (.goBack _) => none
      | none => (initial.filter fun b => b.slug = slug).getLast?) ∧
    (∀ held slug, (Operation.goBack held).concerns slug = true ↔
      (held.contains slug = true ∧ slug ≠ Belief.Filter.matchAcrossKey ∧
        slug ≠ Belief.Filter.linkedKey) ∨ slug ∈ held.linked) ∧
    (∀ op op' after, op.Apart op' →
      run (ops ++ op :: op' :: after) = run (ops ++ op' :: op :: after) ∧
      (op.step (op'.step (run ops)).beliefs).notified = (op.step (run ops)).notified ∧
      (op.step (op'.step (run ops)).beliefs).events = (op.step (run ops)).events) ∧
    (∀ e, e.kind ≠ .belief → (run ops).apply e = ⟨run ops, false, []⟩) ∧
    (∀ e, ((run ops).apply e).beliefs.apply e = ⟨((run ops).apply e).beliefs, false, []⟩) := by
  intro run
  refine ⟨keyed_runAll (keyed_ofList initial) ops, ?_, ?_, ?_, ?_, ?_⟩
  · intro slug
    refine (get?_runAll _ ops slug).trans ?_
    cases hLast : lastAbout ops slug with
    | none => exact get?_ofList_last initial slug
    | some op =>
        cases op with
        | apply e =>
            have hMem := List.mem_of_getLast? hLast
            have hConcerns : e.kind = .belief ∧ slug = e.id := by
              simpa [Operation.concerns] using (List.mem_filter.1 hMem).2
            rw [hConcerns.2]
            rfl
        | _ => rfl
  · intro held slug
    rw [concerns_goBack_iff, held.mem_required]
  · intro op op' after hApart
    exact ⟨runAll_swap hApart _ ops after, seen_behind hApart (run ops)⟩
  · intro e hKind
    exact apply_other (run ops) hKind
  · intro e
    exact apply_apply (run ops) e

/-- Two beliefs about `E`, and one about each slug that is given up below. -/
def mixedBeliefs : List Belief :=
  [⟨"A", "yes", none⟩, ⟨"C", "yes", none⟩, ⟨"D", "no", none⟩, ⟨"E", "maybe", none⟩,
    ⟨"E", "sure", some "x"⟩]

/-- `A` is taken on with the reserved verb, `B` set and given up again, and on the way back `C` is
given up as required and `D` as linked, but not `A`, which only matches across. -/
def mixedRun : List Operation :=
  [.hold ⟨"A", Event.unsetVerb, none⟩, .apply (.belief "B" "yes" none),
    .apply (.paneClicked "E" "home"),
    .goBack (.ofList [("C", .one "*"), (Belief.Filter.linkedKey, .one "D"),
      (Belief.Filter.matchAcrossKey, .one "A")]),
    .apply (.belief "B" Event.unsetVerb none)]

theorem last_operation_decides_mixedRun :
    let run := (Beliefs.ofList mixedBeliefs).runAll
    let giveUp := Operation.release "A"
    let set := Operation.apply (.belief "B" "no" none)
    run mixedRun = .ofList [⟨"A", Event.unsetVerb, none⟩, ⟨"E", "sure", some "x"⟩] ∧
      (run mixedRun).get? "E" = some ⟨"E", "sure", some "x"⟩ ∧
      giveUp.Apart set ∧
      run (mixedRun ++ [giveUp, set]) = run (mixedRun ++ [set, giveUp]) ∧
      (Event.paneClicked "A" "home").kind ≠ .belief ∧
      (run mixedRun).apply (.paneClicked "A" "home") = ⟨run mixedRun, false, []⟩ := by
  intro run giveUp set
  obtain ⟨_, hLook, _, hSwap, hOther, _⟩ := last_operation_decides mixedBeliefs mixedRun
  have hApart : giveUp.Apart set := by
    intro slug hConcerns
    have hSlug : slug = "A" := by simpa [giveUp, Operation.concerns] using hConcerns
    rw [hSlug]
    decide
  have hKind : (Event.paneClicked "A" "home").kind ≠ .belief := by decide
  exact ⟨by decide, hLook "E", hApart, (hSwap giveUp set [] hApart).1, hKind, hOther _ hKind⟩

end PaneEngine.Beliefs
