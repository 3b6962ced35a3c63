import PaneEngine.Belief.Visibility
import PaneEngine.Proofs.Belief.Change

/-!
# The way back

Going back from a pane gives up the beliefs that let it be seen: the slugs that
the held filter requires, ascending, and behind them the linked ones in order of
their first mention, no slug twice.  None of the required slugs is held
afterwards.  A predicate outside the group that matches across has to be
satisfied, and of the group one has to be; so a filter that requires anything at
all, however it groups its predicates, does not let the pane be seen.

## Main definitions

* `Belief.Filter.required` — the slugs that a filter requires;
* `Beliefs.FirstMentions` — the new slugs of a list in order of their first mention.

## Main results

* `firstMentions_eraseDups` — erasing duplicates keeps the first mentions in order;
* `revealsBy_eq_false` — a filter none of whose slugs is held does not reveal;
* `goBack_closes` — what going back gives up and records, and that the pane is hidden by it.
-/

namespace PaneEngine

namespace Belief

/-! ## What a filter requires -/

/-- The slugs that a filter requires, ascending. -/
def Filter.required (f : Filter) : List String := f.predicates.map (·.1)

theorem Filter.isReserved_iff (key : String) :
    isReserved key = true ↔ key = matchAcrossKey ∨ key = linkedKey := by
  simp [isReserved, reservedKeys]

theorem Filter.mem_required (f : Filter) (slug : String) :
    slug ∈ f.required ↔
      f.contains slug = true ∧ slug ≠ matchAcrossKey ∧ slug ≠ linkedKey := by
  have hEntry : f.contains slug = true ↔ ∃ e ∈ f.entries, e.1 = slug := by
    unfold Dict.contains Dict.get?
    rw [List.lookup_isSome_iff]
    simp only [beq_iff_eq, eq_comm (b := slug)]
  have hFree : isReserved slug = false ↔ slug ≠ matchAcrossKey ∧ slug ≠ linkedKey := by
    rw [← Bool.not_eq_true, isReserved_iff, not_or]
  rw [hEntry, ← hFree]
  constructor
  · intro hMem
    obtain ⟨e, hPredicate, rfl⟩ := List.mem_map.1 hMem
    obtain ⟨hFound, hNamed⟩ := List.mem_filter.1 hPredicate
    exact ⟨⟨e, hFound, rfl⟩, by simpa using hNamed⟩
  · rintro ⟨⟨e, hFound, rfl⟩, hNamed⟩
    exact List.mem_map_of_mem (List.mem_filter.2 ⟨hFound, by simpa using hNamed⟩)

theorem Filter.pairwise_required (f : Filter) : f.required.Pairwise (· < ·) :=
  List.pairwise_map.2 (f.sorted.filter _)

/-! ## Filters none of whose slugs is held -/

theorem satisfies_eq_false {bs : Beliefs} {p : String × Filter.Accepted}
    (h : bs.get? p.1 = none) : satisfies bs p = false := by
  simp [satisfies, h]

/-- A filter that requires something and none of whose slugs is held does not reveal.  One of its
predicates decides: the whole group fails if that one matches across, and it fails alone if not. -/
theorem revealsBy_eq_false {f : Filter} {bs : Beliefs} (hSome : f.predicates ≠ [])
    (hNone : ∀ p ∈ f.predicates, bs.get? p.1 = none) : revealsBy f bs = false := by
  obtain ⟨p, hMem⟩ := List.exists_mem_of_ne_nil _ hSome
  have hFails : ∀ q ∈ f.predicates, satisfies bs q = false := by
    intro q hq
    exact satisfies_eq_false (hNone q hq)
  unfold revealsBy
  simp only [List.partition_eq_filter_filter]
  by_cases hAcross : f.matchAcross.contains p.1 = true
  · have hGroup : p ∈ f.predicates.filter fun q => f.matchAcross.contains q.1 :=
      List.mem_filter.2 ⟨hMem, hAcross⟩
    have hSeen : (f.predicates.filter fun q => f.matchAcross.contains q.1).isEmpty = false :=
      List.isEmpty_eq_false_iff.2 (List.ne_nil_of_mem hGroup)
    have hUnmet : (f.predicates.filter fun q => f.matchAcross.contains q.1).any
        (satisfies bs) = false := by
      refine List.any_eq_false.2 ?_
      intro q hq
      simp [hFails q (List.mem_filter.1 hq).1]
    rw [hSeen, hUnmet, Bool.or_self, Bool.and_false]
  · have hSingle : p ∈ f.predicates.filter (not ∘ fun q => f.matchAcross.contains q.1) :=
      List.mem_filter.2 ⟨hMem, by simpa using hAcross⟩
    have hUnmet : (f.predicates.filter (not ∘ fun q => f.matchAcross.contains q.1)).all
        (satisfies bs) = false := by
      refine List.all_eq_false.2 ⟨p, hSingle, ?_⟩
      simp [hFails p hMem]
    rw [hUnmet, Bool.false_and]

end Belief

namespace Beliefs

open Belief (Filter Gate reveals)

/-! ## First mentions -/

/-- `further` lists the slugs that `mentions` mentions and `before` does not, in order of their
first mention. -/
structure FirstMentions (before mentions further : List String) : Prop where
  mem_iff : ∀ slug, slug ∈ further ↔ slug ∈ mentions ∧ slug ∉ before
  order : further.Pairwise fun a b => mentions.idxOf a < mentions.idxOf b

/-- The induction is on the mentions, for every choice of what is kept of them: what follows the
first mention of a slug is searched for other slugs only. -/
theorem pairwise_idxOf_eraseDups (keep : String → Bool) (mentions : List String) :
    (mentions.filter keep).eraseDups.Pairwise
      fun a b => mentions.idxOf a < mentions.idxOf b := by
  induction mentions generalizing keep with
  | nil => simp
  | cons slug rest ih =>
      have hBehind : ∀ a, a ≠ slug → (slug :: rest).idxOf a = rest.idxOf a + 1 := by
        intro a hne
        have hBeq : (slug == a) = false := by simpa using hne.symm
        simp [List.idxOf_cons, hBeq]
      have hShift : ∀ keep' : String → Bool, (∀ a, keep' a = true → a ≠ slug) →
          (rest.filter keep').eraseDups.Pairwise
            fun a b => (slug :: rest).idxOf a < (slug :: rest).idxOf b := by
        intro keep' hOther
        refine (ih keep').imp_of_mem ?_
        intro a b ha hb hLt
        have ha' := (List.mem_filter.1 (List.mem_eraseDups.1 ha)).2
        have hb' := (List.mem_filter.1 (List.mem_eraseDups.1 hb)).2
        rw [hBehind a (hOther a ha'), hBehind b (hOther b hb')]
        omega
      by_cases hKeep : keep slug = true
      · rw [List.filter_cons_of_pos hKeep, List.eraseDups_cons, List.filter_filter]
        refine List.pairwise_cons.2 ⟨?_, hShift _ fun a ha => by simp_all⟩
        intro b hb
        have hne : b ≠ slug := by
          have hKept := (List.mem_filter.1 (List.mem_eraseDups.1 hb)).2
          simp_all
        rw [List.idxOf_cons_self, hBehind b hne]
        omega
      · rw [List.filter_cons_of_neg hKeep]
        exact hShift keep fun a ha hEq => hKeep (hEq ▸ ha)

theorem eraseDups_of_nodup {slugs : List String} (h : slugs.Nodup) : slugs.eraseDups = slugs := by
  induction slugs with
  | nil => rfl
  | cons slug rest ih =>
      obtain ⟨hNew, hRest⟩ := List.nodup_cons.1 h
      have hKept : rest.filter (fun b => !b == slug) = rest := by
        refine List.filter_eq_self.2 ?_
        intro b hb
        have hne : b ≠ slug := fun hEq => hNew (hEq ▸ hb)
        simpa using hne
      rw [List.eraseDups_cons, hKept, ih hRest]

/-- Behind a list without duplicates, erasing duplicates leaves the first mentions of what is
new. -/
theorem firstMentions_eraseDups {before : List String} (h : before.Nodup)
    (mentions : List String) :
    ∃ further, FirstMentions before mentions further ∧
      (before ++ mentions).eraseDups = before ++ further := by
  refine ⟨(mentions.removeAll before).eraseDups, ⟨?_, ?_⟩, ?_⟩
  · intro slug
    rw [List.mem_eraseDups, List.removeAll, List.mem_filter]
    simp
  · exact pairwise_idxOf_eraseDups _ mentions
  · rw [List.eraseDups_append, eraseDups_of_nodup h]

theorem FirstMentions.nodup_append {before mentions further : List String}
    (h : FirstMentions before mentions further) (hBefore : before.Nodup) :
    (before ++ further).Nodup := by
  refine List.nodup_append.2 ⟨hBefore, ?_, ?_⟩
  · refine h.order.imp ?_
    intro a b hLt hEq
    rw [hEq] at hLt
    exact Nat.lt_irrefl _ hLt
  · intro a ha b hb hEq
    exact ((h.mem_iff b).1 hb).2 (hEq ▸ ha)

/-! ## Going back -/

theorem nodup_required (held : Filter) : held.required.Nodup :=
  held.pairwise_required.imp String.ne_of_lt

theorem mem_backSlugs (held : Filter) (slug : String) :
    slug ∈ backSlugs held ↔ slug ∈ held.required ∨ slug ∈ held.linked := by
  unfold backSlugs
  rw [List.mem_eraseDups, List.mem_append]
  rfl

theorem applyAll_goBack (bs : Beliefs) (held : Filter) :
    bs.applyAll (bs.goBack held).events = (bs.goBack held).beliefs := by
  refine Dict.ext_get? ?_
  intro slug
  rw [get?_goBack]
  exact get?_applyAll_release bs (backSlugs held) slug

/-- Once the slugs are given up there is nothing left to give up. -/
theorem goBack_goBack (bs : Beliefs) (held : Filter) :
    ((bs.goBack held).beliefs.goBack held).beliefs = (bs.goBack held).beliefs ∧
      ((bs.goBack held).beliefs.goBack held).notified = false := by
  have hSame : ((bs.goBack held).beliefs.goBack held).beliefs = (bs.goBack held).beliefs := by
    refine Dict.ext_get? ?_
    intro slug
    rw [get?_goBack, get?_goBack]
    by_cases hMem : slug ∈ backSlugs held
    · simp only [if_pos hMem]
    · simp only [if_neg hMem]
  have hLength := congrArg (fun after : Beliefs => after.entries.length) hSame
  exact ⟨hSame, by simpa [goBack] using hLength⟩

theorem reveals_goBack {held : Filter} (h : held.predicates ≠ []) (bs : Beliefs) :
    reveals (some held) (bs.goBack held).beliefs = false := by
  refine Belief.revealsBy_eq_false h ?_
  intro p hp
  have hGiven : p.1 ∈ backSlugs held :=
    (mem_backSlugs held p.1).2 (.inl (List.mem_map_of_mem hp))
  rw [get?_goBack, if_pos hGiven]

/-- **Going back closes the gate, and its events say what it did.**  For all beliefs and every held
filter: just the required and the linked slugs are given up; each is recorded by one event that
gives it up, the required ones by ascending slug and behind them the others in order of their first
mention; these events, applied to the beliefs before, lead to the beliefs after; going back once
more changes and notifies nothing; and if the filter requires anything it does not reveal the pane
afterwards, which is then hidden under every withheld filter. -/
theorem goBack_closes (bs : Beliefs) (held : Filter) :
    let back := bs.goBack held
    (∀ slug, back.beliefs.get? slug =
      if slug ∈ held.required ∨ slug ∈ held.linked then none else bs.get? slug) ∧
    (∀ slug, slug ∈ held.required ↔ held.contains slug = true ∧
      slug ≠ Filter.matchAcrossKey ∧ slug ≠ Filter.linkedKey) ∧
    held.required.Pairwise (· < ·) ∧
    (∃ further, FirstMentions held.required held.linked further ∧
      back.events = (held.required ++ further).map fun slug =>
        Event.belief slug Event.unsetVerb (some "true")) ∧
    (back.events.map (·.id)).Nodup ∧
    bs.applyAll back.events = back.beliefs ∧
    (back.beliefs.goBack held).beliefs = back.beliefs ∧
    (back.beliefs.goBack held).notified = false ∧
    (held.predicates ≠ [] →
      reveals (some held) back.beliefs = false ∧
        ∀ withheld, (Gate.mk (some held) withheld).isOpen back.beliefs = false) := by
  intro back
  obtain ⟨further, hFurther, hSlugs⟩ :=
    firstMentions_eraseDups (nodup_required held) held.linked
  have hEvents : back.events = (held.required ++ further).map releaseEvent :=
    congrArg (List.map releaseEvent) hSlugs
  have hIds : back.events.map (·.id) = held.required ++ further := by
    rw [hEvents, List.map_map]
    exact List.map_id' _
  obtain ⟨hAgain, hQuiet⟩ := goBack_goBack bs held
  refine ⟨?_, held.mem_required, held.pairwise_required, ⟨further, hFurther, hEvents⟩, ?_,
    applyAll_goBack bs held, hAgain, hQuiet, ?_⟩
  · intro slug
    rw [get?_goBack]
    simp only [mem_backSlugs]
  · rw [hIds]
    exact hFurther.nodup_append (nodup_required held)
  · intro hSome
    have hHidden := reveals_goBack hSome bs
    refine ⟨hHidden, ?_⟩
    intro withheld
    show (reveals (some held) back.beliefs && _) = false
    rw [hHidden, Bool.false_and]

/-- A filter that requires `A` and `B`, of which either suffices, with `C` linked twice and `A`
linked although it is required. -/
def overlappingFilter : Filter :=
  .ofList [("B", .one "*"), ("A", .anyOf ["yes", "no"]), (Filter.linkedKey, .anyOf ["C", "A", "C"]),
    (Filter.matchAcrossKey, .anyOf ["B", "A"])]

/-- `B` alone lets the pane be seen; going back gives up `A`, `B` and `C` and hides it. -/
theorem goBack_closes_overlappingFilter :
    let bs := Beliefs.ofList [⟨"B", "maybe", none⟩, ⟨"C", "yes", none⟩, ⟨"D", "yes", none⟩]
    overlappingFilter.predicates ≠ [] ∧
      (Gate.mk (some overlappingFilter) none).isOpen bs = true ∧
      (bs.goBack overlappingFilter).events.map (·.id) = ["A", "B", "C"] ∧
      (bs.goBack overlappingFilter).beliefs = .ofList [⟨"D", "yes", none⟩] ∧
      (Gate.mk (some overlappingFilter) none).isOpen (bs.goBack overlappingFilter).beliefs =
        false := by
  intro bs
  have hSome : overlappingFilter.predicates ≠ [] := by decide
  obtain ⟨_, _, _, _, _, _, _, _, hClosed⟩ := goBack_closes bs overlappingFilter
  exact ⟨hSome, by decide, by decide, by decide, (hClosed hSome).2 none⟩

end Beliefs

end PaneEngine
