import PaneEngine.Proofs.Json.Nesting

/-!
# How deep an accepted text nests

While the tokens of a text are taken, no bracket ever holds a part with a value
that goes beyond the limit: one that would is replaced as its own bracket closes.
So a text all of whose parts have a value nests no deeper than the limit.

## Main definitions

* `Json.InLimit` — a part keeps to the limit where it stands;
* `Progress.InLimit` — so do all parts that are finished.

## Main results

* `inLimit_step` — each token preserves it;
* `depth_le_of_read?` — an accepted text nests no deeper than the limit.
-/

namespace PaneEngine.Json

/-- A part inside `above` brackets keeps to the limit, or has no value. -/
def InLimit (above : Nat) (j : Json) : Prop :=
  above ≤ depthLimit → j.isReadable = true → above + j.depth ≤ depthLimit

theorem inLimit_unreadable (above : Nat) : InLimit above unreadable := by
  intro _ hValue
  cases hValue

theorem inLimit_of_depth_eq_zero {above : Nat} {j : Json} (h : j.depth = 0) : InLimit above j := by
  intro hAbove _
  rw [h]
  exact hAbove

theorem inLimit_limited {above : Nat} {j : Json}
    (h : above < depthLimit → j.isReadable = true → above + j.depth ≤ depthLimit) :
    InLimit above (limited above j) := by
  unfold limited
  split
  · next hAbove => exact fun _ => h hAbove
  · exact inLimit_unreadable above

/-! ## Open brackets -/

/-- The parts of a bracket that has `above` others around it keep to the limit. -/
def Open.InLimit (above : Nat) : Open → Prop
  | .items done => ∀ j ∈ done, Json.InLimit (above + 1) j
  | .members done _ => ∀ ms, done = some ms → ∀ m ∈ ms, Json.InLimit (above + 1) m.2

/-- The parts of all brackets keep to the limit. -/
def StackInLimit : List Open → Prop
  | [] => True
  | o :: stack => o.InLimit stack.length ∧ StackInLimit stack

theorem Open.inLimit_push {above : Nat} {j : Json} {o : Open} (hj : Json.InLimit (above + 1) j)
    (h : o.InLimit above) : (o.push j).InLimit above := by
  cases o with
  | items done => exact List.forall_mem_cons.2 ⟨hj, h⟩
  | members done key =>
      intro ms hPushed
      obtain ⟨before, hDone, hPushed⟩ := Option.bind_eq_some_iff.1 hPushed
      obtain ⟨k, _, rfl⟩ := Option.map_eq_some_iff.1 hPushed
      exact List.forall_mem_cons.2 ⟨hj, h before hDone⟩

/-- The bracket may lie too deep itself, which is why it is asked again as it closes. -/
theorem Open.inLimit_close {above : Nat} {o : Open} (h : o.InLimit above) :
    Json.InLimit above (o.close above) := by
  cases o with
  | items done =>
      refine inLimit_limited ?_
      intro hAbove hValue
      rw [isReadable_array, List.all_eq_true] at hValue
      have hItems : itemsDepth done.reverse ≤ depthLimit - (above + 1) := by
        refine itemsDepth_le_iff.2 ?_
        intro j hMem
        have hDepth := h j (List.mem_reverse.1 hMem) hAbove (hValue j hMem)
        omega
      rw [depth]
      omega
  | members done key =>
      cases done with
      | none =>
          refine inLimit_limited ?_
          intro _ hValue
          cases hValue
      | some ms =>
          refine inLimit_limited ?_
          intro hAbove hValue
          rw [Option.elim_some] at hValue ⊢
          rw [isReadable_object, List.all_eq_true] at hValue
          have hMembers : membersDepth ms.reverse ≤ depthLimit - (above + 1) := by
            refine membersDepth_le_iff.2 ?_
            intro m hMem
            have hDepth := h ms rfl m (List.mem_reverse.1 hMem) hAbove (hValue m hMem)
            omega
          rw [depth]
          omega

/-! ## Tokens -/

/-- A word stands for a part that does not nest. -/
def Token.IsFlat : Token → Prop
  | .word j => j.depth = 0
  | _ => True

theorem isFlat_of_map_cons {t : Token} {rest : Option (List Token)} {ts : List Token}
    (h : rest.map (t :: ·) = some ts) (ht : t.IsFlat)
    (ih : ∀ {ts}, rest = some ts → ∀ t ∈ ts, t.IsFlat) : ∀ t ∈ ts, t.IsFlat := by
  obtain ⟨ts', hRest, rfl⟩ := Option.map_eq_some_iff.1 h
  exact List.forall_mem_cons.2 ⟨ht, ih hRest⟩

theorem isFlat_of_tokens? {cs : List Char} {ts : List Token} (h : tokens? cs = some ts) :
    ∀ t ∈ ts, t.IsFlat := by
  fun_induction tokens? cs generalizing ts with
  | case1 =>
      cases h
      exact fun _ hMem => nomatch hMem
  | case2 _ ih | case3 _ ih | case4 _ ih | case5 _ ih | case6 _ ih | case7 _ ih =>
      exact isFlat_of_map_cons h trivial ih
  | case9 _ _ _ _ ih => exact isFlat_of_map_cons h trivial ih
  | case10 _ ih | case11 _ ih | case12 _ ih => exact isFlat_of_map_cons h rfl ih
  | case13 =>
      rename_i ih
      exact ih h
  | case15 =>
      rename_i ih
      exact isFlat_of_map_cons h trivial ih
  | case8 | case14 | case16 => cases h

/-! ## The tokens of a text one by one -/

namespace Progress

/-- The parts that are finished keep to the limit. -/
def InLimit : Progress → Prop
  | inside _ stack => StackInLimit stack
  | complete j => Json.InLimit 0 j

theorem inLimit_finish {j : Json} {stack : List Open} (hj : Json.InLimit stack.length j)
    (h : StackInLimit stack) : (finish j stack).InLimit := by
  cases stack with
  | nil => exact hj
  | cons o stack => exact ⟨Open.inLimit_push hj h.1, h.2⟩

theorem inLimit_close {isArray : Bool} {stack : List Open} {p : Progress} (h : StackInLimit stack)
    (hClose : close isArray stack = some p) : p.InLimit := by
  cases stack with
  | nil => cases hClose
  | cons o stack =>
      rw [close] at hClose
      split at hClose
      · cases hClose
        exact inLimit_finish (Open.inLimit_close h.1) h.2
      · cases hClose

theorem inLimit_takeValue {stack : List Open} {t : Token} {p : Progress} (h : StackInLimit stack)
    (ht : t.IsFlat) (hTake : takeValue stack t = some p) : p.InLimit := by
  cases t with
  | openBracket =>
      cases hTake
      have hEmpty : (Open.items []).InLimit stack.length := fun _ hMem => nomatch hMem
      exact ⟨hEmpty, h⟩
  | openBrace =>
      cases hTake
      have hEmpty : (Open.members (some []) none).InLimit stack.length := by
        intro ms hSome
        cases hSome
        exact fun _ hMem => nomatch hMem
      exact ⟨hEmpty, h⟩
  | word j =>
      cases hTake
      exact inLimit_finish (inLimit_of_depth_eq_zero ht) h
  | number n =>
      cases hTake
      refine inLimit_finish (inLimit_of_depth_eq_zero ?_) h
      cases n <;> rfl
  | string s =>
      cases hTake
      refine inLimit_finish (inLimit_of_depth_eq_zero ?_) h
      cases s <;> rfl
  | _ => cases hTake

theorem inLimit_takeKey {stack : List Open} {t : Token} {p : Progress} (h : StackInLimit stack)
    (hTake : takeKey stack t = some p) : p.InLimit := by
  unfold takeKey at hTake
  split at hTake
  · next done _ rest key =>
    cases hTake
    refine ⟨?_, h.2⟩
    intro ms hSome
    cases key with
    | none => cases hSome
    | some key => exact h.1 ms hSome
  · cases hTake

theorem inLimit_takeComma {stack : List Open} {p : Progress} (h : StackInLimit stack)
    (hTake : takeComma stack = some p) : p.InLimit := by
  cases stack with
  | nil => cases hTake
  | cons o stack =>
      cases hTake
      exact h

/-- **Each token keeps the finished parts to the limit.** -/
theorem inLimit_step {p p' : Progress} {t : Token} (h : p.InLimit) (ht : t.IsFlat)
    (hStep : step p t = some p') : p'.InLimit := by
  unfold step at hStep
  split at hStep
  · cases hStep
  · exact inLimit_takeValue h ht hStep
  · exact inLimit_close h hStep
  · exact inLimit_takeValue h ht hStep
  · exact inLimit_takeKey h hStep
  · exact inLimit_close h hStep
  · exact inLimit_takeKey h hStep
  · cases hStep
    exact h
  · cases hStep
  · exact inLimit_takeComma h hStep
  · exact inLimit_close h hStep
  · exact inLimit_close h hStep
  · cases hStep

theorem inLimit_foldlM {ts : List Token} {p p' : Progress} (h : p.InLimit)
    (hFlat : ∀ t ∈ ts, t.IsFlat) (hRun : ts.foldlM step p = some p') : p'.InLimit := by
  induction ts generalizing p with
  | nil =>
      cases hRun
      exact h
  | cons t ts ih =>
      obtain ⟨hHead, hRest⟩ := List.forall_mem_cons.1 hFlat
      rw [List.foldlM_cons] at hRun
      obtain ⟨next, hStep, hRun⟩ := Option.bind_eq_some_iff.1 hRun
      exact ih (inLimit_step h hHead hStep) hRest hRun

end Progress

/-- **An accepted text nests no deeper than the limit.** -/
theorem depth_le_of_read? {s : String} {j : Json} (h : read? s = some j)
    (hValue : j.isReadable = true) : j.depth ≤ depthLimit := by
  obtain ⟨ts, hTokens, h⟩ := Option.bind_eq_some_iff.1 h
  obtain ⟨p, hRun, hResult⟩ := Option.bind_eq_some_iff.1 h
  have hLimit : p.InLimit :=
    Progress.inLimit_foldlM (p := .inside .value []) trivial (isFlat_of_tokens? hTokens) hRun
  cases p with
  | inside next stack => cases hResult
  | complete j' =>
      cases hResult
      have hDepth := hLimit (Nat.zero_le _) hValue
      omega

end PaneEngine.Json
