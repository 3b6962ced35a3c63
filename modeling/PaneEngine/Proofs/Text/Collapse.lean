import Mathlib.Data.List.Chain
import Mathlib.Data.List.Induction
import PaneEngine.Proofs.Text.Blank

/-!
# Collapsed texts

Two texts that differ only in how their blanks look have the same runs of other
characters, and they agree in whether there are blanks at the front and at the
end.  Collapsing a text keeps exactly this much of it: the collapsed text is the
runs with one space between them, and one at either end where the text has
blanks there.  So collapsed texts are a normal form.

A text is read as blanks and runs, each run as long as it can be, and the proofs
about runs go by induction on this reading.  Those about the spaces in the result
go character by character, with the state that collapsing itself keeps.

## Main definitions

* `runs` — the maximal runs of characters that are no blanks;
* `startsBlank`, `endsBlank` — blanks at the front and at the end;
* `IsCollapsed` — the only blanks are single spaces.

## Main results

* `collapseChars_eq_spaced` — a collapsed text is made of the runs and the blanks at the ends;
* `collapseChars_eq_self_iff` — the texts that are collapsed to themselves;
* `collapseChars_append_eq` — a text is collapsed part by part, with the state behind the first;
* `collapse_canonical` — collapsing gives a normal form.
-/

namespace PaneEngine.Text

/-- The maximal runs of characters that are no blanks, in order. -/
def runs (cs : List Char) : List (List Char) :=
  (cs.splitOnP isBlank).filter fun run => !run.isEmpty

/-- Whether the first character is a blank. -/
def startsBlank (cs : List Char) : Bool := cs.head?.any isBlank

/-- Whether the last character is a blank. -/
def endsBlank (cs : List Char) : Bool := cs.getLast?.any isBlank

/-- The only blanks are spaces, and no two of them stand side by side. -/
structure IsCollapsed (cs : List Char) : Prop where
  spaces : ∀ c ∈ cs, isBlank c = true → c = ' '
  single : cs.IsChain fun c d => ¬ (c = ' ' ∧ d = ' ')

/-- Runs with one space between them, one before them and one behind them where asked for.  Without
runs the blanks at the front are those at the end. -/
def spaced (front back : Bool) (rs : List (List Char)) : List Char :=
  (if front then [' '] else []) ++
    ([' '].intercalate rs ++ if rs ≠ [] ∧ back = true then [' '] else [])

/-! ## Runs -/

/-- A blank belongs to no run and ends the one before it. -/
theorem runs_append_blank {c : Char} (hc : isBlank c = true) (xs ys : List Char) :
    runs (xs ++ c :: ys) = runs xs ++ runs ys := by
  rw [runs, List.splitOnP_append_cons xs ys hc, List.filter_append]
  rfl

theorem runs_blank {c : Char} (hc : isBlank c = true) (cs : List Char) :
    runs (c :: cs) = runs cs :=
  runs_append_blank hc [] cs

/-- Characters that are no blanks are a single run. -/
theorem runs_of_solid {w : List Char} (hSome : w ≠ []) (hw : ∀ c ∈ w, isBlank c = false) :
    runs w = [w] := by
  rw [runs, List.splitOnP_eq_singleton hw]
  simpa using hSome

/-- A run that cannot be longer is the first one. -/
theorem runs_append_of_solid {w rest : List Char} (hSome : w ≠ [])
    (hw : ∀ c ∈ w, isBlank c = false) (hEnd : ∀ c ∈ rest.head?, isBlank c = true) :
    runs (w ++ rest) = w :: runs rest := by
  cases rest with
  | nil => rw [List.append_nil, runs_of_solid hSome hw]; rfl
  | cons c rest =>
      have hc : isBlank c = true := hEnd c rfl
      rw [runs_append_blank hc, runs_of_solid hSome hw, runs_blank hc, List.singleton_append]

/-- A text is empty or begins with a blank or with a run that ends there. -/
theorem run_induction {motive : List Char → Prop}
    (nil : motive [])
    (blank : ∀ c rest, isBlank c = true → motive rest → motive (c :: rest))
    (run : ∀ w rest, w ≠ [] → (∀ c ∈ w, isBlank c = false) →
      (∀ c ∈ rest.head?, isBlank c = true) → motive rest → motive (w ++ rest)) :
    ∀ cs : List Char, motive cs
  | [] => nil
  | c :: cs => by
      by_cases hc : isBlank c = true
      · exact blank c cs hc (run_induction nil blank run cs)
      · let solid : Char → Bool := fun d => !isBlank d
        have hText : (c :: cs.takeWhile solid) ++ cs.dropWhile solid = c :: cs := by
          rw [List.cons_append, List.takeWhile_append_dropWhile]
        have hRun : ∀ d ∈ c :: cs.takeWhile solid, isBlank d = false := by
          refine List.forall_mem_cons.2 ⟨by simpa using hc, ?_⟩
          intro d hMem
          simpa [solid] using List.all_eq_true.1 List.all_takeWhile d hMem
        have hEnd : ∀ d ∈ (cs.dropWhile solid).head?, isBlank d = true := by
          intro d hMem
          have hNot := List.head?_dropWhile_not solid cs
          rw [Option.mem_def.1 hMem] at hNot
          simpa [solid] using hNot
        have hShorter : (cs.dropWhile solid).length < (c :: cs).length :=
          Nat.lt_succ_of_le (List.dropWhile_sublist solid).length_le
        rw [← hText]
        exact run _ _ (List.cons_ne_nil _ _) hRun hEnd
          (run_induction nil blank run (cs.dropWhile solid))
termination_by cs => cs.length
decreasing_by
  · exact Nat.lt_succ_self _
  · exact hShorter

/-- A text without runs has nothing but blanks. -/
theorem isBlank_of_runs_eq_nil {cs : List Char} (h : runs cs = []) :
    ∀ c ∈ cs, isBlank c = true := by
  induction cs using run_induction with
  | nil => simp
  | blank c rest hc ih =>
      rw [runs_blank hc] at h
      exact List.forall_mem_cons.2 ⟨hc, ih h⟩
  | run w rest hSome hw hEnd ih =>
      rw [runs_append_of_solid hSome hw hEnd] at h
      cases h

/-! ## The state of collapsing -/

/-- A run stays as it is, in whatever state it is met. -/
theorem collapseChars_run {w : List Char} (hSome : w ≠ []) (hw : ∀ c ∈ w, isBlank c = false)
    (after : Bool) (rest : List Char) :
    collapseChars after (w ++ rest) = w ++ collapseChars false rest := by
  cases w with
  | nil => exact absurd rfl hSome
  | cons c w =>
      obtain ⟨hc, hRest⟩ := List.forall_mem_cons.1 hw
      rw [List.cons_append, collapseChars, if_neg (by simp [hc]),
        collapseChars_append_of_solid hRest, List.cons_append]

/-- Blanks at the front leave one space. -/
theorem collapseChars_front (cs : List Char) :
    collapseChars false cs = (if startsBlank cs then [' '] else []) ++ collapseChars true cs := by
  cases cs with
  | nil => rfl
  | cons c cs =>
      by_cases hc : isBlank c = true
      · simp [collapseChars, startsBlank, hc]
      · simp [collapseChars, startsBlank, hc]

theorem collapseChars_collapseChars {inner outer : Bool} (h : inner = true → outer = true)
    (cs : List Char) : collapseChars outer (collapseChars inner cs) = collapseChars outer cs := by
  induction cs generalizing inner outer with
  | nil => rfl
  | cons c cs ih =>
      have hTrue : collapseChars true (collapseChars true cs) = collapseChars true cs := ih id
      by_cases hc : isBlank c = true
      · cases inner with
        | true => simp [collapseChars, hc, h rfl, hTrue]
        | false => simp [collapseChars, hc, isBlank_space, hTrue]
      · simp [collapseChars, hc, ih]

theorem stateBehind_false (cs : List Char) : stateBehind false cs = endsBlank cs := by
  rw [stateBehind, endsBlank]
  cases cs.getLast? <;> rfl

/-- A text is collapsed part by part, with the state behind the first part. -/
theorem collapseChars_append_eq (xs ys : List Char) :
    collapseChars false (xs ++ ys) =
      collapseChars false xs ++ collapseChars (endsBlank xs) ys := by
  rw [collapseChars_append_stateBehind, stateBehind_false]

/-! ## What collapsing keeps -/

theorem startsBlank_collapseChars (cs : List Char) :
    startsBlank (collapseChars false cs) = startsBlank cs := by
  cases cs with
  | nil => rfl
  | cons c cs =>
      by_cases hc : isBlank c = true
      · simp [collapseChars, startsBlank, hc, isBlank_space]
      · simp [collapseChars, startsBlank, hc]

theorem endsBlank_collapseChars (cs : List Char) :
    endsBlank (collapseChars false cs) = endsBlank cs := by
  induction cs using List.reverseRecOn with
  | nil => rfl
  | append_singleton cs c ih =>
      have hLast : endsBlank (cs ++ [c]) = isBlank c := by simp [endsBlank]
      rw [collapseChars_append_eq, hLast]
      by_cases hc : isBlank c = true
      · cases hEnds : endsBlank cs with
        | true => simp [collapseChars, hc, ih, hEnds]
        | false => simp [collapseChars, hc, endsBlank, isBlank_space]
      · simp [collapseChars, hc, endsBlank]

theorem runs_collapseChars (after : Bool) (cs : List Char) :
    runs (collapseChars after cs) = runs cs := by
  induction cs using run_induction generalizing after with
  | nil => rfl
  | blank c rest hc ih =>
      rw [collapseChars, if_pos hc, runs_blank hc]
      split
      · exact ih true
      · rw [runs_blank isBlank_space, ih true]
  | run w rest hSome hw hEnd ih =>
      have hEnd' : ∀ c ∈ (collapseChars false rest).head?, isBlank c = true := by
        cases rest with
        | nil => simp [collapseChars]
        | cons c rest => simp [collapseChars, hEnd c rfl, isBlank_space]
      rw [collapseChars_run hSome hw, runs_append_of_solid hSome hw hEnd', ih false,
        runs_append_of_solid hSome hw hEnd]

/-- Without the space at its front, a collapsed text is the runs with spaces between them, and one
more where the text ends with blanks. -/
theorem collapseChars_true_eq (cs : List Char) :
    collapseChars true cs = [' '].intercalate (runs cs) ++
      if runs cs ≠ [] ∧ endsBlank cs = true then [' '] else [] := by
  induction cs using run_induction with
  | nil => rfl
  | blank c rest hc ih =>
      rw [collapseChars, if_pos hc, if_pos rfl, ih, runs_blank hc]
      cases rest with
      | nil => rfl
      | cons d rest =>
          have hEnds : endsBlank (c :: d :: rest) = endsBlank (d :: rest) := by simp [endsBlank]
          rw [hEnds]
  | run w rest hSome hw hEnd ih =>
      rw [collapseChars_run hSome hw, runs_append_of_solid hSome hw hEnd]
      cases rest with
      | nil =>
          have hLast : endsBlank w = false := by
            rw [endsBlank, Option.any_eq_false]
            exact fun c hMem => by simp [hw c (List.mem_of_getLast? hMem)]
          simp [runs, collapseChars, hLast]
      | cons c rest =>
          have hc : startsBlank (c :: rest) = true := hEnd c rfl
          have hEnds : endsBlank (w ++ c :: rest) = endsBlank (c :: rest) := by
            rw [endsBlank, List.getLast?_append_of_ne_nil _ (List.cons_ne_nil c rest), endsBlank]
          rw [collapseChars_front, if_pos hc, ih, hEnds]
          cases hRuns : runs (c :: rest) with
          | nil =>
              have hAll := isBlank_of_runs_eq_nil hRuns
              have hLast : endsBlank (c :: rest) = true := by
                rw [endsBlank, List.getLast?_eq_getLast_of_ne_nil (List.cons_ne_nil c rest)]
                exact hAll _ (List.getLast_mem _)
              simp [hLast]
          | cons v vs => simp [List.intercalate_cons_cons]

/-- A collapsed text is made of the runs and of whether there are blanks at the ends. -/
theorem collapseChars_eq_spaced (cs : List Char) :
    collapseChars false cs = spaced (startsBlank cs) (endsBlank cs) (runs cs) := by
  rw [collapseChars_front, collapseChars_true_eq, spaced]

/-! ## Collapsed texts -/

/-- No two spaces side by side are written, and none behind a blank. -/
theorem isCollapsed_collapseChars (after : Bool) (cs : List Char) :
    IsCollapsed (collapseChars after cs) ∧
      (after = true → ∀ c ∈ (collapseChars after cs).head?, c ≠ ' ') := by
  induction cs generalizing after with
  | nil => exact ⟨⟨by simp [collapseChars], List.isChain_nil⟩, by simp [collapseChars]⟩
  | cons c cs ih =>
      rw [collapseChars]
      by_cases hc : isBlank c = true
      · obtain ⟨hRest, hHead⟩ := ih true
        rw [if_pos hc]
        cases after with
        | true => exact ⟨hRest, hHead⟩
        | false =>
            refine ⟨⟨?_, ?_⟩, by simp⟩
            · exact List.forall_mem_cons.2 ⟨fun _ => rfl, hRest.spaces⟩
            · exact List.isChain_cons.2 ⟨fun d hMem h => hHead rfl d hMem h.2, hRest.single⟩
      · obtain ⟨hRest, -⟩ := ih false
        have hSpace : c ≠ ' ' := by
          rintro rfl
          exact hc isBlank_space
        rw [if_neg hc]
        refine ⟨⟨?_, ?_⟩, ?_⟩
        · exact List.forall_mem_cons.2 ⟨fun h => absurd h hc, hRest.spaces⟩
        · exact List.isChain_cons.2 ⟨fun d _ h => hSpace h.1, hRest.single⟩
        · intro _ d hMem
          cases Option.some.inj hMem
          exact hSpace

theorem collapseChars_eq_self {cs : List Char} (h : IsCollapsed cs) {after : Bool}
    (hAfter : after = true → ∀ c ∈ cs.head?, c ≠ ' ') : collapseChars after cs = cs := by
  induction cs generalizing after with
  | nil => rfl
  | cons c cs ih =>
      obtain ⟨hSpace, hSpaces⟩ := List.forall_mem_cons.1 h.spaces
      obtain ⟨hNext, hSingle⟩ := List.isChain_cons.1 h.single
      rw [collapseChars]
      by_cases hc : isBlank c = true
      · have hNot : ¬ after = true := fun hTrue => hAfter hTrue c rfl (hSpace hc)
        rw [if_pos hc, if_neg hNot,
          ih ⟨hSpaces, hSingle⟩ fun _ d hMem hd => hNext d hMem ⟨hSpace hc, hd⟩, hSpace hc]
      · rw [if_neg hc, ih ⟨hSpaces, hSingle⟩ fun hFalse => by cases hFalse]

/-- **The texts that are collapsed to themselves.** -/
theorem collapseChars_eq_self_iff (cs : List Char) :
    collapseChars false cs = cs ↔ IsCollapsed cs := by
  constructor
  · intro hSelf
    rw [← hSelf]
    exact (isCollapsed_collapseChars false cs).1
  · intro h
    exact collapseChars_eq_self h fun hFalse => by cases hFalse

/-- In a collapsed text a blank is a space. -/
theorem any_isBlank_iff {cs : List Char} (h : IsCollapsed cs) {c? : Option Char}
    (hMem : ∀ c ∈ c?, c ∈ cs) : c? = some ' ' ↔ c?.any isBlank = true := by
  cases c? with
  | none => simp
  | some c =>
      constructor
      · intro hSpace
        rw [hSpace]
        exact isBlank_space
      · intro hc
        rw [h.spaces c (hMem c rfl) hc]

/-- **Collapsing gives a normal form.**  The collapsed text has no blanks but single spaces, never
two side by side; it has the runs of the text in the same order, and it starts and ends with a space
exactly if the text starts and ends with a blank.  Two texts are collapsed to the same text exactly
if they agree in their runs and in having blanks at the front and at the end.  The texts that are
collapsed to themselves are those whose only blanks are single spaces, so collapsing twice is
collapsing once; and wherever a text is cut, its parts may be collapsed before the whole. -/
theorem collapse_canonical :
    (∀ s, IsCollapsed (collapse s).toList ∧ runs (collapse s).toList = runs s.toList ∧
      ((collapse s).toList.head? = some ' ' ↔ startsBlank s.toList = true) ∧
      ((collapse s).toList.getLast? = some ' ' ↔ endsBlank s.toList = true)) ∧
    (∀ s t, collapse s = collapse t ↔ runs s.toList = runs t.toList ∧
      startsBlank s.toList = startsBlank t.toList ∧ endsBlank s.toList = endsBlank t.toList) ∧
    (∀ s, collapse s = s ↔ IsCollapsed s.toList) ∧
    (∀ s, collapse (collapse s) = collapse s) ∧
    ∀ s t, collapse (s ++ t) = collapse (collapse s ++ collapse t) := by
  have hChars : ∀ s, (collapse s).toList = collapseChars false s.toList := by
    intro s
    rw [collapse, String.toList_ofList]
  refine ⟨?_, ?_, ?_, ?_, ?_⟩
  · intro s
    have hCollapsed := (isCollapsed_collapseChars false s.toList).1
    rw [hChars]
    refine ⟨hCollapsed, runs_collapseChars false s.toList, ?_, ?_⟩
    · rw [any_isBlank_iff hCollapsed fun c hMem => List.mem_of_head? hMem]
      rw [← startsBlank_collapseChars, startsBlank]
    · rw [any_isBlank_iff hCollapsed fun c hMem => List.mem_of_getLast? hMem]
      rw [← endsBlank_collapseChars, endsBlank]
  · intro s t
    rw [← String.toList_inj, hChars, hChars]
    constructor
    · intro hEq
      rw [← runs_collapseChars false s.toList, ← startsBlank_collapseChars s.toList,
        ← endsBlank_collapseChars s.toList, hEq, runs_collapseChars, startsBlank_collapseChars,
        endsBlank_collapseChars]
      exact ⟨rfl, rfl, rfl⟩
    · rintro ⟨hRuns, hStarts, hEnds⟩
      rw [collapseChars_eq_spaced, collapseChars_eq_spaced, hRuns, hStarts, hEnds]
  · intro s
    rw [← String.toList_inj, hChars, collapseChars_eq_self_iff]
  · intro s
    rw [← String.toList_inj, hChars, hChars, collapseChars_collapseChars id]
  · intro s t
    rw [← String.toList_inj, hChars, hChars, String.toList_append, String.toList_append, hChars,
      hChars, collapseChars_append_eq, collapseChars_append_eq, endsBlank_collapseChars,
      collapseChars_collapseChars id, collapseChars_collapseChars fun hFalse => by cases hFalse]

example : collapse " a\t\n\u00a0b \n" = " a b " := by decide

end PaneEngine.Text
