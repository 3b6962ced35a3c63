import Mathlib.Data.List.Basic
import PaneEngine.Text.Blank

/-!
# Trimming and collapsing blanks

Trimming leaves the part of a text between its first and its last character
that is no blank.  This part is characterised by what surrounds it, so that a
text can be trimmed by showing where its blanks are.

Collapsing goes through a text with a state, whether the last character was a
blank.  A character that is no blank resets the state, so a text can be cut
before any such character and collapsed part by part.

## Main definitions

* `IsTrimmed` — a text has no blank at either end;
* `stateBehind` — the state in which collapsing is behind a text.

## Main results

* `trimChars_parts` — trimming leaves the part that has blanks around it and none at its ends;
* `isTrimmed_intercalate` — trimmed texts with separators between them are trimmed;
* `collapseChars_append_stateBehind` — collapsing part by part;
* `trimChars_collapseChars` — trimming and collapsing commute.
-/

namespace PaneEngine.Text

/-- A text has no blank at either end. -/
def IsTrimmed (cs : List Char) : Prop :=
  (∀ c ∈ cs.head?, isBlank c = false) ∧ ∀ c ∈ cs.getLast?, isBlank c = false

instance (cs : List Char) : Decidable (IsTrimmed cs) :=
  decidable_of_iff (cs.head?.any isBlank = false ∧ cs.getLast?.any isBlank = false) (by
    simp only [IsTrimmed, Option.any_eq_false, Option.mem_def])

/-! ## Trimming -/

theorem dropWhile_blanks {before rest : List Char} (hBefore : ∀ c ∈ before, isBlank c = true)
    (hRest : ∀ c ∈ rest.head?, isBlank c = false) :
    (before ++ rest).dropWhile isBlank = rest := by
  rw [List.dropWhile_append_of_pos hBefore]
  cases rest with
  | nil => rfl
  | cons c rest => rw [List.dropWhile_cons_of_neg (by simp [hRest c rfl])]

/-- Trimming leaves the part that has blanks around it and none at its ends. -/
theorem trimChars_parts {before inner after : List Char}
    (hBefore : ∀ c ∈ before, isBlank c = true) (hInner : IsTrimmed inner)
    (hAfter : ∀ c ∈ after, isBlank c = true) : trimChars (before ++ inner ++ after) = inner := by
  have hReversed : ∀ c ∈ after.reverse, isBlank c = true := by
    intro c hMem
    exact hAfter c (List.mem_reverse.1 hMem)
  unfold trimChars
  cases inner with
  | nil =>
      have hAll : ∀ c ∈ before ++ after, isBlank c = true := by
        intro c hMem
        exact (List.mem_append.1 hMem).elim (hBefore c) (hAfter c)
      have hNone : (before ++ after ++ []).dropWhile isBlank = [] :=
        dropWhile_blanks hAll (by simp)
      rw [List.append_nil] at hNone ⊢
      rw [hNone]
      rfl
  | cons d inner =>
      have hLast : ∀ c ∈ (d :: inner).reverse.head?, isBlank c = false := by
        rw [List.head?_reverse]
        exact hInner.2
      have hFirst : ∀ c ∈ (d :: inner ++ after).head?, isBlank c = false := hInner.1
      rw [List.append_assoc, dropWhile_blanks hBefore hFirst, List.reverse_append,
        dropWhile_blanks hReversed hLast, List.reverse_reverse]

theorem trimChars_of_isTrimmed {cs : List Char} (h : IsTrimmed cs) : trimChars cs = cs := by
  have hParts : trimChars ([] ++ cs ++ []) = cs := trimChars_parts (by simp) h (by simp)
  simpa using hParts

/-- What is trimmed off are blanks, and what is left has none at its ends. -/
theorem exists_parts (cs : List Char) :
    ∃ before after, cs = before ++ trimChars cs ++ after ∧ IsTrimmed (trimChars cs) ∧
      (∀ c ∈ before, isBlank c = true) ∧ ∀ c ∈ after, isBlank c = true := by
  let rest := cs.dropWhile isBlank
  have hTrim : trimChars cs = (rest.reverse.dropWhile isBlank).reverse := rfl
  have hRest : rest = trimChars cs ++ (rest.reverse.takeWhile isBlank).reverse := by
    rw [hTrim, ← List.reverse_append, List.takeWhile_append_dropWhile, List.reverse_reverse]
  have hFirst : ∀ c ∈ rest.head?, isBlank c = false := by
    intro c hMem
    have hNot := List.head?_dropWhile_not isBlank cs
    rw [Option.mem_def.1 hMem] at hNot
    simpa using hNot
  have hLast : ∀ c ∈ (trimChars cs).getLast?, isBlank c = false := by
    intro c hMem
    have hNot := List.head?_dropWhile_not isBlank rest.reverse
    rw [hTrim, List.getLast?_reverse] at hMem
    rw [Option.mem_def.1 hMem] at hNot
    simpa using hNot
  refine ⟨cs.takeWhile isBlank, (rest.reverse.takeWhile isBlank).reverse, ?_, ⟨?_, hLast⟩, ?_, ?_⟩
  · rw [List.append_assoc, ← hRest, List.takeWhile_append_dropWhile]
  · intro c hMem
    refine hFirst c ?_
    rw [hRest]
    exact List.mem_head?_append_of_mem_head? hMem
  · intro c hMem
    exact List.all_eq_true.1 List.all_takeWhile c hMem
  · intro c hMem
    exact List.all_eq_true.1 List.all_takeWhile c (List.mem_reverse.1 hMem)

theorem isTrimmed_trimChars (cs : List Char) : IsTrimmed (trimChars cs) := by
  obtain ⟨_, _, _, hTrimmed, _⟩ := exists_parts cs
  exact hTrimmed

theorem mem_of_mem_trimChars {c : Char} {cs : List Char} (h : c ∈ trimChars cs) : c ∈ cs := by
  obtain ⟨before, after, hParts, _⟩ := exists_parts cs
  rw [hParts]
  exact List.mem_append_left after (List.mem_append_right before h)

theorem isTrimmed_append_cons {xs ys : List Char} {d : Char} (hd : isBlank d = false)
    (hxs : IsTrimmed xs) (hys : IsTrimmed ys) : IsTrimmed (xs ++ d :: ys) := by
  constructor
  · cases xs with
    | nil => simpa using hd
    | cons c xs => simpa using hxs.1
  · rw [List.getLast?_append_cons]
    cases hLast : ys.getLast? with
    | none =>
        have hNil : ys = [] := List.getLast?_eq_none_iff.1 hLast
        simpa [hNil] using hd
    | some c =>
        have hBlank := hys.2 c hLast
        simpa [List.getLast?_cons, hLast] using hBlank

/-- Trimmed texts with separators between them are trimmed. -/
theorem isTrimmed_intercalate {d : Char} (hd : isBlank d = false) {parts : List (List Char)}
    (h : ∀ part ∈ parts, IsTrimmed part) : IsTrimmed ([d].intercalate parts) := by
  induction parts with
  | nil => exact ⟨by simp, by simp⟩
  | cons part parts ih =>
      obtain ⟨hPart, hParts⟩ := List.forall_mem_cons.1 h
      cases parts with
      | nil => simpa using hPart
      | cons next parts =>
          rw [List.intercalate_cons_cons, List.append_assoc]
          exact isTrimmed_append_cons hd hPart (ih hParts)

/-! ## Collapsing -/

theorem isBlank_space : isBlank ' ' = true := by decide

/-- Whether there has just been a blank, behind a text that was begun in state `after`. -/
def stateBehind (after : Bool) (cs : List Char) : Bool := cs.getLast?.elim after isBlank

theorem stateBehind_cons (after : Bool) (c : Char) (cs : List Char) :
    stateBehind after (c :: cs) = stateBehind (isBlank c) cs := by
  rw [stateBehind, List.getLast?_cons, stateBehind]
  cases cs.getLast? <;> rfl

/-- A text is collapsed part by part, each with the state behind the one before. -/
theorem collapseChars_append_stateBehind (after : Bool) (xs ys : List Char) :
    collapseChars after (xs ++ ys) =
      collapseChars after xs ++ collapseChars (stateBehind after xs) ys := by
  induction xs generalizing after with
  | nil => rfl
  | cons c xs ih =>
      rw [List.cons_append, stateBehind_cons]
      by_cases hc : isBlank c = true
      · cases after <;> simp [collapseChars, hc, ih]
      · simp [collapseChars, hc, ih]

/-- A character that is no blank resets the state. -/
theorem collapseChars_append_cons {d : Char} (hd : isBlank d = false) (after : Bool)
    (xs ys : List Char) :
    collapseChars after (xs ++ d :: ys) =
      collapseChars after xs ++ d :: collapseChars false ys := by
  rw [collapseChars_append_stateBehind, collapseChars, if_neg (by simp [hd])]

/-- A text without blanks is collapsed to itself, and what follows it from the start. -/
theorem collapseChars_append_of_solid {w : List Char} (hw : ∀ c ∈ w, isBlank c = false)
    (rest : List Char) : collapseChars false (w ++ rest) = w ++ collapseChars false rest := by
  induction w with
  | nil => rfl
  | cons c w ih =>
      obtain ⟨hc, hRest⟩ := List.forall_mem_cons.1 hw
      rw [List.cons_append, collapseChars, if_neg (by simp [hc]), ih hRest, List.cons_append]

/-- Only a text that begins with a text without blanks is collapsed to one that does. -/
theorem exists_of_collapseChars_eq {w : List Char} (hw : ∀ c ∈ w, isBlank c = false)
    {cs rest : List Char} (h : collapseChars false cs = w ++ rest) :
    ∃ rest', cs = w ++ rest' ∧ rest = collapseChars false rest' := by
  induction w generalizing cs with
  | nil => exact ⟨cs, rfl, h.symm⟩
  | cons c w ih =>
      obtain ⟨hc, hRest⟩ := List.forall_mem_cons.1 hw
      cases cs with
      | nil => cases h
      | cons d cs =>
          rw [collapseChars] at h
          by_cases hd : isBlank d = true
          · rw [if_pos hd, if_neg Bool.false_ne_true, List.cons_append] at h
            have hSpace := isBlank_space
            rw [(List.cons.inj h).1, hc] at hSpace
            cases hSpace
          · rw [if_neg hd, List.cons_append] at h
            obtain ⟨hHead, hTail⟩ := List.cons.inj h
            obtain ⟨rest', hSplit, hEnd⟩ := ih hRest hTail
            exact ⟨rest', by rw [hHead, hSplit, List.cons_append], hEnd⟩

theorem mem_collapseChars {d : Char} (hd : isBlank d = false) (after : Bool) {cs : List Char} :
    d ∈ collapseChars after cs ↔ d ∈ cs := by
  have hSpace : d ≠ ' ' := by
    rintro rfl
    rw [isBlank_space] at hd
    cases hd
  induction cs generalizing after with
  | nil => rfl
  | cons c cs ih =>
      rw [collapseChars, List.mem_cons]
      by_cases hc : isBlank c = true
      · have hNe : d ≠ c := by
          rintro rfl
          rw [hd] at hc
          cases hc
        rw [if_pos hc]
        split
        · simp only [ih, hNe, false_or]
        · simp only [List.mem_cons, ih, hSpace, hNe, false_or]
      · simp only [if_neg hc, List.mem_cons, ih]

theorem not_mem_collapseChars {d : Char} (hd : isBlank d = false) {cs : List Char} (h : d ∉ cs) :
    d ∉ collapseChars false cs :=
  mt (mem_collapseChars hd false).1 h

theorem isBlank_of_mem_collapseChars {after : Bool} {cs : List Char}
    (h : ∀ c ∈ cs, isBlank c = true) : ∀ c ∈ collapseChars after cs, isBlank c = true := by
  intro c hMem
  by_contra hc
  have hSolid : isBlank c = false := by simpa using hc
  exact hc (h c ((mem_collapseChars hSolid after).1 hMem))

/-- Behind a character that is no blank a text is collapsed from the start. -/
theorem collapseChars_append {xs : List Char} (h : ∀ c ∈ xs.getLast?, isBlank c = false)
    (ys : List Char) :
    collapseChars false (xs ++ ys) = collapseChars false xs ++ collapseChars false ys := by
  have hState : stateBehind false xs = false := by
    rw [stateBehind]
    cases hLast : xs.getLast? with
    | none => rfl
    | some c => exact h c hLast
  rw [collapseChars_append_stateBehind, hState]

theorem isTrimmed_collapseChars {cs : List Char} (h : IsTrimmed cs) :
    IsTrimmed (collapseChars false cs) := by
  constructor
  · cases cs with
    | nil => simp [collapseChars]
    | cons c cs =>
        have hc : isBlank c = false := h.1 c rfl
        simp [collapseChars, hc]
  · rcases List.eq_nil_or_concat cs with rfl | ⟨xs, d, rfl⟩
    · simp [collapseChars]
    · have hd : isBlank d = false := h.2 d (by simp)
      rw [List.concat_eq_append, collapseChars_append_cons hd]
      simpa [collapseChars] using hd

/-- **Trimming and collapsing commute.** -/
theorem trimChars_collapseChars (cs : List Char) :
    trimChars (collapseChars false cs) = collapseChars false (trimChars cs) := by
  obtain ⟨before, after, hParts, hTrimmed, hBefore, hAfter⟩ := exists_parts cs
  generalize trimChars cs = inner at hParts hTrimmed ⊢
  rw [hParts]
  cases inner with
  | nil =>
      -- A text of blanks is collapsed to blanks.
      have hAll : ∀ c ∈ before ++ [] ++ after, isBlank c = true := by
        intro c hMem
        rw [List.append_nil] at hMem
        exact (List.mem_append.1 hMem).elim (hBefore c) (hAfter c)
      have hNone : trimChars (collapseChars false (before ++ [] ++ after) ++ [] ++ []) = [] :=
        trimChars_parts (isBlank_of_mem_collapseChars hAll) hTrimmed (by simp)
      simpa [collapseChars] using hNone
  | cons c inner =>
      have hc : isBlank c = false := hTrimmed.1 c rfl
      have hHead : collapseChars false (c :: inner) = c :: collapseChars false inner := by
        rw [collapseChars, if_neg (by simp [hc])]
      have hLast : ∀ d ∈ (before ++ c :: inner).getLast?, isBlank d = false := by
        rw [List.getLast?_append_of_ne_nil _ (List.cons_ne_nil c inner)]
        exact hTrimmed.2
      rw [collapseChars_append hLast, collapseChars_append_cons hc, ← hHead]
      exact trimChars_parts (isBlank_of_mem_collapseChars hBefore)
        (isTrimmed_collapseChars hTrimmed) (isBlank_of_mem_collapseChars hAfter)

end PaneEngine.Text
