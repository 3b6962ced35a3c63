import Mathlib.Data.List.Basic
import PaneEngine.Hook.Basic

/-!
# Where directives open

A directive opens where the name of a hook stands with a parenthesis behind it.
No name holds a parenthesis, so the first one behind a place is the end of the
name there: at a place at most one name opens, and no name opens by being the
end of another text that does.

A scan passes over every place where nothing opens.  All that is proved of it
rests on two facts: a prefix without openings can be skipped, and what an
opening leads to is decided by the text behind it.

## Main definitions

* `opened` — a name with a parenthesis and the text behind it;
* `HasOpening` — a directive opens somewhere in a text;
* `Quiet` — no directive opens in a prefix;
* `answer` — what the text behind an opening gives.

## Main results

* `opening?_eq_some_iff` — how the start of a text is read;
* `opened_inj` — at a place one name opens at most;
* `scan_skip`, `scan_opened` — a scan passes a quiet prefix and answers at the opening;
* `exists_first` — a text with an opening has a first one;
* `scan_eq_none_iff` — a scan finds nothing exactly in a text without openings.
-/

namespace PaneEngine.Hook

/-! ## Names -/

namespace Name

theorem mem_all (n : Name) : n ∈ all := by
  cases n <;> decide

theorem opening_not_mem (n : Name) : '(' ∉ n.text.toList := by
  cases n <;> decide

theorem closing_not_mem (n : Name) : ')' ∉ n.text.toList := by
  cases n <;> decide

theorem any_isLower_head? (n : Name) : n.text.toList.head?.any Char.isLower = true := by
  cases n <;> decide

theorem text_ne_nil (n : Name) : n.text.toList ≠ [] := by
  cases n <;> decide

theorem text_injective {n n' : Name} (h : n.text.toList = n'.text.toList) : n = n' := by
  revert h
  cases n <;> cases n' <;> decide

/-- No name ends in another. -/
theorem eq_of_suffix {n n' : Name} (h : n.text.toList <:+ n'.text.toList) : n = n' := by
  revert h
  cases n <;> cases n' <;> decide

end Name

/-! ## Openings -/

/-- The name of a hook, an opening parenthesis and the text behind it. -/
def opened (n : Name) (after : List Char) : List Char := n.text.toList ++ '(' :: after

/-- Somewhere in a text a directive opens. -/
def HasOpening (cs : List Char) : Prop := ∃ before n after, cs = before ++ opened n after

/-- No directive of the whole text opens in its first part. -/
def Quiet (before rest : List Char) : Prop :=
  ∀ first n after, before ++ rest = first ++ opened n after → before.length ≤ first.length

/-- What a directive gives with that text behind its opening parenthesis. -/
def answer (n : Name) (after : List Char) : Except Unterminated (Option Hook) :=
  if ')' ∈ after then .ok (some ⟨n, paramsOf (after.takeWhile (· ≠ ')'))⟩) else .error ⟨n⟩

/-- What stands before the first occurrence of a character. -/
theorem takeWhile_ne {c : Char} {cs : List Char} (h : c ∉ cs) (rest : List Char) :
    (cs ++ c :: rest).takeWhile (· ≠ c) = cs := by
  have hAll : ∀ a ∈ cs, decide (a ≠ c) = true := by
    intro a hMem
    refine decide_eq_true ?_
    rintro rfl
    exact h hMem
  rw [List.takeWhile_append_of_pos hAll]
  simp

theorem answer_closed (n : Name) {inner : List Char} (h : ')' ∉ inner) (behind : List Char) :
    answer n (inner ++ ')' :: behind) = .ok (some ⟨n, paramsOf inner⟩) := by
  rw [answer, if_pos (List.mem_append_right _ List.mem_cons_self), takeWhile_ne h]

theorem answer_unclosed (n : Name) {after : List Char} (h : ')' ∉ after) :
    answer n after = .error ⟨n⟩ :=
  if_neg h

/-- At a place one name opens at most. -/
theorem opened_inj {n n' : Name} {after after' : List Char}
    (h : opened n after = opened n' after') : n = n' ∧ after = after' := by
  have hText : n.text.toList = n'.text.toList := by
    rw [← takeWhile_ne n.opening_not_mem after, ← opened, h, opened,
      takeWhile_ne n'.opening_not_mem]
  have hName : n = n' := Name.text_injective hText
  subst hName
  exact ⟨rfl, List.tail_eq_of_cons_eq (List.append_cancel_left h)⟩

theorem closing_mem_opened {n : Name} {after : List Char} :
    ')' ∈ opened n after ↔ ')' ∈ after := by
  simp [opened, n.closing_not_mem]

theorem opened_ne_nil (n : Name) (after : List Char) : opened n after ≠ [] := by
  simp [opened]

/-- An opening begins with a small letter. -/
theorem isLower_of_opened {n : Name} {after cs : List Char} {c : Char}
    (h : c :: cs = opened n after) : c.isLower = true := by
  have hHead := congrArg List.head? h
  rw [opened, List.head?_append_of_ne_nil _ n.text_ne_nil] at hHead
  have hLower := n.any_isLower_head?
  rw [← hHead] at hLower
  exact hLower

theorem opened_eq_append (n : Name) (after : List Char) :
    opened n after = (n.text.toList ++ ['(']) ++ after := by
  rw [opened, List.append_assoc]
  rfl

/-- A name opens where its text and a parenthesis are a prefix. -/
theorem isPrefixOf_iff {n : Name} {cs : List Char} :
    (n.text.toList ++ ['(']).isPrefixOf cs = true ↔ ∃ after, cs = opened n after := by
  rw [List.isPrefixOf_iff_prefix]
  constructor
  · rintro ⟨after, rfl⟩
    exact ⟨after, (opened_eq_append n after).symm⟩
  · rintro ⟨after, rfl⟩
    exact ⟨after, (opened_eq_append n after).symm⟩

theorem opened_of_opening? {cs : List Char} {n : Name} {after : List Char}
    (h : opening? cs = some (n, after)) : cs = opened n after := by
  obtain ⟨m, _, hHere⟩ := List.exists_of_findSome?_eq_some h
  obtain ⟨hPrefix, hRead⟩ := Option.ite_none_right_eq_some.1 hHere
  obtain ⟨after', rfl⟩ := isPrefixOf_iff.1 hPrefix
  rw [opened_eq_append, List.drop_left, Option.some.injEq, Prod.mk.injEq] at hRead
  rw [hRead.1, hRead.2]

/-- What is read at the start of a text is what opens there. -/
theorem opening?_eq_some_iff {cs : List Char} {n : Name} {after : List Char} :
    opening? cs = some (n, after) ↔ cs = opened n after := by
  constructor
  · exact opened_of_opening?
  · rintro rfl
    cases hRead : opening? (opened n after) with
    | none =>
        have hHere := List.findSome?_eq_none_iff.1 hRead n n.mem_all
        rw [if_pos (isPrefixOf_iff.2 ⟨after, rfl⟩)] at hHere
        cases hHere
    | some e =>
        obtain ⟨hName, hAfter⟩ := opened_inj (opened_of_opening? hRead)
        rw [hName, hAfter]

theorem opening?_eq_none_iff {cs : List Char} :
    opening? cs = none ↔ ∀ n after, cs ≠ opened n after := by
  rw [Option.eq_none_iff_forall_ne_some]
  constructor
  · intro h n after hOpened
    exact h (n, after) (opening?_eq_some_iff.2 hOpened)
  · rintro h ⟨n, after⟩ hRead
    exact h n after (opening?_eq_some_iff.1 hRead)

/-! ## Scanning -/

theorem Quiet.tail {c : Char} {before rest : List Char} (h : Quiet (c :: before) rest) :
    Quiet before rest := by
  intro first n after hSplit
  have hLength := h (c :: first) n after (by rw [List.cons_append, List.cons_append, hSplit])
  simpa using hLength

theorem Quiet.opening?_eq_none {c : Char} {before rest : List Char} (h : Quiet (c :: before) rest) :
    opening? (c :: before ++ rest) = none := by
  refine opening?_eq_none_iff.2 ?_
  intro n after hOpened
  have hLength := h [] n after hOpened
  simp at hLength

/-- A scan passes a prefix in which nothing opens. -/
theorem scan_skip {before rest : List Char} (h : Quiet before rest) :
    scan (before ++ rest) = scan rest := by
  induction before with
  | nil => rfl
  | cons c before ih =>
      have hNone := h.opening?_eq_none
      rw [List.cons_append] at hNone ⊢
      rw [scan, hNone]
      exact ih h.tail

/-- A scan answers where a directive opens. -/
theorem scan_opened (n : Name) (after : List Char) : scan (opened n after) = answer n after := by
  have hRead := opening?_eq_some_iff.2 (rfl : opened n after = opened n after)
  cases hText : opened n after with
  | nil => exact absurd hText (opened_ne_nil n after)
  | cons c rest =>
      rw [hText] at hRead
      simp only [scan, hRead, answer, List.contains_iff_mem]

/-- A text in which a directive opens has a first place where one does. -/
theorem exists_first {cs : List Char} (h : HasOpening cs) :
    ∃ before n after, cs = before ++ opened n after ∧ Quiet before (opened n after) := by
  obtain ⟨before, n, after, rfl⟩ := h
  induction before with
  | nil => exact ⟨[], n, after, rfl, fun _ _ _ _ => Nat.zero_le _⟩
  | cons c before ih =>
      by_cases hHere : ∃ m after', c :: before ++ opened n after = opened m after'
      · obtain ⟨m, after', hOpened⟩ := hHere
        exact ⟨[], m, after', hOpened, fun _ _ _ _ => Nat.zero_le _⟩
      · obtain ⟨first, m, after', hSplit, hQuiet⟩ := ih
        refine ⟨c :: first, m, after', by rw [List.cons_append, hSplit, List.cons_append], ?_⟩
        intro first' m' after'' hSplit'
        cases first' with
        | nil =>
            rw [List.cons_append, ← hSplit, ← List.cons_append] at hSplit'
            exact absurd ⟨m', after'', hSplit'⟩ hHere
        | cons c' first' =>
            rw [List.cons_append, List.cons_append] at hSplit'
            have hLength := hQuiet first' m' after'' (List.cons.inj hSplit').2
            simpa using hLength

/-- A scan finds nothing exactly in a text in which nothing opens. -/
theorem scan_eq_none_iff {cs : List Char} : scan cs = .ok none ↔ ¬ HasOpening cs := by
  constructor
  · intro hScan hOpening
    obtain ⟨before, n, after, rfl, hQuiet⟩ := exists_first hOpening
    rw [scan_skip hQuiet, scan_opened, answer] at hScan
    split at hScan <;> cases hScan
  · intro hNone
    have hQuiet : Quiet cs [] := by
      intro first n after hSplit
      exact absurd ⟨first, n, after, by rw [← hSplit, List.append_nil]⟩ hNone
    have hSkip := scan_skip hQuiet
    rw [List.append_nil] at hSkip
    exact hSkip

end PaneEngine.Hook
