/-!
# Results and lists of them

When a step that may fail succeeds or fails, and what a list of such steps
answers: its error is the error of the first step that has one.

## Main results

* `bind_eq_ok_iff`, `bind_eq_error_iff`, `mapError_eq_ok_iff` — one step after another;
* `mapM_succeeds_iff`, `mapM_eq_error_iff` — a step for each element of a list;
* `mapM_eq_ok_iff_of_inverse` — a list that is read from what its elements are written as.
-/

namespace PaneEngine

variable {α β ε : Type} {f : α → Except ε β}

theorem bind_eq_ok_iff {x : Except ε α} {b : β} :
    x >>= f = .ok b ↔ ∃ a, x = .ok a ∧ f a = .ok b := by
  cases x with
  | error e => exact ⟨fun h => (nomatch h), fun ⟨_, h, _⟩ => (nomatch h)⟩
  | ok a =>
      constructor
      · intro h
        exact ⟨a, rfl, h⟩
      · rintro ⟨a', h, hOk⟩
        cases h
        exact hOk

theorem bind_eq_error_iff {x : Except ε α} {e : ε} :
    x >>= f = .error e ↔ x = .error e ∨ ∃ a, x = .ok a ∧ f a = .error e := by
  cases x with
  | error e' =>
      constructor
      · intro h
        cases h
        exact .inl rfl
      · rintro (h | ⟨a, h, -⟩)
        · cases h
          rfl
        · cases h
  | ok a =>
      constructor
      · intro h
        exact .inr ⟨a, rfl, h⟩
      · rintro (h | ⟨a', h, hError⟩)
        · cases h
        · cases h
          exact hError

theorem map_eq_error_iff {g : α → β} {x : Except ε α} {e : ε} :
    x.map g = .error e ↔ x = .error e := by
  cases x with
  | error e' =>
      constructor
      · intro h
        cases h
        rfl
      · intro h
        cases h
        rfl
  | ok a => exact ⟨fun h => (nomatch h), fun h => (nomatch h)⟩

theorem map_eq_ok_iff {g : α → β} {x : Except ε α} {b : β} :
    x.map g = .ok b ↔ ∃ a, x = .ok a ∧ g a = b := by
  cases x with
  | error e => exact ⟨fun h => (nomatch h), fun ⟨_, h, _⟩ => (nomatch h)⟩
  | ok a =>
      constructor
      · intro h
        cases h
        exact ⟨a, rfl, rfl⟩
      · rintro ⟨a', h, rfl⟩
        cases h
        rfl

theorem mapError_eq_ok_iff {δ : Type} {g : ε → δ} {x : Except ε α} {a : α} :
    x.mapError g = .ok a ↔ x = .ok a := by
  cases x with
  | error e => exact ⟨fun h => (nomatch h), fun h => (nomatch h)⟩
  | ok b =>
      constructor
      · intro h
        cases h
        rfl
      · intro h
        cases h
        rfl

theorem succeeds_iff_not_error {x : Except ε α} : (∃ a, x = .ok a) ↔ ∀ e, ¬ x = .error e := by
  cases x with
  | error e => exact ⟨fun ⟨_, h⟩ => (nomatch h), fun h => absurd rfl (h e)⟩
  | ok a => exact ⟨fun _ _ h => (nomatch h), fun _ => ⟨a, rfl⟩⟩

/-! ## Lists -/

theorem mapM_succeeds_iff {l : List α} :
    (∃ bs, l.mapM f = .ok bs) ↔ ∀ a ∈ l, ∃ b, f a = .ok b := by
  induction l with
  | nil => exact ⟨fun _ a hMem => absurd hMem List.not_mem_nil, fun _ => ⟨[], rfl⟩⟩
  | cons a l ih =>
      rw [List.forall_mem_cons, ← ih, List.mapM_cons]
      constructor
      · rintro ⟨bs, h⟩
        obtain ⟨b, hHead, h⟩ := bind_eq_ok_iff.1 h
        obtain ⟨bs', hRest, -⟩ := bind_eq_ok_iff.1 h
        exact ⟨⟨b, hHead⟩, bs', hRest⟩
      · rintro ⟨⟨b, hHead⟩, bs, hRest⟩
        exact ⟨b :: bs, bind_eq_ok_iff.2 ⟨b, hHead, bind_eq_ok_iff.2 ⟨bs, hRest, rfl⟩⟩⟩

/-- Where `g` writes what `f` reads, a list is read from what its elements are written as. -/
theorem mapM_eq_ok_iff_of_inverse {g : β → α} (h : ∀ a b, f a = .ok b ↔ a = g b) {l : List α}
    {bs : List β} : l.mapM f = .ok bs ↔ l = bs.map g := by
  induction l generalizing bs with
  | nil => cases bs <;> simp [pure, Except.pure]
  | cons a l ih =>
      rw [List.mapM_cons, bind_eq_ok_iff]
      constructor
      · rintro ⟨b, hHead, hRest⟩
        obtain ⟨bs', hBehind, hPure⟩ := bind_eq_ok_iff.1 hRest
        cases hPure
        rw [(h a b).1 hHead, ih.1 hBehind, List.map_cons]
      · intro hWritten
        cases bs with
        | nil => cases hWritten
        | cons b bs =>
            rw [List.map_cons, List.cons.injEq] at hWritten
            exact ⟨b, (h a b).2 hWritten.1, bind_eq_ok_iff.2 ⟨bs, ih.2 hWritten.2, rfl⟩⟩

/-- The list stops at the first element that has an error. -/
theorem mapM_eq_error_iff {l : List α} {e : ε} :
    l.mapM f = .error e ↔
      ∃ before a after, l = before ++ a :: after ∧ (∀ b ∈ before, ∃ y, f b = .ok y) ∧
        f a = .error e := by
  induction l with
  | nil =>
      constructor
      · intro h
        cases h
      · rintro ⟨before, a, after, h, -, -⟩
        exact absurd h.symm (List.append_ne_nil_of_right_ne_nil _ (List.cons_ne_nil _ _))
  | cons a l ih =>
      rw [List.mapM_cons, bind_eq_error_iff]
      constructor
      · rintro (hHead | ⟨b, hHead, h⟩)
        · exact ⟨[], a, l, rfl, fun b hMem => absurd hMem List.not_mem_nil, hHead⟩
        · rcases bind_eq_error_iff.1 h with hRest | ⟨bs, -, h⟩
          · obtain ⟨before, a', after, rfl, hBefore, hError⟩ := ih.1 hRest
            exact ⟨a :: before, a', after, rfl,
              List.forall_mem_cons.2 ⟨⟨b, hHead⟩, hBefore⟩, hError⟩
          · cases h
      · rintro ⟨before, a', after, hSplit, hBefore, hError⟩
        cases before with
        | nil =>
            cases hSplit
            exact .inl hError
        | cons a'' before =>
            cases hSplit
            obtain ⟨⟨b, hHead⟩, hBefore⟩ := List.forall_mem_cons.1 hBefore
            have hRest := ih.2 ⟨before, a', after, rfl, hBefore, hError⟩
            exact .inr ⟨b, hHead, bind_eq_error_iff.2 (.inl hRest)⟩

end PaneEngine
