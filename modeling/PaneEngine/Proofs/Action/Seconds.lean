import Mathlib.Data.List.Induction
import Mathlib.Data.Nat.Digits.Defs
import PaneEngine.Action.Target

/-!
# Times in a video

A time is written as decimal digits with at most an `s` behind them, and has a
value of 32 bits.  Leading zeros are allowed, a sign is not.

## Main definitions

* `decimal` — the number that decimal digits stand for;
* `IsTime` — a text is a time.

## Main results

* `seconds?_eq_some_iff` — the texts that are read as times.
-/

namespace PaneEngine.Action

/-- The number that decimal digits stand for; the last of them counts ones. -/
def decimal (ds : List Char) : Nat :=
  Nat.ofDigits 10 (ds.reverse.map fun c => c.toNat - '0'.toNat)

/-- The text is a time: digits, at most an `s` behind them, and a value of 32 bits. -/
def IsTime (s : String) (t : Nat) : Prop :=
  ∃ ds rest, s.toList = ds ++ rest ∧ ds ≠ [] ∧ (∀ c ∈ ds, c.isDigit = true) ∧
    (rest = [] ∨ rest = ['s']) ∧ decimal ds = t ∧ t < 2 ^ 32

theorem decimal_concat (ds : List Char) (c : Char) :
    decimal (ds ++ [c]) = decimal ds * 10 + (c.toNat - '0'.toNat) := by
  rw [decimal, List.reverse_append, List.reverse_singleton, List.singleton_append, List.map_cons,
    Nat.ofDigits_cons, decimal, Nat.add_comm, Nat.mul_comm]

/-- Digit by digit, the number read so far counts ten times as much. -/
theorem foldl_eq_decimal (ds : List Char) :
    ds.foldl (fun n c => n * 10 + (c.toNat - '0'.toNat)) 0 = decimal ds := by
  induction ds using List.reverseRecOn with
  | nil => rfl
  | append_singleton ds c ih => rw [List.foldl_append, ih, decimal_concat]; rfl

/-- The characters of a text without an `s` at the end. -/
def withoutUnit (cs : List Char) : List Char :=
  if cs.getLast? = some 's' then cs.dropLast else cs

theorem seconds?_eq (s : String) :
    seconds? s =
      if withoutUnit s.toList ≠ [] ∧ (withoutUnit s.toList).all Char.isDigit = true ∧
          decimal (withoutUnit s.toList) < 2 ^ 32 then
        some (decimal (withoutUnit s.toList))
      else none := by
  simp only [seconds?, foldl_eq_decimal]
  rw [← withoutUnit]
  simp [and_assoc]

theorem eq_withoutUnit_append (cs : List Char) :
    cs = withoutUnit cs ∨ cs = withoutUnit cs ++ ['s'] := by
  unfold withoutUnit
  split
  · next hLast =>
    obtain ⟨front, rfl⟩ := List.getLast?_eq_some_iff.1 hLast
    rw [List.dropLast_concat]
    exact .inr rfl
  · exact .inl rfl

/-- Digits do not end with an `s`. -/
theorem withoutUnit_parts {ds rest : List Char}
    (hDigits : ∀ c ∈ ds, c.isDigit = true) (hRest : rest = [] ∨ rest = ['s']) :
    withoutUnit (ds ++ rest) = ds := by
  rcases hRest with rfl | rfl
  · rw [List.append_nil, withoutUnit, if_neg]
    intro hLast
    have hDigit := hDigits 's' (List.mem_of_getLast? hLast)
    cases hDigit
  · rw [withoutUnit, if_pos List.getLast?_concat, List.dropLast_concat]

/-- **The texts that are read as times.** -/
theorem seconds?_eq_some_iff {s : String} {t : Nat} : seconds? s = some t ↔ IsTime s t := by
  rw [seconds?_eq, Option.ite_none_right_eq_some, Option.some.injEq, List.all_eq_true]
  constructor
  · rintro ⟨⟨hSome, hDigits, hSmall⟩, rfl⟩
    rcases eq_withoutUnit_append s.toList with hAll | hUnit
    · exact ⟨_, [], hAll.trans (List.append_nil _).symm, hSome, hDigits, .inl rfl, rfl, hSmall⟩
    · exact ⟨_, ['s'], hUnit, hSome, hDigits, .inr rfl, rfl, hSmall⟩
  · rintro ⟨ds, rest, hText, hSome, hDigits, hRest, rfl, hSmall⟩
    rw [hText, withoutUnit_parts hDigits hRest]
    exact ⟨⟨hSome, hDigits, hSmall⟩, rfl⟩

end PaneEngine.Action
