import Mathlib.Algebra.Order.Field.Power
import Mathlib.Data.Rat.Cast.Order
import Mathlib.Order.Monotone.Basic
import Mathlib.Tactic.FieldSimp
import Mathlib.Tactic.Linarith
import Mathlib.Tactic.Positivity
import Mathlib.Tactic.Ring
import PaneEngine.Decimal.Shortest

/-!
# The intervals of the doubles

Counted by their magnitudes, the intervals of the decimals that read back lie end
to end: the upper end of one is the lower end of the next, also where the binade
changes and the lower half of an interval is only half as wide.  An end that two
intervals share belongs to the one with the even magnitude alone.  So a decimal
belongs to one interval at most.

## Main definitions

* `Interval.Holds` — a decimal that belongs to the interval.

## Main results

* `Interval.lowEnd_succ` — the intervals lie end to end;
* `Interval.eq_of_holds` — the intervals are disjoint.
-/

namespace PaneEngine.Decimal

namespace Interval

/-- The lower end. -/
def lowEnd (i : Interval) : ℚ := i.low / i.den

/-- The number that is written. -/
def middle (i : Interval) : ℚ := i.mid / i.den

/-- The upper end. -/
def highEnd (i : Interval) : ℚ := i.high / i.den

/-- The number lies in the interval. -/
def Holds (i : Interval) (x : ℚ) : Prop :=
  if i.closed then i.lowEnd ≤ x ∧ x ≤ i.highEnd else i.lowEnd < x ∧ x < i.highEnd

theorem Holds.bounds {i : Interval} {x : ℚ} (h : i.Holds x) : i.lowEnd ≤ x ∧ x ≤ i.highEnd := by
  unfold Holds at h
  split at h
  · exact h
  · exact ⟨h.1.le, h.2.le⟩

/-- An end of an interval lies in it only if the interval is closed. -/
theorem Holds.closed_of_eq {i : Interval} {x : ℚ} (h : i.Holds x)
    (hEnd : x = i.lowEnd ∨ x = i.highEnd) : i.closed = true := by
  unfold Holds at h
  split at h
  · assumption
  · rcases hEnd with rfl | rfl
    · exact absurd h.1 (lt_irrefl _)
    · exact absurd h.2 (lt_irrefl _)

theorem holds_of_lt {i : Interval} {x : ℚ} (hLow : i.lowEnd < x) (hHigh : x < i.highEnd) :
    i.Holds x := by
  unfold Holds
  split
  · exact ⟨hLow.le, hHigh.le⟩
  · exact ⟨hLow, hHigh⟩

open Binary64 (mantissaOf exponentOf)

/-! ## The ends -/

/-- The distance of neighbouring numbers. -/
def gap (magnitude : Nat) : ℚ := 2 ^ exponentOf magnitude

theorem gap_pos (magnitude : Nat) : 0 < gap magnitude := by
  unfold gap
  positivity

/-- The parts of an interval count quarters of the distance of neighbouring numbers. -/
theorem div_den_ofMagnitude (magnitude n : Nat) :
    ((n * (if 0 ≤ exponentOf magnitude then Nat.pow 2 (exponentOf magnitude).toNat else 1) : Nat) :
      ℚ) / (ofMagnitude magnitude).den = n * (gap magnitude / 4) := by
  have hDen : (ofMagnitude magnitude).den = if 0 ≤ exponentOf magnitude then 4
      else 4 * Nat.pow 2 (-exponentOf magnitude).toNat := rfl
  rw [hDen]
  unfold gap
  generalize exponentOf magnitude = q
  by_cases hq : 0 ≤ q
  · obtain ⟨k, rfl⟩ := Int.eq_ofNat_of_zero_le hq
    simp only [if_pos hq, Int.toNat_natCast, zpow_natCast, Nat.pow_eq]
    push_cast
    ring
  · obtain ⟨k, hk⟩ := Int.eq_ofNat_of_zero_le (show 0 ≤ -q by omega)
    obtain rfl : q = -(k : Int) := by omega
    simp only [if_neg hq, neg_neg, Int.toNat_natCast, zpow_neg, zpow_natCast, Nat.pow_eq]
    push_cast
    field_simp

theorem middle_ofMagnitude (magnitude : Nat) :
    (ofMagnitude magnitude).middle = mantissaOf magnitude * gap magnitude := by
  refine (div_den_ofMagnitude magnitude (4 * mantissaOf magnitude)).trans ?_
  push_cast
  ring

theorem highEnd_ofMagnitude (magnitude : Nat) :
    (ofMagnitude magnitude).highEnd = (4 * mantissaOf magnitude + 2 : Nat) * (gap magnitude / 4) :=
  div_den_ofMagnitude magnitude (4 * mantissaOf magnitude + 2)

/-- The part of the distance below the number that belongs to its interval, in quarters. -/
def below (magnitude : Nat) : Nat :=
  if mantissaOf magnitude = 2 ^ 52 ∧ exponentOf magnitude ≠ -1074 then 1 else 2

theorem lowEnd_ofMagnitude (magnitude : Nat) :
    (ofMagnitude magnitude).lowEnd =
      (4 * mantissaOf magnitude - below magnitude : Nat) * (gap magnitude / 4) := by
  refine (div_den_ofMagnitude magnitude _).trans ?_
  unfold below
  simp only [Bool.and_eq_true, decide_eq_true_eq, Nat.pow_eq]

theorem closed_ofMagnitude (magnitude : Nat) :
    (ofMagnitude magnitude).closed = true ↔ mantissaOf magnitude % 2 = 0 :=
  decide_eq_true_iff

/-! ## The next magnitude -/

theorem mantissaOf_eq (magnitude : Nat) :
    mantissaOf magnitude =
      if magnitude / 2 ^ 52 = 0 then magnitude else 2 ^ 52 + magnitude % 2 ^ 52 := rfl

theorem exponentOf_eq (magnitude : Nat) :
    exponentOf magnitude = (max (magnitude / 2 ^ 52) 1 : Nat) - 1075 := rfl

theorem mantissaOf_mod_two (magnitude : Nat) : mantissaOf magnitude % 2 = magnitude % 2 := by
  rw [mantissaOf_eq]
  split <;> omega

/-- The next number is a unit further on, or it is the first one of the next binade. -/
theorem succ_cases (magnitude : Nat) :
    (mantissaOf (magnitude + 1) = mantissaOf magnitude + 1 ∧
      exponentOf (magnitude + 1) = exponentOf magnitude ∧ below (magnitude + 1) = 2) ∨
    (mantissaOf magnitude = 2 ^ 53 - 1 ∧ mantissaOf (magnitude + 1) = 2 ^ 52 ∧
      exponentOf (magnitude + 1) = exponentOf magnitude + 1 ∧ below (magnitude + 1) = 1) := by
  by_cases hCarry : magnitude % 2 ^ 52 + 1 = 2 ^ 52 ∧ magnitude / 2 ^ 52 ≠ 0
  · obtain ⟨hLast, hNormal⟩ := hCarry
    have hFirst : mantissaOf (magnitude + 1) = 2 ^ 52 := by
      rw [mantissaOf_eq, if_neg (by omega)]
      omega
    have hExponent : exponentOf (magnitude + 1) = exponentOf magnitude + 1 := by
      rw [exponentOf_eq, exponentOf_eq]
      omega
    have hBinade : exponentOf (magnitude + 1) ≠ -1074 := by
      rw [exponentOf_eq]
      omega
    refine .inr ⟨?_, hFirst, hExponent, if_pos ⟨hFirst, hBinade⟩⟩
    rw [mantissaOf_eq, if_neg hNormal]
    omega
  · have hMantissa : mantissaOf (magnitude + 1) = mantissaOf magnitude + 1 := by
      rw [mantissaOf_eq, mantissaOf_eq]
      split <;> split <;> omega
    have hExponent : exponentOf (magnitude + 1) = exponentOf magnitude := by
      rw [exponentOf_eq, exponentOf_eq]
      omega
    refine .inl ⟨hMantissa, hExponent, if_neg ?_⟩
    rw [mantissaOf_eq, exponentOf_eq]
    split <;> omega

/-- **The intervals lie end to end.** -/
theorem lowEnd_succ (magnitude : Nat) :
    (ofMagnitude (magnitude + 1)).lowEnd = (ofMagnitude magnitude).highEnd := by
  rw [lowEnd_ofMagnitude, highEnd_ofMagnitude]
  unfold gap
  rcases succ_cases magnitude with
    ⟨hMantissa, hExponent, hBelow⟩ | ⟨hLast, hFirst, hExponent, hBelow⟩
  · rw [hMantissa, hExponent, hBelow]
    rfl
  · rw [hLast, hFirst, hExponent, hBelow, zpow_add_one₀ (by norm_num)]
    push_cast
    ring

theorem lowEnd_lt_highEnd (magnitude : Nat) :
    (ofMagnitude magnitude).lowEnd < (ofMagnitude magnitude).highEnd := by
  rw [lowEnd_ofMagnitude, highEnd_ofMagnitude]
  have hQuarter : 0 < gap magnitude / 4 := by
    have := gap_pos magnitude
    positivity
  refine mul_lt_mul_of_pos_right ?_ hQuarter
  have hEnds : 4 * mantissaOf magnitude - below magnitude < 4 * mantissaOf magnitude + 2 := by omega
  exact_mod_cast hEnds

theorem strictMono_lowEnd : StrictMono fun magnitude => (ofMagnitude magnitude).lowEnd := by
  refine strictMono_nat_of_lt_succ ?_
  intro magnitude
  show _ < (ofMagnitude (magnitude + 1)).lowEnd
  rw [lowEnd_succ]
  exact lowEnd_lt_highEnd magnitude

/-- What lies in two intervals is the end they share, and that belongs to one of them alone. -/
theorem not_lt_of_holds {a b : Nat} {x : ℚ} (ha : (ofMagnitude a).Holds x)
    (hb : (ofMagnitude b).Holds x) : ¬ a < b := by
  intro hLt
  have hHigh : x ≤ (ofMagnitude (a + 1)).lowEnd := by
    rw [lowEnd_succ]
    exact ha.bounds.2
  have hOrder : (ofMagnitude (a + 1)).lowEnd ≤ (ofMagnitude b).lowEnd :=
    strictMono_lowEnd.monotone (Nat.succ_le_of_lt hLt)
  have hLow : (ofMagnitude b).lowEnd ≤ x := hb.bounds.1
  have hNext : a + 1 = b :=
    strictMono_lowEnd.injective (le_antisymm hOrder (hLow.trans hHigh))
  have hEven := (closed_ofMagnitude b).1 (hb.closed_of_eq
    (.inl (le_antisymm (hHigh.trans hOrder) hLow)))
  have hEven' := (closed_ofMagnitude a).1 (ha.closed_of_eq
    (.inr (by rw [← lowEnd_succ]; exact le_antisymm hHigh (hOrder.trans hLow))))
  rw [mantissaOf_mod_two] at hEven hEven'
  omega

/-- **A decimal belongs to one interval at most.** -/
theorem eq_of_holds {a b : Nat} {x : ℚ} (ha : (ofMagnitude a).Holds x)
    (hb : (ofMagnitude b).Holds x) : a = b :=
  le_antisymm (not_lt.1 (not_lt_of_holds hb ha)) (not_lt.1 (not_lt_of_holds ha hb))

end Interval

end PaneEngine.Decimal
