import Mathlib.Data.Nat.Cast.Order.Field
import PaneEngine.Proofs.Decimal.Interval

/-!
# Shortest decimals read back

The two points of a decimal grid around a number are tried, so a grid has a point
in the interval as soon as its step is not wider than the part of the interval
below the number.  Twenty-one grids from a power of ten above the number on reach
that fine a step: the power is estimated from the count of bits with `30103 /
100000` for the logarithm of two, which is close enough over the whole range of
the exponents.

## Main results

* `Interval.gridPoint?_spec`, `Interval.gridPoint?_ne_none` — what is found on a grid, and when;
* `Interval.decade_le` — the estimate of the power of ten;
* `shortest_spec` — the decimal that is written belongs to the interval of its number.
-/

namespace PaneEngine.Decimal

/-! ## Grids -/

/-- The denominator is scaled the same for all parts of an interval. -/
theorem atScale_snd (a b den : Nat) (scale : Int) :
    (atScale a den scale).2 = (atScale b den scale).2 := by
  unfold atScale
  split <;> rfl

theorem atScale_snd_pos (num : Nat) {den : Nat} (h : 0 < den) (scale : Int) :
    0 < (atScale num den scale).2 := by
  unfold atScale
  split
  · exact h
  · exact Nat.mul_pos h (Nat.pow_pos (by decide))

theorem atScale_div (num den : Nat) (scale : Int) :
    ((atScale num den scale).1 : ℚ) / (atScale num den scale).2 = num / den * 10 ^ scale := by
  unfold atScale
  by_cases hScale : 0 ≤ scale
  · obtain ⟨k, rfl⟩ := Int.eq_ofNat_of_zero_le hScale
    simp only [if_pos hScale, Int.toNat_natCast, zpow_natCast, Nat.pow_eq]
    push_cast
    ring
  · obtain ⟨k, hk⟩ := Int.eq_ofNat_of_zero_le (show 0 ≤ -scale by omega)
    obtain rfl : scale = -(k : Int) := by omega
    simp only [if_neg hScale, neg_neg, Int.toNat_natCast, zpow_neg, zpow_natCast, Nat.pow_eq]
    push_cast
    field_simp

namespace Interval

/-- The interval in units of the step of a grid. -/
def scaled (i : Interval) (scale : Int) : Interval :=
  ⟨(atScale i.low i.den scale).1, (atScale i.mid i.den scale).1, (atScale i.high i.den scale).1,
    (atScale i.low i.den scale).2, i.closed⟩

/-- The point of a grid at or below the number. -/
def floorAt (i : Interval) (scale : Int) : Nat := (i.scaled scale).mid / (i.scaled scale).den

theorem gridPoint?_eq (i : Interval) (scale : Int) :
    i.gridPoint? scale =
      let j := i.scaled scale
      let floor := i.floorAt scale
      let downIn := 0 < floor && j.contains (floor * j.den)
      let upIn := j.contains ((floor + 1) * j.den)
      let rest := j.mid % j.den
      if downIn && upIn then
        if 2 * rest < j.den then some floor
        else if j.den < 2 * rest then some (floor + 1)
        else some (floor + floor % 2)
      else if downIn then some floor
      else if upIn then some (floor + 1)
      else none := rfl

theorem scaled_ends (i : Interval) (scale : Int) :
    (i.scaled scale).lowEnd = i.lowEnd * 10 ^ scale ∧
      (i.scaled scale).middle = i.middle * 10 ^ scale ∧
      (i.scaled scale).highEnd = i.highEnd * 10 ^ scale := by
  unfold lowEnd middle highEnd
  refine ⟨atScale_div i.low i.den scale, ?_, ?_⟩
  · rw [← atScale_div]
    show ((atScale i.mid i.den scale).1 : ℚ) / (atScale i.low i.den scale).2 = _
    rw [atScale_snd i.low i.mid]
  · rw [← atScale_div]
    show ((atScale i.high i.den scale).1 : ℚ) / (atScale i.low i.den scale).2 = _
    rw [atScale_snd i.low i.high]

theorem contains_iff_holds {j : Interval} (h : 0 < j.den) (n : Nat) :
    j.contains (n * j.den) = true ↔ j.Holds n := by
  have hDen : (0 : ℚ) < j.den := by exact_mod_cast h
  unfold contains Holds lowEnd highEnd
  split
  · rw [Bool.and_eq_true, decide_eq_true_eq, decide_eq_true_eq, div_le_iff₀ hDen, le_div_iff₀ hDen]
    exact_mod_cast Iff.rfl
  · rw [Bool.and_eq_true, decide_eq_true_eq, decide_eq_true_eq, div_lt_iff₀ hDen, lt_div_iff₀ hDen]
    exact_mod_cast Iff.rfl

theorem holds_scaled_iff (i : Interval) (scale : Int) (x : ℚ) :
    (i.scaled scale).Holds x ↔ i.Holds (x * 10 ^ (-scale)) := by
  obtain ⟨hLow, -, hHigh⟩ := scaled_ends i scale
  have hStep : (0 : ℚ) < 10 ^ scale := by positivity
  unfold Holds
  rw [hLow, hHigh, zpow_neg, ← div_eq_mul_inv, le_div_iff₀ hStep, div_le_iff₀ hStep,
    lt_div_iff₀ hStep, div_lt_iff₀ hStep]
  rfl

/-- What is found on a grid is positive and lies in the interval. -/
theorem gridPoint?_spec {i : Interval} (hDen : 0 < i.den) {scale : Int} {n : Nat}
    (h : i.gridPoint? scale = some n) : 0 < n ∧ i.Holds (n * 10 ^ (-scale)) := by
  have hPoint : ∀ k, (i.scaled scale).contains (k * (i.scaled scale).den) = true →
      i.Holds (k * 10 ^ (-scale)) := fun k hContains =>
    (holds_scaled_iff i scale k).1
      ((contains_iff_holds (atScale_snd_pos i.low hDen scale) k).1 hContains)
  have hDown : (0 < i.floorAt scale && (i.scaled scale).contains
      (i.floorAt scale * (i.scaled scale).den)) = true →
      0 < i.floorAt scale ∧ i.Holds (i.floorAt scale * 10 ^ (-scale)) := by
    intro hIn
    rw [Bool.and_eq_true, decide_eq_true_eq] at hIn
    exact ⟨hIn.1, hPoint _ hIn.2⟩
  have hUp : (i.scaled scale).contains ((i.floorAt scale + 1) * (i.scaled scale).den) = true →
      0 < i.floorAt scale + 1 ∧ i.Holds ((i.floorAt scale + 1 : Nat) * 10 ^ (-scale)) :=
    fun hIn => ⟨Nat.succ_pos _, hPoint _ hIn⟩
  rw [gridPoint?_eq] at h
  simp only at h
  split at h
  · next hBoth =>
    rw [Bool.and_eq_true] at hBoth
    split at h
    · cases h
      exact hDown hBoth.1
    · split at h
      · cases h
        exact hUp hBoth.2
      · cases h
        -- an exact tie goes to the even one of the two
        rcases Nat.mod_two_eq_zero_or_one (i.floorAt scale) with hEven | hOdd
        · rw [hEven]
          exact hDown hBoth.1
        · rw [hOdd]
          exact hUp hBoth.2
  · split at h
    · next hIn =>
      cases h
      exact hDown hIn
    · split at h
      · next hIn =>
        cases h
        exact hUp hIn
      · cases h

/-- A grid has a point in the interval if its step fits below the number. -/
theorem gridPoint?_ne_none {i : Interval} (hDen : 0 < i.den) {scale : Int}
    (hHigh : i.middle < i.highEnd) (hStep : (10 : ℚ) ^ (-scale) ≤ i.middle - i.lowEnd) :
    i.gridPoint? scale ≠ none := by
  have hPositive : 0 < (i.scaled scale).den := atScale_snd_pos i.low hDen scale
  have hUnit : (0 : ℚ) < 10 ^ scale := by positivity
  obtain ⟨hLowEnd, hMiddle, hHighEnd⟩ := scaled_ends i scale
  have hLow : (i.scaled scale).lowEnd + 1 ≤ (i.scaled scale).middle := by
    rw [zpow_neg, inv_le_iff_one_le_mul₀ hUnit] at hStep
    rw [hLowEnd, hMiddle]
    linarith
  have hHigh' : (i.scaled scale).middle < (i.scaled scale).highEnd := by
    rw [hMiddle, hHighEnd]
    exact mul_lt_mul_of_pos_right hHigh hUnit
  have hNonneg : (0 : ℚ) ≤ (i.scaled scale).lowEnd := by
    unfold lowEnd
    positivity
  -- the point at or below the number is less than a step away
  have hFloor : (i.floorAt scale : ℚ) ≤ (i.scaled scale).middle := Nat.cast_div_le
  have hNear : (i.scaled scale).middle < i.floorAt scale + 1 := by
    have hDenPositive : (0 : ℚ) < (i.scaled scale).den := by exact_mod_cast hPositive
    unfold middle floorAt
    rw [div_lt_iff₀ hDenPositive]
    rw [mul_comm]
    exact_mod_cast Nat.lt_mul_div_succ (i.scaled scale).mid hPositive
  have hFloorPositive : 0 < i.floorAt scale := by
    have : (0 : ℚ) < i.floorAt scale := by linarith
    exact_mod_cast this
  have hContains : (i.scaled scale).contains (i.floorAt scale * (i.scaled scale).den) = true :=
    (contains_iff_holds hPositive _).2 (holds_of_lt (by linarith) (by linarith))
  have hDown : (0 < i.floorAt scale && (i.scaled scale).contains
      (i.floorAt scale * (i.scaled scale).den)) = true := by
    rw [hContains, decide_eq_true hFloorPositive]
    rfl
  rw [gridPoint?_eq]
  simp only [hDown, Bool.true_and, if_true]
  split
  · split
    · exact Option.some_ne_none _
    · split <;> exact Option.some_ne_none _
  · exact Option.some_ne_none _

/-- The first grid with a point is found if it is among those that are tried. -/
theorem firstGrid_spec (i : Interval) {fuel : Nat} {scale : Int}
    (h : ∃ k < fuel, i.gridPoint? (scale + k) ≠ none) :
    i.gridPoint? (i.firstGrid fuel scale).2 = some (i.firstGrid fuel scale).1 := by
  induction fuel generalizing scale with
  | zero =>
      obtain ⟨k, hLt, -⟩ := h
      exact absurd hLt (Nat.not_lt_zero k)
  | succ fuel ih =>
      cases hPoint : i.gridPoint? scale with
      | some n =>
          simp only [firstGrid, hPoint]
      | none =>
          obtain ⟨k, hLt, hFound⟩ := h
          simp only [firstGrid, hPoint]
          refine ih ?_
          cases k with
          | zero =>
              rw [Nat.cast_zero, add_zero] at hFound
              exact absurd hPoint hFound
          | succ k =>
              refine ⟨k, Nat.lt_of_succ_lt_succ hLt, ?_⟩
              rwa [show scale + 1 + (k : Int) = scale + (k + 1 : Nat) by push_cast; ring]

end Interval

/-! ## Powers of ten and of two -/

theorem ten_pow_le (n : Nat) : 10 ^ n ≤ 2 ^ ((10 * n + 2) / 3) := by
  induction n using Nat.strongRecOn with
  | ind n ih =>
      by_cases hSmall : n < 3
      · have hBase : ∀ n < 3, 10 ^ n ≤ 2 ^ ((10 * n + 2) / 3) := by decide
        exact hBase n hSmall
      · obtain ⟨m, rfl⟩ := Nat.exists_eq_add_of_le (Nat.le_of_not_lt hSmall)
        have hRest := ih m (by omega)
        calc 10 ^ (3 + m) = 1000 * 10 ^ m := by rw [Nat.pow_add]
          _ ≤ 2 ^ 10 * 2 ^ ((10 * m + 2) / 3) := Nat.mul_le_mul (by decide) hRest
          _ = 2 ^ ((10 * (3 + m) + 2) / 3) := by
            rw [← Nat.pow_add]
            congr 1
            omega

theorem two_pow_le (n : Nat) : 2 ^ (93 * n / 28) ≤ 10 ^ n := by
  induction n using Nat.strongRecOn with
  | ind n ih =>
      by_cases hSmall : n < 28
      · have hBase : ∀ n < 28, 2 ^ (93 * n / 28) ≤ 10 ^ n := by decide
        exact hBase n hSmall
      · obtain ⟨m, rfl⟩ := Nat.exists_eq_add_of_le (Nat.le_of_not_lt hSmall)
        have hRest := ih m (by omega)
        calc 2 ^ (93 * (28 + m) / 28) = 2 ^ 93 * 2 ^ (93 * m / 28) := by
              rw [← Nat.pow_add]
              congr 1
              omega
          _ ≤ 10 ^ 28 * 10 ^ m := Nat.mul_le_mul (by decide) hRest
          _ = 10 ^ (28 + m) := by rw [Nat.pow_add]

/-- `10 / 3` is above the logarithm of ten and `93 / 28` is below it. -/
theorem ten_zpow_le {t s : Int} (hUp : 10 * t ≤ 3 * s) (hDown : 93 * t ≤ 28 * s) :
    (10 : ℚ) ^ t ≤ 2 ^ s := by
  rcases Int.le_total 0 t with hNonneg | hNeg
  · obtain ⟨n, rfl⟩ := Int.eq_ofNat_of_zero_le hNonneg
    calc (10 : ℚ) ^ (n : Int) = (10 ^ n : Nat) := by push_cast; rfl
      _ ≤ (2 ^ ((10 * n + 2) / 3) : Nat) := by exact_mod_cast ten_pow_le n
      _ = 2 ^ (((10 * n + 2) / 3 : Nat) : Int) := by push_cast; rfl
      _ ≤ 2 ^ s := zpow_le_zpow_right₀ (by norm_num) (by omega)
  · obtain ⟨n, hn⟩ := Int.eq_ofNat_of_zero_le (show 0 ≤ -t by omega)
    obtain rfl : t = -(n : Int) := by omega
    have hPow : ((2 ^ (93 * n / 28) : Nat) : ℚ) ≤ (10 ^ n : Nat) := by exact_mod_cast two_pow_le n
    calc (10 : ℚ) ^ (-(n : Int)) = ((10 ^ n : Nat) : ℚ)⁻¹ := by
          rw [zpow_neg, zpow_natCast]
          push_cast
          rfl
      _ ≤ ((2 ^ (93 * n / 28) : Nat) : ℚ)⁻¹ := inv_anti₀ (by positivity) hPow
      _ = 2 ^ (-((93 * n / 28 : Nat) : Int)) := by
          rw [zpow_neg, zpow_natCast]
          push_cast
          rfl
      _ ≤ 2 ^ s := zpow_le_zpow_right₀ (by norm_num) (by omega)

/-! ## The decimal that is written -/

namespace Interval

open Binary64 (mantissaOf exponentOf)

theorem den_pos (magnitude : Nat) : 0 < (ofMagnitude magnitude).den := by
  show 0 < if 0 ≤ exponentOf magnitude then 4 else 4 * Nat.pow 2 (-exponentOf magnitude).toNat
  split
  · decide
  · exact Nat.mul_pos (by decide) (Nat.pow_pos (by decide))

theorem mantissaOf_lt (magnitude : Nat) : mantissaOf magnitude < 2 ^ 53 := by
  rw [mantissaOf_eq]
  split <;> omega

theorem mantissaOf_pos {magnitude : Nat} (h : 0 < magnitude) : 0 < mantissaOf magnitude := by
  rw [mantissaOf_eq]
  split <;> omega

/-- The logarithm of the number is not more than that of the last one of its binade. -/
theorem log2_sub_log2_le {magnitude : Nat} (h : 0 < magnitude) :
    (Nat.log2 (ofMagnitude magnitude).mid : Int) - Nat.log2 (ofMagnitude magnitude).den ≤
      exponentOf magnitude + 52 := by
  have hMantissa := mantissaOf_lt magnitude
  have hPositive := mantissaOf_pos h
  show (Nat.log2 (4 * mantissaOf magnitude *
      if 0 ≤ exponentOf magnitude then Nat.pow 2 (exponentOf magnitude).toNat else 1) : Int) -
    Nat.log2 (if 0 ≤ exponentOf magnitude then 4
      else 4 * Nat.pow 2 (-exponentOf magnitude).toNat) ≤ _
  generalize exponentOf magnitude = q
  generalize mantissaOf magnitude = m at *
  by_cases hq : 0 ≤ q
  · obtain ⟨k, rfl⟩ := Int.eq_ofNat_of_zero_le hq
    simp only [if_pos hq, Int.toNat_natCast, Nat.pow_eq]
    have hMid : Nat.log2 (4 * m * 2 ^ k) < 55 + k := by
      refine (Nat.log2_lt (by positivity)).2 ?_
      calc 4 * m * 2 ^ k < 2 ^ 55 * 2 ^ k := Nat.mul_lt_mul_of_pos_right (by omega) (by positivity)
        _ = 2 ^ (55 + k) := (Nat.pow_add 2 55 k).symm
    have hDen : Nat.log2 4 = 2 := by decide
    omega
  · obtain ⟨k, hk⟩ := Int.eq_ofNat_of_zero_le (show 0 ≤ -q by omega)
    obtain rfl : q = -(k : Int) := by omega
    simp only [if_neg hq, neg_neg, Int.toNat_natCast, Nat.pow_eq, mul_one]
    have hMid : Nat.log2 (4 * m) < 55 := (Nat.log2_lt (by omega)).2 (by omega)
    have hDen : Nat.log2 (4 * 2 ^ k) = k + 2 := by
      rw [show 4 * 2 ^ k = 2 ^ (k + 2) by rw [Nat.pow_add, Nat.mul_comm], Nat.log2_two_pow]
    omega

/-- **The estimated power of ten** is less than twenty decades above a quarter of the distance
of neighbouring numbers. -/
theorem decade_le {magnitude : Nat} (h : 0 < magnitude) (hFinite : magnitude < 2047 * 2 ^ 52) :
    (10 : ℚ) ^ ((ofMagnitude magnitude).decade - 20) ≤ gap magnitude / 4 := by
  have hLog := log2_sub_log2_le h
  have hRange : -1074 ≤ exponentOf magnitude ∧ exponentOf magnitude ≤ 971 := by
    rw [exponentOf_eq]
    omega
  have hQuarter : gap magnitude / 4 = 2 ^ (exponentOf magnitude - 2) := by
    unfold gap
    rw [zpow_sub₀ (by norm_num)]
    norm_num
  rw [hQuarter]
  unfold decade
  exact ten_zpow_le (by omega) (by omega)

theorem gap_le_middle_sub_lowEnd {magnitude : Nat} (h : 0 < magnitude) :
    gap magnitude / 4 ≤ (ofMagnitude magnitude).middle - (ofMagnitude magnitude).lowEnd := by
  have hPositive := mantissaOf_pos h
  have hBelow : 1 ≤ below magnitude ∧ below magnitude ≤ 2 := by
    unfold below
    split <;> omega
  have hCast : ((4 * mantissaOf magnitude - below magnitude : Nat) : ℚ) =
      4 * mantissaOf magnitude - below magnitude := by
    rw [Nat.cast_sub (by omega)]
    push_cast
    rfl
  have hOne : (1 : ℚ) ≤ below magnitude := by exact_mod_cast hBelow.1
  rw [middle_ofMagnitude, lowEnd_ofMagnitude, hCast]
  have hQuarter := gap_pos magnitude
  nlinarith

theorem middle_lt_highEnd (magnitude : Nat) :
    (ofMagnitude magnitude).middle < (ofMagnitude magnitude).highEnd := by
  have hQuarter := gap_pos magnitude
  rw [middle_ofMagnitude, highEnd_ofMagnitude]
  push_cast
  linarith

/-- The last of the grids that are tried has a point in the interval. -/
theorem firstGrid_ofMagnitude {magnitude : Nat} (h : 0 < magnitude)
    (hFinite : magnitude < 2047 * 2 ^ 52) :
    (ofMagnitude magnitude).gridPoint?
        ((ofMagnitude magnitude).firstGrid 21 (-(ofMagnitude magnitude).decade)).2 =
      some ((ofMagnitude magnitude).firstGrid 21 (-(ofMagnitude magnitude).decade)).1 := by
  refine firstGrid_spec _ ⟨20, by decide, ?_⟩
  refine gridPoint?_ne_none (den_pos magnitude) (middle_lt_highEnd magnitude) ?_
  refine le_trans ?_ (gap_le_middle_sub_lowEnd h)
  rw [show -(-(ofMagnitude magnitude).decade + ((20 : Nat) : Int)) =
    (ofMagnitude magnitude).decade - 20 by push_cast; ring]
  exact decade_le h hFinite

end Interval

/-- **The decimal that is written** for a number other than zero belongs to its interval. -/
theorem shortest_spec {magnitude : Nat} (h : 0 < magnitude) (hFinite : magnitude < 2047 * 2 ^ 52) :
    ∃ n : Nat, 0 < n ∧ (shortest magnitude).1 = (toString n).toList ∧
      (Interval.ofMagnitude magnitude).Holds (n * 10 ^ (shortest magnitude).2) := by
  have hPoint := Interval.gridPoint?_spec (Interval.den_pos magnitude)
    (Interval.firstGrid_ofMagnitude h hFinite)
  exact ⟨_, hPoint.1, rfl, hPoint.2⟩

end PaneEngine.Decimal
