import Mathlib.Data.List.TakeWhile
import PaneEngine.Json.Token
import PaneEngine.Json.Writer

/-!
# Numbers that are read back

A number is read back if its text is a numeral with that value.  Every integer
of 64 bits is; a double is not always, for its digits are scaled by powers of
ten that are rounded themselves.

## Main definitions

* `Json.Number.ReadsBack` — a number that is read back from its text.

## Main results

* `isNumeralChar_of_numeral?` — a numeral is made of numeral characters;
* `readsBack_int` — integers of 64 bits are read back.
-/

namespace PaneEngine.Json

/-- The number is read back from its text. -/
def Number.ReadsBack (n : Number) : Prop := (numeral? n.text.toList).bind Numeral.value? = some n

instance (n : Number) : Decidable n.ReadsBack := inferInstanceAs (Decidable (_ = _))

/-! ## The characters of a numeral -/

theorem isNumeralChar_of_isDigit {c : Char} (h : c.isDigit = true) : isNumeralChar c = true := by
  simp [isNumeralChar, h]

theorem isDigit_or_mem_of_digitsPrefix {cs rest : List Char} {ds : List Nat}
    (h : digitsPrefix cs = (ds, rest)) {c : Char} (hMem : c ∈ cs) :
    c.isDigit = true ∨ c ∈ rest := by
  obtain ⟨-, rfl⟩ := Prod.mk.inj h
  rw [← List.takeWhile_append_dropWhile (p := Char.isDigit) (l := cs)] at hMem
  rcases List.mem_append.1 hMem with hDigit | hRest
  · exact .inl (List.all_eq_true.1 List.all_takeWhile c hDigit)
  · exact .inr hRest

theorem isNumeralChar_of_exponentOf? {cs : List Char} {e : Option (Bool × List Nat)}
    (h : exponentOf? cs = some e) : ∀ c ∈ cs, isNumeralChar c = true := by
  cases cs with
  | nil => exact fun c hMem => absurd hMem List.not_mem_nil
  | cons mark rest =>
      have hDigits : ∀ {cs : List Char} {ds : List Nat}, digitsPrefix cs = (ds, []) →
          ∀ c ∈ cs, isNumeralChar c = true := by
        intro cs ds hAll c hMem
        rcases isDigit_or_mem_of_digitsPrefix hAll hMem with hDigit | hNil
        · exact isNumeralChar_of_isDigit hDigit
        · exact absurd hNil List.not_mem_nil
      rw [exponentOf?.eq_def] at h
      simp only at h
      split at h
      · next hMark =>
        refine List.forall_mem_cons.2 ⟨?_, ?_⟩
        · simp only [Bool.or_eq_true, decide_eq_true_eq] at hMark
          rcases hMark with rfl | rfl
          · decide
          · decide
        · split at h
          · cases h
          · next hAll =>
            have hBehind := hDigits hAll
            split at hBehind
            · exact List.forall_mem_cons.2 ⟨by decide, hBehind⟩
            · exact List.forall_mem_cons.2 ⟨by decide, hBehind⟩
            · exact hBehind
          · cases h
      · cases h

/-- The characters behind the sign. -/
theorem isNumeralChar_of_unsigned {cs rest : List Char} {whole : List Nat} {negative : Bool}
    {n : Numeral}
    (h : (match rest with
      | '.' :: r =>
        match digitsPrefix r with
        | ([], _) => none
        | (ds, r) => (exponentOf? r).map fun e => (⟨negative, whole, some ds, e⟩ : Numeral)
      | r => (exponentOf? r).map fun e => ⟨negative, whole, none, e⟩) = some n)
    (hWhole : digitsPrefix cs = (whole, rest)) : ∀ c ∈ cs, isNumeralChar c = true := by
  intro c hMem
  rcases isDigit_or_mem_of_digitsPrefix hWhole hMem with hDigit | hRest
  · exact isNumeralChar_of_isDigit hDigit
  · split at h
    · next r =>
      rcases List.mem_cons.1 hRest with rfl | hFraction
      · decide
      · split at h
        · cases h
        · next ds r' _ hDigits =>
          obtain ⟨e, hExponent, -⟩ := Option.map_eq_some_iff.1 h
          rcases isDigit_or_mem_of_digitsPrefix hDigits hFraction with hDigit | hExp
          · exact isNumeralChar_of_isDigit hDigit
          · exact isNumeralChar_of_exponentOf? hExponent c hExp
    · obtain ⟨e, hExponent, -⟩ := Option.map_eq_some_iff.1 h
      exact isNumeralChar_of_exponentOf? hExponent c hRest

/-- **A numeral is made of numeral characters**, and there is at least one. -/
theorem isNumeralChar_of_numeral? {cs : List Char} {n : Numeral} (h : numeral? cs = some n) :
    cs ≠ [] ∧ ∀ c ∈ cs, isNumeralChar c = true := by
  refine ⟨?_, ?_⟩
  · rintro rfl
    cases h
  · unfold numeral? at h
    split at h
    next negative cs' hSign =>
    split at h
    next whole rest hWhole =>
    have hUnsigned : ∀ c ∈ cs', isNumeralChar c = true := by
      split at h
      · cases h
      · cases h
      · exact isNumeralChar_of_unsigned h hWhole
    split at hSign
    · cases hSign
      exact List.forall_mem_cons.2 ⟨by decide, hUnsigned⟩
    · cases hSign
      exact hUnsigned

/-! ## Digits -/

/-- The digits that characters stand for. -/
def digitsOfChars (cs : List Char) : List Nat := cs.map fun c => c.toNat - '0'.toNat

/-- Digits at the start are read up to the first character that is none. -/
theorem digitsPrefix_append {cs rest : List Char} (hDigits : ∀ c ∈ cs, c.isDigit = true)
    (hRest : ∀ c, rest.head? = some c → c.isDigit = false) :
    digitsPrefix (cs ++ rest) = (digitsOfChars cs, rest) := by
  have hNone : rest.takeWhile Char.isDigit = [] ∧ rest.dropWhile Char.isDigit = rest := by
    cases rest with
    | nil => exact ⟨rfl, rfl⟩
    | cons c rest =>
        have hc := hRest c rfl
        simp [hc]
  unfold digitsPrefix
  rw [List.takeWhile_append_of_pos hDigits, List.dropWhile_append_of_pos hDigits, hNone.1, hNone.2,
    List.append_nil]
  rfl

/-! ## Integers -/

/-- The decimal digits of a number. -/
def digitsOf (n : Nat) : List Nat := (Nat.toDigits 10 n).map fun c => c.toNat - '0'.toNat

theorem digitsOf_eq_if (n : Nat) :
    digitsOf n = if n < 10 then [n] else digitsOf (n / 10) ++ [n % 10] := by
  have hDigit : ∀ d < 10, (Nat.digitChar d).toNat - '0'.toNat = d := by decide
  unfold digitsOf
  rw [Nat.toDigits_eq_if (by decide)]
  by_cases hSmall : n < 10
  · rw [if_pos hSmall, if_pos hSmall, List.map_singleton, hDigit n hSmall]
  · rw [if_neg hSmall, if_neg hSmall, List.map_append, List.map_singleton,
      hDigit (n % 10) (Nat.mod_lt n (by decide))]

theorem digitsOf_ne_nil (n : Nat) : digitsOf n ≠ [] := by
  simp [digitsOf, Nat.toDigits_ne_nil]

/-- The first digit is a zero only if it is the only one. -/
theorem eq_nil_of_digitsOf {n : Nat} {ds : List Nat} (h : digitsOf n = 0 :: ds) : ds = [] := by
  induction n using Nat.strongRecOn generalizing ds with
  | ind n ih =>
      rw [digitsOf_eq_if] at h
      by_cases hSmall : n < 10
      · rw [if_pos hSmall] at h
        exact (List.cons.inj h).2.symm
      · rw [if_neg hSmall] at h
        cases hHead : digitsOf (n / 10) with
        | nil => exact absurd hHead (digitsOf_ne_nil _)
        | cons d ds' =>
            rw [hHead, List.cons_append] at h
            have hd : d = 0 := (List.cons.inj h).1
            have hNil : ds' = [] := ih (n / 10) (by omega) (hd ▸ hHead)
            have hZero : digitsOf (n / 10) = [0] := by rw [hHead, hd, hNil]
            rw [digitsOf_eq_if] at hZero
            split at hZero
            · have := (List.cons.inj hZero).1
              omega
            · have hLength := congrArg List.length hZero
              have hPositive := List.length_pos_iff.2 (digitsOf_ne_nil (n / 10 / 10))
              simp only [List.length_append, List.length_singleton] at hLength
              omega

theorem isDigit_of_mem_toDigits {n : Nat} {c : Char} (h : c ∈ Nat.toDigits 10 n) :
    c.isDigit = true :=
  Nat.isDigit_of_mem_toDigits (by decide) (by decide) h

theorem digitsPrefix_toDigits (n : Nat) : digitsPrefix (Nat.toDigits 10 n) = (digitsOf n, []) := by
  have hAll : ∀ c ∈ Nat.toDigits 10 n, c.isDigit = true :=
    fun c hMem => isDigit_of_mem_toDigits hMem
  have hRead : digitsPrefix (Nat.toDigits 10 n ++ []) = (digitsOf n, []) :=
    digitsPrefix_append hAll fun c hNone => by cases hNone
  rwa [List.append_nil] at hRead

/-- The digits of a number, with or without a sign, are a numeral. -/
theorem numeral?_toDigits (negative : Bool) (n : Nat) :
    numeral? ((if negative then ['-'] else []) ++ Nat.toDigits 10 n) =
      some ⟨negative, digitsOf n, none, none⟩ := by
  unfold numeral?
  split
  next negative' cs hSign =>
  have hSplit : negative' = negative ∧ cs = Nat.toDigits 10 n := by
    cases negative with
    | true =>
        cases hSign
        exact ⟨rfl, rfl⟩
    | false =>
        split at hSign
        · next r hMinus =>
          have hMem : '-' ∈ Nat.toDigits 10 n := by
            rw [show Nat.toDigits 10 n = '-' :: r from hMinus]
            exact List.mem_cons_self
          exact absurd (isDigit_of_mem_toDigits hMem) (by decide)
        · cases hSign
          exact ⟨rfl, rfl⟩
  obtain ⟨rfl, rfl⟩ := hSplit
  rw [digitsPrefix_toDigits]
  simp only
  split
  · next h => exact absurd h (digitsOf_ne_nil n)
  · next h => exact absurd (eq_nil_of_digitsOf h) (List.cons_ne_nil _ _)
  · rfl

theorem le_foldl_digits (ds : List Nat) (value : Nat) :
    value ≤ ds.foldl (fun n d => n * 10 + d) value := by
  induction ds generalizing value with
  | nil => exact Nat.le_refl value
  | cons d ds ih =>
      have hRest := ih (value * 10 + d)
      rw [List.foldl_cons]
      omega

/-- Digits are collected as far as they fit, so all of them if the whole number does. -/
theorem collectDigits_of_lt {ds : List Nat} {value : Nat}
    (h : ds.foldl (fun n d => n * 10 + d) value < Nat.pow 2 64) :
    collectDigits value ds = (ds.foldl (fun n d => n * 10 + d) value, []) := by
  induction ds generalizing value with
  | nil => rfl
  | cons d ds ih =>
      have hNext : value * 10 + d < Nat.pow 2 64 :=
        Nat.lt_of_le_of_lt (le_foldl_digits ds (value * 10 + d)) h
      rw [collectDigits, if_pos hNext]
      exact ih h

theorem foldl_digitsOf (n : Nat) : (digitsOf n).foldl (fun n d => n * 10 + d) 0 = n := by
  have hValue := Nat.ofDigitChars_toDigits (b := 10) (n := n) (by decide) (by decide)
  rw [Nat.ofDigitChars_eq_foldl] at hValue
  rw [digitsOf, List.foldl_map]
  simpa only [Nat.mul_comm] using hValue

/-- An integer as written: its sign, if it has one, and its digits. -/
theorem toList_toString_int (i : Int) :
    (toString i).toList = (if i < 0 then ['-'] else []) ++ Nat.toDigits 10 i.natAbs := by
  show i.repr.toList = _
  rw [Int.repr_eq_if]
  by_cases hNegative : i < 0
  · rw [if_neg (by omega), if_pos hNegative, String.toList_append, Nat.repr_eq_ofList_toDigits,
      show (-i).toNat = i.natAbs by omega, String.toList_ofList, String.toList_ofList]
  · rw [if_pos (by omega), if_neg hNegative, Nat.repr_eq_ofList_toDigits, String.toList_ofList,
      show i.toNat = i.natAbs by omega]
    rfl

/-- The text of an integer is a numeral without a point and without an exponent. -/
theorem numeral?_toString_int (i : Int) :
    numeral? (toString i).toList = some ⟨decide (i < 0), digitsOf i.natAbs, none, none⟩ := by
  rw [toList_toString_int, ← numeral?_toDigits]
  simp only [decide_eq_true_eq]

/-- **Integers of 64 bits are read back**, with a sign or without. -/
theorem readsBack_int {i : Int} (hLow : -(Nat.pow 2 63 : Nat) ≤ i)
    (hHigh : i < (Nat.pow 2 64 : Nat)) : (Number.int i).ReadsBack := by
  have hLeast : Nat.pow 2 63 = 9223372036854775808 := rfl
  have hBound : Nat.pow 2 64 = 18446744073709551616 := rfl
  have hFits : i.natAbs < Nat.pow 2 64 := by omega
  have hDigits : collectDigits 0 (digitsOf i.natAbs) = (i.natAbs, []) := by
    rw [collectDigits_of_lt (by rw [foldl_digitsOf]; exact hFits), foldl_digitsOf]
  have hSign : (!decide (i < 0) || decide (0 < i.natAbs) && decide (i.natAbs ≤ Nat.pow 2 63)) =
      true := by
    by_cases hNegative : i < 0
    · have hPositive : 0 < i.natAbs := by omega
      have hRange : i.natAbs ≤ Nat.pow 2 63 := by omega
      rw [decide_eq_true hPositive, decide_eq_true hRange, Bool.and_self, Bool.or_true]
    · rw [decide_eq_false hNegative, Bool.not_false, Bool.true_or]
  show (numeral? (toString i).toList).bind Numeral.value? = _
  rw [numeral?_toString_int, Option.bind_some, Numeral.value?]
  simp only [hDigits]
  rw [if_pos (by rw [hSign]; rfl)]
  by_cases hNegative : i < 0
  · rw [if_pos (decide_eq_true hNegative), show -(i.natAbs : Int) = i by omega]
  · rw [if_neg (by simpa using hNegative), show (i.natAbs : Int) = i by omega]

end PaneEngine.Json
