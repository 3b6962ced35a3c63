import PaneEngine.Proofs.Decimal.Shortest
import PaneEngine.Proofs.Json.Numeral

/-!
# Numbers and their texts

The text of every number is a numeral: an integer is written without a point and
without an exponent, a double with one of them at least.  The exact decimal of
that numeral belongs to the interval of the double, however its digits are laid
out, so that different numbers never have the same text.

## Main definitions

* `Numeral.size` — the exact decimal that a numeral denotes, without its sign;
* `Denotes` — a text that is a numeral for a decimal.

## Main results

* `numeral?_of_parts` — what is read of digits, a point and an exponent;
* `Layout.denotes_write` — no layout of a decimal changes what it denotes;
* `denotes_double` — the text of a double is a numeral in the interval of that double;
* `Number.eq_of_text_eq` — numbers with the same text are the same.
-/

namespace PaneEngine.Json

/-! ## Digits -/

theorem digitsOfChars_append (cs cs' : List Char) :
    digitsOfChars (cs ++ cs') = digitsOfChars cs ++ digitsOfChars cs' := List.map_append

theorem length_digitsOfChars (cs : List Char) : (digitsOfChars cs).length = cs.length :=
  List.length_map _

theorem digitsValue_append (ds ds' : List Nat) :
    digitsValue (ds ++ ds') = digitsValue ds * 10 ^ ds'.length + digitsValue ds' := by
  have hFrom : ∀ (ds : List Nat) (value : Nat),
      ds.foldl (fun n d => n * 10 + d) value = value * 10 ^ ds.length + digitsValue ds := by
    intro ds
    induction ds with
    | nil =>
        intro value
        simp [digitsValue]
    | cons d ds ih =>
        intro value
        unfold digitsValue at ih ⊢
        rw [List.foldl_cons, List.foldl_cons, ih, ih (0 * 10 + d), List.length_cons, Nat.pow_succ]
        ring
  unfold digitsValue
  rw [List.foldl_append, hFrom]
  rfl

theorem digitsValue_zeros (n : Nat) :
    digitsValue (digitsOfChars (List.replicate n '0')) = 0 := by
  induction n with
  | zero => rfl
  | succ n ih => exact ih

theorem toList_toString_nat (n : Nat) : (toString n).toList = Nat.toDigits 10 n := by
  show n.repr.toList = _
  rw [Nat.repr_eq_ofList_toDigits, String.toList_ofList]

/-! ## Numerals -/

/-- The power of ten an exponent stands for. -/
def powerOf : Option (Bool × List Nat) → Int
  | none => 0
  | some (true, ds) => -digitsValue ds
  | some (false, ds) => digitsValue ds

/-- The exact decimal a numeral denotes, without its sign. -/
def Numeral.size (n : Numeral) : ℚ :=
  digitsValue (n.whole ++ n.fraction.getD []) *
    10 ^ (powerOf n.exponent - (n.fraction.getD []).length)

/-- An exponent as it is written behind its mark. -/
theorem exponentOf?_written (down plus : Bool) (k : Nat) :
    exponentOf? ('e' :: (if down then ['-'] else if plus then ['+'] else []) ++ Nat.toDigits 10 k) =
      some (some (down, digitsOf k)) := by
  have hDigit : ∀ c r, Nat.toDigits 10 k = c :: r → c.isDigit = true := fun c r hChars =>
    isDigit_of_mem_toDigits (hChars ▸ List.mem_cons_self)
  -- by these two digits without a sign are not taken for one
  have hMinus : ∀ r, Nat.toDigits 10 k ≠ '-' :: r := fun r hChars =>
    absurd (hDigit '-' r hChars) (by decide)
  have hPlus : ∀ r, Nat.toDigits 10 k ≠ '+' :: r := fun r hChars =>
    absurd (hDigit '+' r hChars) (by decide)
  obtain ⟨d, ds, hDigits⟩ := List.exists_cons_of_ne_nil (digitsOf_ne_nil k)
  have hPrefix := digitsPrefix_toDigits k
  rw [hDigits] at hPrefix ⊢
  cases down with
  | true =>
      show exponentOf? ('e' :: '-' :: Nat.toDigits 10 k) = _
      simp only [exponentOf?.eq_def, hPrefix]
      exact if_pos (by decide)
  | false =>
      cases plus with
      | true =>
          show exponentOf? ('e' :: '+' :: Nat.toDigits 10 k) = _
          simp only [exponentOf?.eq_def, hPrefix]
          exact if_pos (by decide)
      | false =>
          show exponentOf? ('e' :: Nat.toDigits 10 k) = _
          simp only [exponentOf?.eq_def, hPrefix]
          exact if_pos (by decide)

/-- Reads what stands behind the digits at the start. -/
def behindWhole? (negative : Bool) (whole : List Nat) (rest : List Char) : Option Numeral :=
  match rest with
  | '.' :: r =>
    match digitsPrefix r with
    | ([], _) => none
    | (ds, r) => (exponentOf? r).map fun e => ⟨negative, whole, some ds, e⟩
  | r => (exponentOf? r).map fun e => ⟨negative, whole, none, e⟩

theorem numeral?_signed (negative : Bool) {cs rest : List Char} {whole : List Nat}
    (hMinus : ∀ r, cs ≠ '-' :: r) (hWhole : digitsPrefix cs = (whole, rest))
    (hNonempty : whole ≠ []) (hLeading : ∀ ds, whole = 0 :: ds → ds = []) :
    numeral? ((if negative then ['-'] else []) ++ cs) = behindWhole? negative whole rest := by
  cases negative with
  | true =>
      show numeral? ('-' :: cs) = _
      unfold numeral?
      simp only [hWhole]
      split
      · exact absurd rfl hNonempty
      · exact absurd (hLeading _ rfl) (List.cons_ne_nil _ _)
      · rfl
  | false =>
      show numeral? cs = _
      unfold numeral?
      simp only [hWhole]
      split
      · exact absurd rfl hNonempty
      · exact absurd (hLeading _ rfl) (List.cons_ne_nil _ _)
      · rfl

/-- What is read of digits, possibly a point and more digits, and an exponent. -/
theorem numeral?_of_parts (negative : Bool) (whole : List Char) (fraction : Option (List Char))
    (mark : List Char) {e : Option (Bool × List Nat)}
    (hWhole : ∀ c ∈ whole, c.isDigit = true) (hNonempty : whole ≠ [])
    (hLeading : ∀ ds, digitsOfChars whole = 0 :: ds → ds = [])
    (hFraction : ∀ cs, fraction = some cs → cs ≠ [] ∧ ∀ c ∈ cs, c.isDigit = true)
    (hMark : exponentOf? mark = some e)
    (hStart : ∀ c, mark.head? = some c → c.isDigit = false ∧ c ≠ '.') :
    numeral? ((if negative then ['-'] else []) ++
        (whole ++ fraction.elim mark fun cs => '.' :: (cs ++ mark))) =
      some ⟨negative, digitsOfChars whole, fraction.map digitsOfChars, e⟩ := by
  have hMarkStart : ∀ c, mark.head? = some c → c.isDigit = false := fun c hc => (hStart c hc).1
  have hMinus : ∀ tail r, whole ++ tail ≠ '-' :: r := by
    intro tail r hEq
    cases whole with
    | nil => exact hNonempty rfl
    | cons c cs =>
        have hc : c = '-' := (List.cons.inj hEq).1
        exact absurd (hWhole c List.mem_cons_self) (hc ▸ by decide)
  have hDigits : digitsOfChars whole ≠ [] := fun hNil => hNonempty (List.map_eq_nil_iff.1 hNil)
  cases fraction with
  | none =>
      refine (numeral?_signed negative (hMinus mark) (digitsPrefix_append hWhole hMarkStart)
        hDigits hLeading).trans ?_
      unfold behindWhole?
      split
      · next r => exact absurd rfl (hStart '.' rfl).2
      · rw [hMark]
        rfl
  | some cs =>
      obtain ⟨hSome, hAll⟩ := hFraction cs rfl
      have hPoint : ∀ c, ('.' :: (cs ++ mark)).head? = some c → c.isDigit = false := by
        intro c hc
        cases hc
        decide
      refine (numeral?_signed negative (hMinus ('.' :: (cs ++ mark)))
        (digitsPrefix_append hWhole hPoint) hDigits hLeading).trans ?_
      show (match digitsPrefix (cs ++ mark) with
        | ([], _) => none
        | (ds, r) => (exponentOf? r).map fun e =>
          (⟨negative, digitsOfChars whole, some ds, e⟩ : Numeral)) = _
      rw [digitsPrefix_append hAll hMarkStart]
      cases hDigits' : digitsOfChars cs with
      | nil => exact absurd (List.map_eq_nil_iff.1 hDigits') hSome
      | cons d ds =>
          show (exponentOf? mark).map _ = _
          rw [hMark, Option.map_some, Option.map_some, hDigits']

/-- With that sign the text is a numeral for that decimal, and not written as an integer. -/
def Denotes (text : List Char) (negative : Bool) (x : ℚ) : Prop :=
  ∃ n, numeral? ((if negative then ['-'] else []) ++ text) = some n ∧ n.negative = negative ∧
    n.size = x ∧ ¬ (n.fraction = none ∧ n.exponent = none)

/-- The characters are digits, and they do not start with a zero. -/
structure IsSignificand (cs : List Char) : Prop where
  digits : ∀ c ∈ cs, c.isDigit = true
  leading : ∃ d ds, digitsOfChars cs = d :: ds ∧ d ≠ 0

namespace IsSignificand

variable {cs : List Char}

theorem ne_nil (h : IsSignificand cs) : cs ≠ [] := by
  rintro rfl
  obtain ⟨d, ds, hEq, -⟩ := h.leading
  cases hEq

theorem leading_append (h : IsSignificand cs) (cs' : List Char) :
    ∀ ds, digitsOfChars (cs ++ cs') = 0 :: ds → ds = [] := by
  intro ds hEq
  obtain ⟨d, ds', hDigits, hd⟩ := h.leading
  rw [digitsOfChars_append, hDigits, List.cons_append] at hEq
  exact absurd (List.cons.inj hEq).1 hd

theorem toString {n : Nat} (h : 0 < n) : IsSignificand (toString n).toList := by
  rw [toList_toString_nat]
  refine ⟨fun c hMem => isDigit_of_mem_toDigits hMem, ?_⟩
  show ∃ d ds, digitsOf n = d :: ds ∧ d ≠ 0
  have hValue := foldl_digitsOf n
  cases hDigits : digitsOf n with
  | nil => exact absurd hDigits (digitsOf_ne_nil n)
  | cons d ds =>
      refine ⟨d, ds, rfl, ?_⟩
      rintro rfl
      rw [hDigits, eq_nil_of_digitsOf hDigits] at hValue
      exact absurd hValue.symm (Nat.pos_iff_ne_zero.1 h)

end IsSignificand

theorem isDigit_of_mem_zeros {n : Nat} {c : Char} (h : c ∈ List.replicate n '0') :
    c.isDigit = true := by
  rw [List.eq_of_mem_replicate h]
  decide

theorem denotes_of_parts (negative : Bool) (whole : List Char) (fraction : Option (List Char))
    (mark : List Char) {e : Option (Bool × List Nat)} {x : ℚ}
    (hWhole : ∀ c ∈ whole, c.isDigit = true) (hNonempty : whole ≠ [])
    (hLeading : ∀ ds, digitsOfChars whole = 0 :: ds → ds = [])
    (hFraction : ∀ cs, fraction = some cs → cs ≠ [] ∧ ∀ c ∈ cs, c.isDigit = true)
    (hMark : exponentOf? mark = some e)
    (hStart : ∀ c, mark.head? = some c → c.isDigit = false ∧ c ≠ '.')
    (hKind : ¬ (fraction = none ∧ e = none))
    (hSize : (digitsValue (digitsOfChars (whole ++ fraction.getD [])) : ℚ) *
      10 ^ (powerOf e - (fraction.getD []).length) = x) :
    Denotes (whole ++ fraction.elim mark fun cs => '.' :: (cs ++ mark)) negative x := by
  refine ⟨_, numeral?_of_parts negative whole fraction mark hWhole hNonempty hLeading hFraction
    hMark hStart, rfl, ?_, ?_⟩
  · have hDigits : (fraction.map digitsOfChars).getD [] = digitsOfChars (fraction.getD []) := by
      cases fraction <;> rfl
    unfold Numeral.size
    rw [hDigits, length_digitsOfChars, ← digitsOfChars_append]
    exact hSize
  · rintro ⟨hNone, hNone'⟩
    exact hKind ⟨Option.map_eq_none_iff.1 hNone, hNone'⟩

theorem denotes_zero (negative : Bool) : Denotes ['0', '.', '0'] negative 0 := by
  refine denotes_of_parts negative ['0'] (some ['0']) []
    (fun c hMem => isDigit_of_mem_zeros (n := 1) hMem) (List.cons_ne_nil _ _)
    (fun ds hEq => (List.cons.inj hEq).2.symm) ?_ rfl (by rintro c ⟨⟩) (by rintro ⟨⟨⟩, -⟩) ?_
  · rintro _ ⟨⟩
    exact ⟨List.cons_ne_nil _ _, fun c hMem => isDigit_of_mem_zeros (n := 1) hMem⟩
  · show ((0 : Nat) : ℚ) * _ = 0
    rw [Nat.cast_zero, zero_mul]

/-- Digits with a point behind the first one, if there are more. -/
def pointBehindFirst : List Char → List Char
  | [d] => [d]
  | d :: ds => d :: '.' :: ds
  | [] => []

section

variable {cs : List Char} (h : IsSignificand cs) (negative : Bool)

include h

/-- An integer is written with a zero behind the point. -/
theorem denotes_whole (k : Nat) :
    Denotes (cs ++ List.replicate k '0' ++ ['.', '0']) negative
      (digitsValue (digitsOfChars cs) * 10 ^ (k : Int)) := by
  have hZeros : digitsValue (digitsOfChars ((cs ++ List.replicate k '0') ++ ['0'])) =
      digitsValue (digitsOfChars cs) * 10 ^ k * 10 := by
    rw [digitsOfChars_append, digitsOfChars_append, digitsValue_append, digitsValue_append,
      digitsValue_zeros, length_digitsOfChars, List.length_replicate]
    rfl
  refine denotes_of_parts negative (cs ++ List.replicate k '0') (some ['0']) [] ?_ ?_
    (h.leading_append _) ?_ rfl ?_ ?_ ?_
  · intro c hMem
    rcases List.mem_append.1 hMem with hDigit | hZero
    · exact h.digits c hDigit
    · exact isDigit_of_mem_zeros hZero
  · exact fun hNil => h.ne_nil (List.append_eq_nil_iff.1 hNil).1
  · rintro _ ⟨⟩
    exact ⟨List.cons_ne_nil _ _, fun c hMem => isDigit_of_mem_zeros (n := 1) hMem⟩
  · rintro c ⟨⟩
  · rintro ⟨⟨⟩, -⟩
  · show (digitsValue (digitsOfChars ((cs ++ List.replicate k '0') ++ ['0'])) : ℚ) *
      10 ^ (-1 : Int) = _
    rw [hZeros]
    push_cast
    rw [zpow_natCast, zpow_neg_one]
    ring

/-- The point stands between the digits. -/
theorem denotes_split {j : Nat} (hPositive : 0 < j) (hLt : j < cs.length) :
    Denotes (cs.take j ++ '.' :: cs.drop j) negative
      (digitsValue (digitsOfChars cs) * 10 ^ ((j : Int) - cs.length)) := by
  have hSplit := List.take_append_drop j cs
  have hText : cs.take j ++ '.' :: cs.drop j = cs.take j ++ '.' :: (cs.drop j ++ []) := by
    rw [List.append_nil]
  rw [hText]
  refine denotes_of_parts negative (cs.take j) (some (cs.drop j)) []
    (fun c hMem => h.digits c (List.mem_of_mem_take hMem)) ?_ ?_ ?_ rfl ?_ ?_ ?_
  · intro hNil
    have hLength := congrArg List.length hNil
    rw [List.length_take, List.length_nil] at hLength
    omega
  · intro ds hZero
    obtain ⟨d, ds', hDigits, hd⟩ := h.leading
    rw [← hSplit, digitsOfChars_append, hZero, List.cons_append] at hDigits
    exact absurd (List.cons.inj hDigits).1.symm hd
  · rintro _ ⟨⟩
    refine ⟨?_, fun c hMem => h.digits c (List.mem_of_mem_drop hMem)⟩
    intro hNil
    have hLength := congrArg List.length hNil
    rw [List.length_drop, List.length_nil] at hLength
    omega
  · rintro c ⟨⟩
  · rintro ⟨⟨⟩, -⟩
  · show (digitsValue (digitsOfChars (cs.take j ++ cs.drop j)) : ℚ) *
      10 ^ ((0 : Int) - (cs.drop j).length) = _
    rw [hSplit, List.length_drop, Nat.cast_sub hLt.le, zero_sub, neg_sub]

/-- Zeros stand between the point and the digits. -/
theorem denotes_small (k : Nat) :
    Denotes ('0' :: '.' :: List.replicate k '0' ++ cs) negative
      (digitsValue (digitsOfChars cs) * 10 ^ (-((k + cs.length : Nat) : Int))) := by
  have hText : '0' :: '.' :: List.replicate k '0' ++ cs =
      ['0'] ++ '.' :: ((List.replicate k '0' ++ cs) ++ []) := by
    rw [List.append_nil]
    rfl
  have hZeros : digitsValue (digitsOfChars (['0'] ++ (List.replicate k '0' ++ cs))) =
      digitsValue (digitsOfChars cs) := by
    show digitsValue (digitsOfChars (List.replicate (k + 1) '0' ++ cs)) = _
    rw [digitsOfChars_append, digitsValue_append, digitsValue_zeros, Nat.zero_mul, Nat.zero_add]
  rw [hText]
  refine denotes_of_parts negative ['0'] (some (List.replicate k '0' ++ cs)) []
    (fun c hMem => isDigit_of_mem_zeros (n := 1) hMem) (List.cons_ne_nil _ _) ?_ ?_ rfl ?_ ?_ ?_
  · intro ds hEq
    exact (List.cons.inj hEq).2.symm
  · rintro _ ⟨⟩
    refine ⟨fun hNil => h.ne_nil (List.append_eq_nil_iff.1 hNil).2, ?_⟩
    intro c hMem
    rcases List.mem_append.1 hMem with hZero | hDigit
    · exact isDigit_of_mem_zeros hZero
    · exact h.digits c hDigit
  · rintro c ⟨⟩
  · rintro ⟨⟨⟩, -⟩
  · show (digitsValue (digitsOfChars (['0'] ++ (List.replicate k '0' ++ cs))) : ℚ) *
      10 ^ ((0 : Int) - (List.replicate k '0' ++ cs).length) = _
    rw [hZeros, List.length_append, List.length_replicate, zero_sub]

/-- An exponent stands behind the digits. -/
theorem denotes_scientific (plus : Bool) (first : Int) :
    Denotes
      (pointBehindFirst cs ++ 'e' :: (if first < 0 then ['-'] else if plus then ['+'] else []) ++
        (toString first.natAbs).toList) negative
      (digitsValue (digitsOfChars cs) * 10 ^ (first + 1 - cs.length)) := by
  have hExponent := exponentOf?_written (decide (first < 0)) plus first.natAbs
  simp only [decide_eq_true_eq] at hExponent
  have hPower : powerOf (some (decide (first < 0), digitsOf first.natAbs)) = first := by
    have hValue : digitsValue (digitsOf first.natAbs) = first.natAbs := foldl_digitsOf _
    by_cases hNegative : first < 0
    · rw [decide_eq_true hNegative]
      show -((digitsValue (digitsOf first.natAbs) : Nat) : Int) = first
      omega
    · rw [decide_eq_false hNegative]
      show ((digitsValue (digitsOf first.natAbs) : Nat) : Int) = first
      omega
  have hStart : ∀ c, ('e' :: (if first < 0 then ['-'] else if plus then ['+'] else []) ++
      Nat.toDigits 10 first.natAbs).head? = some c → c.isDigit = false ∧ c ≠ '.' := by
    rintro c ⟨⟩
    decide
  rw [toList_toString_nat, List.append_assoc]
  match cs, h with
  | [], h => exact absurd rfl h.ne_nil
  | [d], h =>
      refine denotes_of_parts negative [d] none _ h.digits h.ne_nil
        (h.leading_append []) (by rintro cs ⟨⟩) hExponent hStart (by rintro ⟨-, ⟨⟩⟩) ?_
      rw [hPower]
      show (digitsValue (digitsOfChars [d]) : ℚ) * 10 ^ (first - ((0 : Nat) : Int)) =
        _ * 10 ^ (first + 1 - ((1 : Nat) : Int))
      congr 2
      omega
  | d :: d' :: ds, h =>
      refine denotes_of_parts negative [d] (some (d' :: ds)) _
        (fun c hMem => h.digits c ?_) (List.cons_ne_nil _ _) (fun ds hEq => ?_) ?_ hExponent hStart
        (by rintro ⟨⟨⟩, -⟩) ?_
      · rw [List.mem_singleton.1 hMem]
        exact List.mem_cons_self
      · exact (List.cons.inj hEq).2.symm
      · rintro _ ⟨⟩
        exact ⟨List.cons_ne_nil _ _, fun c hMem => h.digits c (List.mem_cons_of_mem d hMem)⟩
      · rw [hPower]
        show (digitsValue (digitsOfChars (d :: d' :: ds)) : ℚ) *
          10 ^ (first - ((ds.length + 1 : Nat) : Int)) =
            _ * 10 ^ (first + 1 - ((ds.length + 1 + 1 : Nat) : Int))
        congr 2
        omega

end

end PaneEngine.Json

namespace PaneEngine.Decimal

open Json

/-! ## Layouts -/

theorem eq_append_dropTrailingZeros (cs : List Char) :
    cs = (dropTrailingZeros cs).1 ++ List.replicate (dropTrailingZeros cs).2 '0' := by
  have hSplit := List.takeWhile_append_dropWhile (p := fun c => decide (c = '0')) (l := cs.reverse)
  have hZeros : cs.reverse.takeWhile (fun c => decide (c = '0')) =
      List.replicate (cs.reverse.takeWhile (fun c => decide (c = '0'))).length '0' := by
    refine List.eq_replicate_iff.2 ⟨rfl, ?_⟩
    intro c hMem
    simpa using List.all_eq_true.1 List.all_takeWhile c hMem
  have hLength := congrArg List.length hSplit
  rw [List.length_append, List.length_reverse] at hLength
  have hCount : (dropTrailingZeros cs).2 =
      (cs.reverse.takeWhile (fun c => decide (c = '0'))).length := by
    show cs.length - (cs.reverse.dropWhile (fun c => decide (c = '0'))).reverse.length = _
    rw [List.length_reverse]
    omega
  rw [hCount, ← List.reverse_replicate, ← hZeros]
  show cs = (cs.reverse.dropWhile (fun c => decide (c = '0'))).reverse ++ _
  rw [← List.reverse_append, hSplit, List.reverse_reverse]

namespace Layout

/-- The text of a decimal whose digits do not end with a zero. -/
def place (l : Layout) (digits : List Char) (last : Int) : List Char :=
  let first := last + digits.length - 1
  if l.leastPositional ≤ first && first ≤ l.greatestPositional then
    if 0 ≤ last then digits ++ List.replicate last.toNat '0' ++ ['.', '0']
    else if 0 ≤ first then
      digits.take (first.toNat + 1) ++ '.' :: digits.drop (first.toNat + 1)
    else '0' :: '.' :: List.replicate (-first - 1).toNat '0' ++ digits
  else
    let sign := if first < 0 then ['-'] else if l.plus then ['+'] else []
    pointBehindFirst digits ++ l.mark :: sign ++ (toString first.natAbs).toList

theorem write_eq (l : Layout) (digits : List Char) (last : Int) :
    l.write digits last =
      l.place (dropTrailingZeros digits).1 (last + (dropTrailingZeros digits).2) := rfl

/-- Wherever the point stands, the text denotes the digits at their scale. -/
theorem denotes_place {l : Layout} (hMark : l.mark = 'e') {cs : List Char}
    (h : IsSignificand cs) (negative : Bool) (last : Int) :
    Denotes (l.place cs last) negative (digitsValue (digitsOfChars cs) * 10 ^ last) := by
  have hLength := List.length_pos_iff.2 h.ne_nil
  unfold place
  simp only
  split
  · split
    · next hWhole =>
      have hText := denotes_whole h negative last.toNat
      rwa [Int.toNat_of_nonneg hWhole] at hText
    · split
      · next hBehind hSplit =>
        have hText := denotes_split h negative
          (j := (last + cs.length - 1).toNat + 1) (by omega) (by omega)
        have hLast : (((last + cs.length - 1).toNat + 1 : Nat) : Int) - cs.length = last := by omega
        rwa [hLast] at hText
      · next hBehind hSmall =>
        have hText := denotes_small h negative (-(last + cs.length - 1) - 1).toNat
        rwa [show -(((-(last + cs.length - 1) - 1).toNat + cs.length : Nat) : Int) = last by omega]
          at hText
  · have hText := denotes_scientific h negative l.plus (last + cs.length - 1)
    rw [show last + cs.length - 1 + 1 - cs.length = last by omega] at hText
    rw [hMark]
    exact hText

/-- The zeros at the end are not written as digits, but they count. -/
theorem denotes_write {l : Layout} (hMark : l.mark = 'e') {n : Nat} (h : 0 < n) (negative : Bool)
    (last : Int) : Denotes (l.write (toString n).toList last) negative (n * 10 ^ last) := by
  have hDigits := IsSignificand.toString h
  have hValue : digitsValue (digitsOfChars (toString n).toList) = n := by
    rw [toList_toString_nat]
    exact foldl_digitsOf n
  rw [write_eq]
  have hSplit := eq_append_dropTrailingZeros (toString n).toList
  generalize (toString n).toList = cs at hDigits hValue hSplit ⊢
  generalize (dropTrailingZeros cs).1 = kept at hSplit ⊢
  generalize (dropTrailingZeros cs).2 = dropped at hSplit ⊢
  subst hSplit
  have hKept : IsSignificand kept := by
    refine ⟨fun c hMem => hDigits.digits c (List.mem_append_left _ hMem), ?_⟩
    obtain ⟨d, ds, hEq, hd⟩ := hDigits.leading
    cases kept with
    | nil =>
        cases dropped with
        | zero => cases hEq
        | succ k => exact absurd (List.cons.inj hEq).1.symm hd
    | cons c cs => exact ⟨_, _, rfl, fun hZero => hd ((List.cons.inj hEq).1.symm.trans hZero)⟩
  have hScale : (digitsValue (digitsOfChars kept) : ℚ) * 10 ^ (last + dropped) = n * 10 ^ last := by
    rw [digitsOfChars_append, digitsValue_append, digitsValue_zeros, length_digitsOfChars,
      List.length_replicate, Nat.add_zero] at hValue
    rw [← hValue, zpow_add₀ (by norm_num), zpow_natCast]
    push_cast
    ring
  rw [← hScale]
  exact denotes_place hMark hKept negative (last + dropped)

end Layout

end PaneEngine.Decimal

namespace PaneEngine.Json

open Decimal

/-! ## The texts of numbers -/

/-- **The text of a double** is a numeral with its sign whose exact decimal belongs to its
interval, or is zero with it. -/
theorem denotes_double (x : Binary64) :
    ∃ y, Denotes (Binary64.layout.magnitude x.magnitude) x.negative y ∧
      if x.magnitude = 0 then y = 0 else 0 < y ∧ (Interval.ofMagnitude x.magnitude).Holds y := by
  unfold Layout.magnitude
  by_cases hZero : x.magnitude = 0
  · rw [if_pos hZero]
    exact ⟨0, denotes_zero x.negative, by rw [if_pos hZero]⟩
  · rw [if_neg hZero]
    obtain ⟨n, hPositive, hDigits, hHolds⟩ := shortest_spec (Nat.pos_of_ne_zero hZero) x.finite
    refine ⟨n * 10 ^ (shortest x.magnitude).2, ?_, ?_⟩
    · show Denotes (Binary64.layout.write (shortest x.magnitude).1 (shortest x.magnitude).2)
        x.negative _
      rw [hDigits]
      exact Layout.denotes_write rfl hPositive x.negative (shortest x.magnitude).2
    · rw [if_neg hZero]
      exact ⟨by positivity, hHolds⟩

theorem toList_text_double (x : Binary64) :
    (Number.double x).text.toList =
      (if x.negative then ['-'] else []) ++ Binary64.layout.magnitude x.magnitude := by
  show (String.ofList _).toList = _
  rw [String.toList_ofList]
  cases x.negative <;> rfl

/-- **The text of a number** is a numeral. -/
theorem exists_numeral?_text (n : Number) : ∃ k, numeral? n.text.toList = some k := by
  cases n with
  | int i => exact ⟨_, numeral?_toString_int i⟩
  | double x =>
      obtain ⟨y, ⟨k, hRead, -⟩, -⟩ := denotes_double x
      exact ⟨k, toList_text_double x ▸ hRead⟩

/-- Two doubles with the same text have the sign of its numeral, and they share an interval. -/
theorem double_eq_of_text_eq {x y : Binary64}
    (h : (Number.double x).text = (Number.double y).text) : x = y := by
  obtain ⟨p, ⟨n, hRead, hSign, hSize, -⟩, hp⟩ := denotes_double x
  obtain ⟨q, ⟨m, hRead', hSign', hSize', -⟩, hq⟩ := denotes_double y
  rw [← toList_text_double, h, toList_text_double, hRead'] at hRead
  obtain rfl : m = n := Option.some.inj hRead
  have hNegative : x.negative = y.negative := hSign.symm.trans hSign'
  have hDecimal : p = q := hSize.symm.trans hSize'
  subst hDecimal
  have hMagnitude : x.magnitude = y.magnitude := by
    split at hp
    · next hx =>
      split at hq
      · next hy => rw [hx, hy]
      · exact absurd hp hq.1.ne'
    · split at hq
      · exact absurd hq hp.1.ne'
      · exact Interval.eq_of_holds hp.2 hq.2
  obtain ⟨s, a, _⟩ := x
  obtain ⟨s', b, _⟩ := y
  cases hNegative
  cases hMagnitude
  rfl

theorem int_eq_of_text_eq {i j : Int} (h : (Number.int i).text = (Number.int j).text) : i = j := by
  have hRead := numeral?_toString_int i
  rw [show toString i = toString j from h, numeral?_toString_int j] at hRead
  have hSame := Option.some.inj hRead
  have hSign : decide (j < 0) = decide (i < 0) := congrArg Numeral.negative hSame
  have hDigits : digitsOf j.natAbs = digitsOf i.natAbs := congrArg Numeral.whole hSame
  have hAbs : j.natAbs = i.natAbs := by
    rw [← foldl_digitsOf j.natAbs, hDigits, foldl_digitsOf]
  have hNegative : j < 0 ↔ i < 0 := by simpa using hSign
  omega

/-- An integer is written without a point and without an exponent, and no double is. -/
theorem text_int_ne_text_double (i : Int) (x : Binary64) :
    (Number.int i).text ≠ (Number.double x).text := by
  intro hText
  obtain ⟨p, ⟨k, hRead, -, -, hWritten⟩, -⟩ := denotes_double x
  rw [← toList_text_double, ← hText] at hRead
  have hInt : numeral? (Number.int i).text.toList = _ := numeral?_toString_int i
  rw [hRead] at hInt
  obtain rfl : k = _ := Option.some.inj hInt
  exact hWritten ⟨rfl, rfl⟩

/-- **Numbers with the same text are the same.** -/
theorem Number.eq_of_text_eq {n m : Number} (h : n.text = m.text) : n = m := by
  cases n with
  | int i =>
      cases m with
      | int j => rw [int_eq_of_text_eq h]
      | double y => exact absurd h (text_int_ne_text_double i y)
  | double x =>
      cases m with
      | int j => exact absurd h.symm (text_int_ne_text_double j x)
      | double y => rw [double_eq_of_text_eq h]

end PaneEngine.Json
