/-!
# Double precision numbers

A finite binary number with 53 significant bits, kept as its sign and the
other 63 bits of its usual 64-bit form, read as a natural number: 11 bits of
exponent above 52 bits of fraction.  That reading is monotone, so the next
larger number has the next larger `magnitude`, and a fraction that rounds up to
a power of two carries into the exponent by itself.

All arithmetic is exact on natural numbers and rounds once, to the nearest
number, a tie going to the even fraction.

## Main definitions

* `Binary64.mantissa`, `Binary64.exponent` — the value is `mantissa * 2 ^ exponent`;
* `Binary64.roundRatio` — rounds `num * 2 ^ shift / den`;
* `Binary64.mulPow10`, `Binary64.divPow10` — one rounded product or quotient.
-/

namespace PaneEngine

/-- A finite double precision number. -/
structure Binary64 where
  /-- Whether the sign bit is set. -/
  negative : Bool
  /-- The other 63 bits. -/
  magnitude : Nat
  finite : magnitude < 2047 * Nat.pow 2 52
deriving DecidableEq

namespace Binary64

/-- The number zero without a sign. -/
def zero : Binary64 := ⟨false, 0, by decide⟩

instance : Inhabited Binary64 := ⟨zero⟩

/-- The eleven exponent bits. -/
def exponentField (magnitude : Nat) : Nat := magnitude / Nat.pow 2 52

/-- The integer factor of the value, below `2 ^ 53`. -/
def mantissaOf (magnitude : Nat) : Nat :=
  if exponentField magnitude = 0 then magnitude else Nat.pow 2 52 + magnitude % Nat.pow 2 52

/-- The power of two of the value. -/
def exponentOf (magnitude : Nat) : Int :=
  (max (exponentField magnitude) 1 : Nat) - 1075

/-- The integer factor of the value, below `2 ^ 53`. -/
def mantissa (x : Binary64) : Nat := mantissaOf x.magnitude

/-- The power of two of the value. -/
def exponent (x : Binary64) : Int := exponentOf x.magnitude

/-- Equality of values: the two zeros are equal. -/
def sameValue (x y : Binary64) : Bool :=
  x.magnitude = y.magnitude && (x.magnitude = 0 || x.negative = y.negative)

/-! ## Rounding -/

/-- The quotient rounded to the nearest natural number, a tie going to the even one. -/
def divNearest (num den : Nat) : Nat :=
  let q := num / den
  let r := num % den
  if 2 * r < den then q
  else if den < 2 * r then q + 1
  else q + q % 2

/-- `num * 2 ^ shift / den` as a numerator and a denominator. -/
def scaled (num den : Nat) (shift : Int) : Nat × Nat :=
  if 0 ≤ shift then (num * Nat.pow 2 shift.toNat, den) else (num, den * Nat.pow 2 (-shift).toNat)

/-- The exponent at which the quotient has 53 bits, no lower than that of the smallest numbers. -/
def unitExponent (num den : Nat) : Int :=
  let low : Int := (Nat.log2 num : Int) - Nat.log2 den - 53
  let (n, d) := scaled num den (-low)
  max (if n < d * Nat.pow 2 53 then low else low + 1) (-1074)

/-- The magnitude nearest to `num / den`. -/
def nearestMagnitude (num den : Nat) : Nat :=
  if num = 0 then 0
  else
    let e := unitExponent num den
    let (n, d) := scaled num den (-e)
    (e + 1074).toNat * Nat.pow 2 52 + divNearest n d

/-- The number nearest to `± num * 2 ^ shift / den`; none when it is beyond the largest. -/
def roundRatio (negative : Bool) (num den : Nat) (shift : Int) : Option Binary64 :=
  let (n, d) := scaled num den shift
  let m := nearestMagnitude n d
  if h : m < 2047 * Nat.pow 2 52 then some ⟨negative, m, h⟩ else none

/-- The number nearest to a natural number below `2 ^ 64`, or to any other in range. -/
def ofNat? (n : Nat) : Option Binary64 := roundRatio false n 1 0

/-- The number nearest to the `k`-th power of ten. -/
def pow10? (k : Nat) : Option Binary64 := ofNat? (Nat.pow 10 k)

/-- The rounded product with the number nearest to `10 ^ k`. -/
def mulPow10 (x : Binary64) (k : Nat) : Option Binary64 := do
  let p ← pow10? k
  roundRatio x.negative (x.mantissa * p.mantissa) 1 (x.exponent + p.exponent)

/-- The rounded quotient by the number nearest to `10 ^ k`. -/
def divPow10 (x : Binary64) (k : Nat) : Option Binary64 := do
  let p ← pow10? k
  roundRatio x.negative x.mantissa p.mantissa (x.exponent - p.exponent)

/-- The number with the sign given. -/
def withSign (negative : Bool) (x : Binary64) : Binary64 := { x with negative := negative }

end Binary64

end PaneEngine
