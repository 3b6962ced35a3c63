import PaneEngine.Decimal.Binary64

/-!
# The shortest decimal text of a double

Of all decimals that read back as the number, the one with the fewest digits is
written; of several with that many digits the nearest, an exact tie going to the
even digit.

The decimals that read back are those between the midpoints to the two
neighbouring numbers, the midpoints included when the mantissa is even.  For one
digit, two digits and so on, the two points of that decimal grid around the
number are tried; seventeen digits always suffice.

## Main definitions

* `Decimal.Interval` — the decimals that read back, over a common denominator;
* `Decimal.shortest` — digits and scale of the shortest one;
* `Decimal.Layout` — where positional notation ends and how an exponent is written;
* `Binary64.text` — the text of a number as all documents of this program have it.
-/

namespace PaneEngine

namespace Decimal

/-- The positive rationals that round to one number: `low / den` to `high / den` around
`mid / den`. -/
structure Interval where
  low : Nat
  mid : Nat
  high : Nat
  den : Nat
  /-- Whether the two ends belong to it. -/
  closed : Bool

/-- The decimals that read back as the positive number of that magnitude. -/
def Interval.ofMagnitude (magnitude : Nat) : Interval :=
  let m := Binary64.mantissaOf magnitude
  let q := Binary64.exponentOf magnitude
  let below := if m = Nat.pow 2 52 && q ≠ -1074 then 1 else 2
  let unit := if 0 ≤ q then Nat.pow 2 q.toNat else 1
  let den := if 0 ≤ q then 4 else 4 * Nat.pow 2 (-q).toNat
  { low := (4 * m - below) * unit, mid := 4 * m * unit, high := (4 * m + 2) * unit,
    den := den, closed := m % 2 = 0 }

/-- Whether `n / den` lies in the interval. -/
def Interval.contains (i : Interval) (n : Nat) : Bool :=
  if i.closed then i.low ≤ n && n ≤ i.high else i.low < n && n < i.high

/-- Both scaled by `10 ^ scale`, which may be a fraction: numerator over denominator. -/
def atScale (num den : Nat) (scale : Int) : Nat × Nat :=
  if 0 ≤ scale then (num * Nat.pow 10 scale.toNat, den) else (num, den * Nat.pow 10 (-scale).toNat)

/-- The multiple of `10 ^ -scale` in the interval that is nearest to its middle, if there is one. -/
def Interval.gridPoint? (i : Interval) (scale : Int) : Option Nat :=
  let (low, den) := atScale i.low i.den scale
  let (mid, _) := atScale i.mid i.den scale
  let (high, _) := atScale i.high i.den scale
  let j : Interval := ⟨low, mid, high, den, i.closed⟩
  let floor := mid / den
  let downIn := 0 < floor && j.contains (floor * den)
  let upIn := j.contains ((floor + 1) * den)
  let rest := mid % den
  if downIn && upIn then
    if 2 * rest < den then some floor
    else if den < 2 * rest then some (floor + 1)
    else some (floor + floor % 2)
  else if downIn then some floor
  else if upIn then some (floor + 1)
  else none

/-- Tries ever finer grids; `fuel` counts those that are left. -/
def Interval.firstGrid (i : Interval) : Nat → Int → Nat × Int
  | 0, scale => (0, scale)
  | fuel + 1, scale =>
    match i.gridPoint? scale with
    | some n => (n, scale)
    | none => i.firstGrid fuel (scale + 1)

/-- A power of ten above the number, found from its count of bits. -/
def Interval.decade (i : Interval) : Int :=
  ((Nat.log2 i.mid : Int) - Nat.log2 i.den) * 30103 / 100000 + 2

/-- The digits and the exponent of the last one, of the shortest decimal that reads back. -/
def shortest (magnitude : Nat) : List Char × Int :=
  let i := Interval.ofMagnitude magnitude
  let (n, scale) := i.firstGrid 21 (-i.decade)
  ((toString n).toList, -scale)

/-- How a decimal is laid out. -/
structure Layout where
  /-- The least exponent of the first digit for which no exponent is written. -/
  leastPositional : Int
  /-- The greatest exponent of the first digit for which no exponent is written. -/
  greatestPositional : Int
  /-- What marks the exponent. -/
  mark : Char
  /-- Whether an exponent that is not negative has a sign. -/
  plus : Bool

/-- Removes the zeros at the end, counting them. -/
def dropTrailingZeros (digits : List Char) : List Char × Nat :=
  let kept := (digits.reverse.dropWhile (· = '0')).reverse
  (kept, digits.length - kept.length)

/-- The text of `digits * 10 ^ last` in that layout. -/
def Layout.write (l : Layout) (digits : List Char) (last : Int) : List Char :=
  let (digits, dropped) := dropTrailingZeros digits
  let last := last + dropped
  let first := last + digits.length - 1
  if l.leastPositional ≤ first && first ≤ l.greatestPositional then
    if 0 ≤ last then digits ++ List.replicate last.toNat '0' ++ ['.', '0']
    else if 0 ≤ first then
      digits.take (first.toNat + 1) ++ '.' :: digits.drop (first.toNat + 1)
    else '0' :: '.' :: List.replicate (-first - 1).toNat '0' ++ digits
  else
    let head := match digits with
      | [d] => [d]
      | d :: ds => d :: '.' :: ds
      | [] => []
    let sign := if first < 0 then ['-'] else if l.plus then ['+'] else []
    head ++ l.mark :: sign ++ (toString first.natAbs).toList

/-- The text of a magnitude in that layout. -/
def Layout.magnitude (l : Layout) (magnitude : Nat) : List Char :=
  if magnitude = 0 then ['0', '.', '0']
  else
    let (digits, last) := shortest magnitude
    l.write digits last

end Decimal

namespace Binary64

/-- Numbers from `1e-5` up to `1e16` are written without an exponent and always with a point;
all others with a signed exponent. -/
def layout : Decimal.Layout :=
  { leastPositional := -5, greatestPositional := 15, mark := 'e', plus := true }

/-- The text of the number. -/
def text (x : Binary64) : String :=
  let body := layout.magnitude x.magnitude
  String.ofList (if x.negative then '-' :: body else body)

end Binary64

end PaneEngine
