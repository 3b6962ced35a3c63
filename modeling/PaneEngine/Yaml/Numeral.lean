import PaneEngine.Json.Basic

/-!
# Numbers in YAML

A plain scalar is an integer in decimal, hexadecimal, octal or binary digits,
or a decimal fraction; a leading zero before further digits makes it a text.
Integers are exact, and beyond 64 bits none has a value; a fraction has the
nearest double as its value.

## Main definitions

* `Yaml.integer?` — the value of an integer;
* `Yaml.fraction?` — the value of a fraction.
-/

namespace PaneEngine.Yaml

/-! ## Integers -/

/-- The value of a digit in a base of at most sixteen. -/
def digit? (base : Nat) (c : Char) : Option Nat :=
  let value :=
    if c.isDigit then c.toNat - '0'.toNat
    else if 'a' ≤ c && c ≤ 'f' then c.toNat - 'a'.toNat + 10
    else if 'A' ≤ c && c ≤ 'F' then c.toNat - 'A'.toNat + 10
    else base
  if value < base then some value else none

/-- The value of digits in a base, at least one. -/
def digits? (base : Nat) (cs : List Char) : Option Nat :=
  if cs.isEmpty then none
  else cs.foldlM (fun n c => (digit? base c).map fun d => n * base + d) 0

/-- A sign and what follows it; a plus is not kept. -/
def signed : List Char → Bool × List Char
  | '-' :: rest => (true, rest)
  | '+' :: rest => (false, rest)
  | cs => (false, cs)

/-- Whether digits follow a leading zero. -/
def hasLeadingZero (cs : List Char) : Bool :=
  match (signed cs).2 with
  | '0' :: d :: rest => (d :: rest).all Char.isDigit
  | _ => false

/-- The value of digits behind a sign: with the mark of another base, or decimal. -/
def magnitude? (cs : List Char) : Option Nat :=
  match cs with
  | '0' :: 'x' :: rest => digits? 16 rest
  | '0' :: 'o' :: rest => digits? 8 rest
  | '0' :: 'b' :: rest => digits? 2 rest
  | _ => digits? 10 cs

/-- The value of an integer. -/
def integer? (cs : List Char) : Option Int :=
  if hasLeadingZero cs then none
  else
    let (negative, rest) := signed cs
    (magnitude? rest).map fun n => if negative then -(n : Int) else n

/-! ## Fractions -/

/-- A decimal: sign, digits as one number, and the power of ten it is scaled by. -/
structure Decimal where
  negative : Bool
  digits : Nat
  exponent : Int

/-- The exponent at the start of a text, zero if nothing is left. -/
def exponent? : List Char → Option Int
  | [] => some 0
  | c :: rest =>
    if c = 'e' || c = 'E' then
      let (negative, ds) := signed rest
      (digits? 10 ds).map fun n => if negative then -(n : Int) else n
    else none

/-- The decimal of a text: digits with at most one point among them, and an exponent. -/
def decimal? (cs : List Char) : Option Decimal := do
  let (negative, cs) := signed cs
  let whole := cs.takeWhile Char.isDigit
  let rest := cs.drop whole.length
  let fraction := if rest.head? = some '.' then (rest.drop 1).takeWhile Char.isDigit else []
  let rest := if rest.head? = some '.' then rest.drop (fraction.length + 1) else rest
  let digits ← digits? 10 (whole ++ fraction)
  let exponent ← exponent? rest
  return ⟨negative, digits, exponent - fraction.length⟩

/-- The double nearest to a decimal; none if it is beyond the largest. -/
def Decimal.value? (d : Decimal) : Option Binary64 :=
  let places : Int := (toString d.digits).length + d.exponent
  if d.digits = 0 || places < -400 then some (Binary64.zero.withSign d.negative)
  else if 400 < places then none
  else if 0 ≤ d.exponent then
    Binary64.roundRatio d.negative (d.digits * Nat.pow 10 d.exponent.toNat) 1 0
  else Binary64.roundRatio d.negative d.digits (Nat.pow 10 (-d.exponent).toNat) 0

/-- The value of a fraction. -/
def fraction? (cs : List Char) : Option Binary64 := (decimal? cs).bind Decimal.value?

/-- The words for infinity and for no number, behind a sign or not. -/
def isUnboundedWord (cs : List Char) : Bool :=
  let infinite (cs : List Char) : Bool := [".inf", ".Inf", ".INF"].contains (String.ofList cs)
  infinite (signed cs).2 || [".nan", ".NaN", ".NAN"].contains (String.ofList cs)

end PaneEngine.Yaml
