import PaneEngine.Json.Basic

/-!
# Tokens of JSON text

The text of a document is a sequence of brackets, commas, colons, words,
numbers and quoted strings, with blanks (space, tab, line feed, carriage return)
between them.

A string is first read into *pieces*, characters and 16-bit units, since only
neighbouring units decide whether an escape has a value: a high surrogate is
worth something only before a low one.

A number is read from its digits: integers are collected while they fit 64
bits; the digits after that move the exponent (before the point) or are
ignored (behind it).  The result is scaled by one product or quotient of
doubles, or by several when the exponent is below that of the least power of
ten that is a double, so it may differ from the nearest number in the last place.

## Main definitions

* `Json.Numeral`, `Json.Numeral.value?` — numbers as written and their values;
* `Json.readString?` — the characters of a quoted string;
* `Json.Token`, `Json.tokens?` — the tokens of a text.
-/

namespace PaneEngine.Json

/-! ## Numbers -/

/-- A number as written. -/
structure Numeral where
  negative : Bool
  /-- The digits before the point. -/
  whole : List Nat
  /-- The digits behind the point, if there is one. -/
  fraction : Option (List Nat)
  /-- Sign and digits of the exponent, if there is one. -/
  exponent : Option (Bool × List Nat)

/-- Reads digits into a number of 64 bits, up to the first that no longer fits. -/
def collectDigits (value : Nat) : List Nat → Nat × List Nat
  | [] => (value, [])
  | d :: ds =>
    let next := value * 10 + d
    if next < Nat.pow 2 64 then collectDigits next ds else (value, d :: ds)

/-- The value of a digit string. -/
def digitsValue (ds : List Nat) : Nat := ds.foldl (fun n d => n * 10 + d) 0

/-- The greatest power of ten that is a double. -/
def greatestPow10 : Nat := 308

/-- Divides that many times by the greatest power of ten that is a double. -/
def divideSteps : Nat → Binary64 → Option Binary64
  | 0, x => some x
  | steps + 1, x =>
    if x.magnitude = 0 then some x
    else (x.divPow10 greatestPow10).bind (divideSteps steps)

/-- Divides by `10 ^ k`, in steps where that power is no double. -/
def divideDown (x : Binary64) (k : Nat) : Option Binary64 :=
  let steps := (k - 1) / greatestPow10
  (divideSteps steps x).bind fun y => y.divPow10 (k - steps * greatestPow10)

/-- `significand * 10 ^ exponent`, rounded after each step; none beyond the largest double. -/
def scaleBy10 (negative : Bool) (significand : Nat) (exponent : Int) : Option Binary64 := do
  let x ← Binary64.ofNat? significand
  let y ←
    if 0 ≤ exponent then
      if exponent.toNat ≤ greatestPow10 then x.mulPow10 exponent.toNat
      else if significand = 0 then some x else none
    else divideDown x (-exponent).toNat
  return y.withSign negative

/-- The value of a number as written; none if it is beyond the range of a double. -/
def Numeral.value? (n : Numeral) : Option Number :=
  let (head, more) := collectDigits 0 n.whole
  if more = [] && n.fraction = none && n.exponent = none
      && (!n.negative || (0 < head && head ≤ Nat.pow 2 63)) then
    some (.int (if n.negative then -(head : Int) else head))
  else
    let (significand, scale) : Nat × Int := match n.fraction with
      | none => (head, more.length)
      | some ds =>
        let (s, unread) := collectDigits head ds
        (s, more.length - (ds.length - unread.length : Nat))
    match n.exponent with
    | none => (scaleBy10 n.negative significand scale).map .double
    | some (down, ds) =>
      let e := digitsValue ds
      if e < Nat.pow 2 31 then
        (scaleBy10 n.negative significand (if down then scale - e else scale + e)).map .double
      else if significand ≠ 0 && !down then none
      else some (.double (Binary64.zero.withSign n.negative))

/-- The digits at the start of the text. -/
def digitsPrefix (cs : List Char) : List Nat × List Char :=
  ((cs.takeWhile Char.isDigit).map fun c => c.toNat - '0'.toNat, cs.dropWhile Char.isDigit)

/-- Reads the part from the exponent mark on. -/
def exponentOf? : List Char → Option (Option (Bool × List Nat))
  | [] => some none
  | mark :: rest =>
    if mark = 'e' || mark = 'E' then
      let (down, rest) := match rest with
        | '-' :: r => (true, r)
        | '+' :: r => (false, r)
        | r => (false, r)
      match digitsPrefix rest with
      | ([], _) => none
      | (ds, []) => some (some (down, ds))
      | (_, _ :: _) => none
    else none

/-- Reads a number: no leading zero, digits on both sides of a point, digits in an exponent. -/
def numeral? (cs : List Char) : Option Numeral :=
  let (negative, cs) := match cs with
    | '-' :: r => (true, r)
    | r => (false, r)
  let (whole, rest) := digitsPrefix cs
  match whole with
  | [] => none
  | 0 :: _ :: _ => none
  | _ =>
    match rest with
    | '.' :: r =>
      match digitsPrefix r with
      | ([], _) => none
      | (ds, r) => (exponentOf? r).map fun e => ⟨negative, whole, some ds, e⟩
    | r => (exponentOf? r).map fun e => ⟨negative, whole, none, e⟩

/-- The characters a number may consist of. -/
def isNumeralChar (c : Char) : Bool :=
  c.isDigit || c = '-' || c = '+' || c = '.' || c = 'e' || c = 'E'

/-! ## Strings -/

/-- A character of a quoted string, or one 16-bit unit from an escape. -/
inductive Piece where
  | char (c : Char)
  | unit (n : Nat)

/-- The value of a hexadecimal digit. -/
def hexDigit? (c : Char) : Option Nat :=
  if c.isDigit then some (c.toNat - '0'.toNat)
  else if 'a' ≤ c && c ≤ 'f' then some (c.toNat - 'a'.toNat + 10)
  else if 'A' ≤ c && c ≤ 'F' then some (c.toNat - 'A'.toNat + 10)
  else none

/-- The characters that a backslash and one letter stand for. -/
def simpleEscape? : Char → Option Char
  | '"' => some '"'
  | '\\' => some '\\'
  | '/' => some '/'
  | 'b' => some '\x08'
  | 'f' => some '\x0c'
  | 'n' => some '\n'
  | 'r' => some '\r'
  | 't' => some '\t'
  | _ => none

/-- Reads the inside of a quoted string up to the closing quote, which it removes. -/
def pieces? : List Char → Option (List Piece × List Char)
  | [] => none
  | '"' :: rest => some ([], rest)
  | '\\' :: 'u' :: a :: b :: c :: d :: rest => do
    let a ← hexDigit? a
    let b ← hexDigit? b
    let c ← hexDigit? c
    let d ← hexDigit? d
    let (ps, rest) ← pieces? rest
    return (.unit (((a * 16 + b) * 16 + c) * 16 + d) :: ps, rest)
  | '\\' :: e :: rest => do
    let c ← simpleEscape? e
    let (ps, rest) ← pieces? rest
    return (.char c :: ps, rest)
  | c :: rest =>
    if c = '\\' || c.toNat < 0x20 then none
    else do
      let (ps, rest) ← pieces? rest
      return (.char c :: ps, rest)

theorem length_of_pieces? {cs rest : List Char} {ps : List Piece}
    (h : pieces? cs = some (ps, rest)) : rest.length < cs.length := by
  fun_induction pieces? cs generalizing ps rest with
  | case1 => simp at h
  | case2 r => simp_all
  | case3 a b c d r ih =>
    simp only [Option.bind_eq_bind, Option.bind_eq_some_iff] at h
    obtain ⟨_, _, _, _, _, _, _, _, ⟨ps', r'⟩, hr, h⟩ := h
    have := ih hr
    simp only [Option.pure_def, Option.some.injEq, Prod.mk.injEq] at h
    obtain ⟨_, rfl⟩ := h
    simp only [List.length_cons]
    omega
  | case4 e r _ ih =>
    simp only [Option.bind_eq_bind, Option.bind_eq_some_iff] at h
    obtain ⟨_, _, ⟨ps', r'⟩, hr, h⟩ := h
    have := ih hr
    simp only [Option.pure_def, Option.some.injEq, Prod.mk.injEq] at h
    obtain ⟨_, rfl⟩ := h
    simp only [List.length_cons]
    omega
  | case5 => simp at h
  | case6 c r _ _ _ _ ih =>
    simp only [Option.bind_eq_bind, Option.bind_eq_some_iff] at h
    obtain ⟨⟨ps', r'⟩, hr, h⟩ := h
    have := ih hr
    simp only [Option.pure_def, Option.some.injEq, Prod.mk.injEq] at h
    obtain ⟨_, rfl⟩ := h
    simp only [List.length_cons]
    omega

/-- Whether the unit is the first half of a pair. -/
def isHighSurrogate (n : Nat) : Bool := 0xD800 ≤ n && n < 0xDC00

/-- Whether the unit is the second half of a pair. -/
def isLowSurrogate (n : Nat) : Bool := 0xDC00 ≤ n && n < 0xE000

/-- Joins the units; none if half a pair stands alone. -/
def joinPieces? : List Piece → Option (List Char)
  | [] => some []
  | .char c :: rest => (joinPieces? rest).map (c :: ·)
  | [.unit n] =>
    if isHighSurrogate n || isLowSurrogate n then none else some [Char.ofNat n]
  | .unit n :: .unit m :: rest =>
    if isHighSurrogate n then
      if isLowSurrogate m then
        (joinPieces? rest).map
          (Char.ofNat (0x10000 + (n - 0xD800) * 0x400 + (m - 0xDC00)) :: ·)
      else none
    else if isLowSurrogate n then none
    else (joinPieces? (.unit m :: rest)).map (Char.ofNat n :: ·)
  | .unit n :: .char c :: rest =>
    if isHighSurrogate n || isLowSurrogate n then none
    else (joinPieces? (.char c :: rest)).map (Char.ofNat n :: ·)

/-! ## Tokens -/

/-- A token; a string or number without a value is none. -/
inductive Token where
  | openBrace
  | closeBrace
  | openBracket
  | closeBracket
  | comma
  | colon
  | word (value : Json)
  | number (value : Option Number)
  | string (value : Option String)

/-- Blanks between tokens. -/
def isSpace (c : Char) : Bool := c = ' ' || c = '\t' || c = '\n' || c = '\r'

/-- The tokens of a text, if it consists of tokens. -/
def tokens? (cs : List Char) : Option (List Token) :=
  match cs with
  | [] => some []
  | '\x7b' :: rest => (tokens? rest).map (.openBrace :: ·)
  | '\x7d' :: rest => (tokens? rest).map (.closeBrace :: ·)
  | '[' :: rest => (tokens? rest).map (.openBracket :: ·)
  | ']' :: rest => (tokens? rest).map (.closeBracket :: ·)
  | ',' :: rest => (tokens? rest).map (.comma :: ·)
  | ':' :: rest => (tokens? rest).map (.colon :: ·)
  | '"' :: rest =>
    match _h : pieces? rest with
    | none => none
    | some (ps, rest') =>
      (tokens? rest').map (.string ((joinPieces? ps).map String.ofList) :: ·)
  | 't' :: 'r' :: 'u' :: 'e' :: rest => (tokens? rest).map (.word (.bool true) :: ·)
  | 'f' :: 'a' :: 'l' :: 's' :: 'e' :: rest => (tokens? rest).map (.word (.bool false) :: ·)
  | 'n' :: 'u' :: 'l' :: 'l' :: rest => (tokens? rest).map (.word .null :: ·)
  | c :: rest =>
    if isSpace c then tokens? rest
    else if isNumeralChar c then
      match numeral? (c :: rest.takeWhile isNumeralChar) with
      | none => none
      | some n => (tokens? (rest.dropWhile isNumeralChar)).map (.number n.value? :: ·)
    else none
termination_by cs.length
decreasing_by
  all_goals simp only [List.length_cons]
  all_goals first
    | omega
    | exact Nat.lt_succ_of_lt (length_of_pieces? _h)
    | exact Nat.lt_succ_of_le (List.dropWhile_sublist isNumeralChar).length_le

end PaneEngine.Json
