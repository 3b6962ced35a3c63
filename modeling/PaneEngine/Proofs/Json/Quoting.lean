import PaneEngine.Json.Token
import PaneEngine.Json.Writer

/-!
# Quoted strings are read back

Every character of a string is written as one piece: as itself, as a letter
behind a backslash, or, if it is a control character without such a letter, as
one 16-bit unit.  A unit below U+0020 is no half of a pair, so the pieces can
be joined one by one, whatever stands next to them.

## Main results

* `hexDigit?_hexChar` — hexadecimal digits are read back;
* `pieces?_escaped` — a character as written is one piece;
* `pieces?_flatMap_escaped`, `joinPieces?_map_pieceOf` — a string as written is read back.
-/

namespace PaneEngine.Json

theorem hexDigit?_hexChar : ∀ n < 16, hexDigit? (hexChar n) = some n := by decide

/-- The piece that a character is written as. -/
def pieceOf (c : Char) : Piece :=
  if c.toNat < 0x20 ∧ c ∉ ['\n', '\r', '\t', '\x08', '\x0c'] then .unit c.toNat else .char c

/-- A character that stands for itself. -/
theorem pieces?_plain {c : Char} (hQuote : c ≠ '"') (hBackslash : c ≠ '\\')
    (hControl : ¬ c.toNat < 0x20) (rest : List Char) :
    pieces? (c :: rest) = (pieces? rest).bind fun p => some (.char c :: p.1, p.2) := by
  rw [pieces?.eq_def]
  split
  · contradiction
  · next h => exact absurd (List.cons.inj h).1 hQuote
  · next h => exact absurd (List.cons.inj h).1 hBackslash
  · next h => exact absurd (List.cons.inj h).1 hBackslash
  · next h =>
    obtain ⟨rfl, rfl⟩ := List.cons.inj h
    rw [if_neg (by simp [hBackslash, hControl])]
    rfl

/-- A control character as four hexadecimal digits. -/
theorem pieces?_unit {n : Nat} (h : n < 0x20) (rest : List Char) :
    pieces? ('\\' :: 'u' :: '0' :: '0' :: hexChar (n / 16) :: hexChar (n % 16) :: rest) =
      (pieces? rest).bind fun p => some (.unit n :: p.1, p.2) := by
  have hHigh := hexDigit?_hexChar (n / 16) (by omega)
  have hLow := hexDigit?_hexChar (n % 16) (by omega)
  have hZero : hexDigit? '0' = some 0 := by decide
  have hValue : ((0 * 16 + 0) * 16 + n / 16) * 16 + n % 16 = n := by omega
  rw [pieces?, hZero, hHigh, hLow]
  simp only [Option.bind_eq_bind, Option.bind_some, hValue]
  rfl

/-- **A character as written is one piece.** -/
theorem pieces?_escaped (c : Char) (rest : List Char) :
    pieces? (escaped c ++ rest) =
      (pieces? rest).bind fun p => some (pieceOf c :: p.1, p.2) := by
  by_cases hLetter : c ∈ ['"', '\\', '\n', '\r', '\t', '\x08', '\x0c']
  · simp only [List.mem_cons, List.not_mem_nil, or_false] at hLetter
    rcases hLetter with rfl | rfl | rfl | rfl | rfl | rfl | rfl
    all_goals rfl
  · simp only [List.mem_cons, List.not_mem_nil, or_false, not_or] at hLetter
    obtain ⟨hQuote, hBackslash, hN, hR, hT, hB, hF⟩ := hLetter
    unfold escaped pieceOf
    rw [if_neg hQuote, if_neg hBackslash, if_neg hN, if_neg hR, if_neg hT, if_neg hB, if_neg hF]
    by_cases hControl : c.toNat < 0x20
    · rw [if_pos hControl, if_pos ⟨hControl, by simp [hN, hR, hT, hB, hF]⟩]
      exact pieces?_unit hControl rest
    · rw [if_neg hControl, if_neg fun h => hControl h.1]
      exact pieces?_plain hQuote hBackslash hControl rest

theorem pieces?_flatMap_escaped (cs rest : List Char) :
    pieces? (cs.flatMap escaped ++ '"' :: rest) = some (cs.map pieceOf, rest) := by
  induction cs with
  | nil => rfl
  | cons c cs ih =>
      rw [List.flatMap_cons, List.append_assoc, pieces?_escaped, ih]
      rfl

/-- A unit that is no half of a pair is joined by itself. -/
theorem joinPieces?_unit {n : Nat} (h : n < 0xD800) (ps : List Piece) :
    joinPieces? (.unit n :: ps) = (joinPieces? ps).map (Char.ofNat n :: ·) := by
  have hHigh : isHighSurrogate n = false := by
    simp only [isHighSurrogate, Bool.and_eq_false_iff, decide_eq_false_iff_not]
    omega
  have hLow : isLowSurrogate n = false := by
    simp only [isLowSurrogate, Bool.and_eq_false_iff, decide_eq_false_iff_not]
    omega
  cases ps with
  | nil => simp [joinPieces?, hHigh, hLow]
  | cons p ps =>
      cases p with
      | char c => simp [joinPieces?, hHigh, hLow]
      | unit m => rw [joinPieces?, if_neg (by simp [hHigh]), if_neg (by simp [hLow])]

theorem joinPieces?_map_pieceOf (cs : List Char) :
    joinPieces? (cs.map pieceOf) = some cs := by
  induction cs with
  | nil => rfl
  | cons c cs ih =>
      rw [List.map_cons, pieceOf]
      split
      · next h =>
        rw [joinPieces?_unit (by omega), ih, Char.ofNat_toNat]
        rfl
      · rw [joinPieces?, ih]
        rfl

end PaneEngine.Json
