import PaneEngine.Proofs.Json.Numeral
import PaneEngine.Proofs.Json.Quoting

/-!
# The tokens of a written document

The text of a document splits into the tokens of its parts in order.  Only a
number could run on into what follows it; in a document it is followed by a
comma or a closing bracket, which are no numeral characters.

## Main definitions

* `Json.numbers` — the numbers in a document;
* `Json.tokensOf` — the tokens of a document.

## Main results

* `tokens?_quoted`, `tokens?_number` — strings and numbers are one token;
* `tokens?_chars` — the text of a document splits into its tokens.
-/

namespace PaneEngine.Json

/-! ## The numbers and the tokens of a document -/

mutual

/-- The numbers in a document. -/
def numbers : Json → List Number
  | number n => [n]
  | array items => itemNumbers items
  | object members => memberNumbers members
  | _ => []

/-- The numbers in items. -/
def itemNumbers : List Json → List Number
  | [] => []
  | j :: rest => numbers j ++ itemNumbers rest

/-- The numbers in the values of members. -/
def memberNumbers : List (String × Json) → List Number
  | [] => []
  | (_, j) :: rest => numbers j ++ memberNumbers rest

end

mutual

/-- The tokens of a document. -/
def tokensOf : Json → List Token
  | null => [.word null]
  | bool b => [.word (bool b)]
  | number n => [.number (some n)]
  | string s => [.string (some s)]
  | array [] => [.openBracket, .closeBracket]
  | array (j :: rest) => .openBracket :: tokensOf j ++ itemTokens rest
  | object [] => [.openBrace, .closeBrace]
  | object ((k, j) :: rest) =>
    .openBrace :: .string (some k) :: .colon :: tokensOf j ++ memberTokens rest
  | unreadable => [.word null]

/-- The tokens of the items after the first, and of the closing bracket. -/
def itemTokens : List Json → List Token
  | [] => [.closeBracket]
  | j :: rest => .comma :: tokensOf j ++ itemTokens rest

/-- The tokens of the members after the first, and of the closing brace. -/
def memberTokens : List (String × Json) → List Token
  | [] => [.closeBrace]
  | (k, j) :: rest =>
    .comma :: .string (some k) :: .colon :: tokensOf j ++ memberTokens rest

end

/-! ## Single tokens -/

theorem tokens?_quoted (s : String) (rest : List Char) :
    tokens? (quoted s ++ rest) = (tokens? rest).map (.string (some s) :: ·) := by
  have hQuoted : quoted s ++ rest = '"' :: (s.toList.flatMap escaped ++ '"' :: rest) := by
    simp [quoted]
  rw [hQuoted, tokens?]
  split
  · next hNone =>
    rw [pieces?_flatMap_escaped] at hNone
    cases hNone
  · next ps rest' hPieces =>
    rw [pieces?_flatMap_escaped] at hPieces
    cases hPieces
    rw [joinPieces?_map_pieceOf, Option.map_some, String.ofList_toList]

/-- Where a numeral character stands, a numeral is read. -/
theorem tokens?_of_isNumeralChar {c : Char} (h : isNumeralChar c = true) (rest : List Char) :
    tokens? (c :: rest) =
      match numeral? (c :: rest.takeWhile isNumeralChar) with
      | none => none
      | some n => (tokens? (rest.dropWhile isNumeralChar)).map (.number n.value? :: ·) := by
  have hSpace : isSpace c = false := by
    cases hBlank : isSpace c with
    | false => rfl
    | true =>
        simp only [isSpace, Bool.or_eq_true, decide_eq_true_eq] at hBlank
        rcases hBlank with ((rfl | rfl) | rfl) | rfl
        all_goals cases h
  rw [tokens?.eq_def]
  split
  case h_1 hc => cases hc
  case h_12 hc =>
    cases hc
    rw [hSpace, h]
    rfl
  -- no bracket, comma, colon, quotation mark or first letter of a word is a numeral character
  all_goals
    next hc =>
    cases hc
    cases h

/-- What follows cannot go on a numeral. -/
def EndsNumeral (rest : List Char) : Prop := ∀ c ∈ rest.head?, isNumeralChar c = false

theorem tokens?_number {n : Number} (h : n.ReadsBack) {rest : List Char}
    (hRest : EndsNumeral rest) :
    tokens? (n.text.toList ++ rest) = (tokens? rest).map (.number (some n) :: ·) := by
  obtain ⟨m, hNumeral, hValue⟩ := Option.bind_eq_some_iff.1 h
  obtain ⟨hSome, hAll⟩ := isNumeralChar_of_numeral? hNumeral
  obtain ⟨c, cs, hText⟩ := List.exists_cons_of_ne_nil hSome
  rw [hText] at hNumeral hAll
  obtain ⟨hHead, hTail⟩ := List.forall_mem_cons.1 hAll
  have hTake : (cs ++ rest).takeWhile isNumeralChar = cs := by
    rw [List.takeWhile_append_of_pos hTail]
    cases rest with
    | nil => exact List.append_nil cs
    | cons d rest =>
        rw [List.takeWhile_cons_of_neg (by simp [hRest d rfl]), List.append_nil]
  have hDrop : (cs ++ rest).dropWhile isNumeralChar = rest := by
    rw [List.dropWhile_append_of_pos hTail]
    cases rest with
    | nil => rfl
    | cons d rest => rw [List.dropWhile_cons_of_neg (by simp [hRest d rfl])]
  rw [hText, List.cons_append, tokens?_of_isNumeralChar hHead, hTake, hDrop, hNumeral]
  simp only [hValue]

/-! ## Documents -/

theorem endsNumeral_itemChars (items : List Json) (rest : List Char) :
    EndsNumeral (itemChars items ++ rest) := by
  intro c hc
  cases items with
  | nil =>
      cases hc
      decide
  | cons j items =>
      cases hc
      decide

theorem endsNumeral_memberChars (members : List (String × Json)) (rest : List Char) :
    EndsNumeral (memberChars members ++ rest) := by
  intro c hc
  cases members with
  | nil =>
      cases hc
      decide
  | cons m members =>
      cases hc
      decide

mutual

/-- **The text of a document splits into its tokens.** -/
theorem tokens?_chars : ∀ (j : Json) {rest : List Char},
    (∀ n ∈ j.numbers, n.ReadsBack) → EndsNumeral rest →
      tokens? (chars j ++ rest) = (tokens? rest).map (tokensOf j ++ ·)
  | null, _, _, _ => by
      rw [chars, tokensOf]
      exact tokens?.eq_def _
  | bool true, _, _, _ => by
      rw [chars, tokensOf]
      exact tokens?.eq_def _
  | bool false, _, _, _ => by
      rw [chars, tokensOf]
      exact tokens?.eq_def _
  | number n, rest, hNumbers, hRest => by
      rw [chars, tokensOf]
      exact tokens?_number (hNumbers n (by simp [numbers])) hRest
  | string s, rest, _, _ => by
      rw [chars, tokensOf]
      exact tokens?_quoted s rest
  | unreadable, _, _, _ => by
      rw [chars, tokensOf]
      exact tokens?.eq_def _
  | array [], rest, _, _ => by
      simp only [chars, tokensOf, List.cons_append, List.nil_append, tokens?, Option.map_map]
      rfl
  | array (j :: items), rest, hNumbers, _ => by
      rw [numbers, itemNumbers, List.forall_mem_append] at hNumbers
      obtain ⟨hHead, hItems⟩ := hNumbers
      simp only [chars, tokensOf, List.cons_append, List.append_assoc]
      rw [tokens?, tokens?_chars j hHead (endsNumeral_itemChars items rest),
        tokens?_itemChars items hItems, Option.map_map, Option.map_map]
      rfl
  | object [], rest, _, _ => by
      simp only [chars, tokensOf, List.cons_append, List.nil_append, tokens?, Option.map_map]
      rfl
  | object ((k, j) :: members), rest, hNumbers, _ => by
      rw [numbers, memberNumbers, List.forall_mem_append] at hNumbers
      obtain ⟨hHead, hMembers⟩ := hNumbers
      simp only [chars, tokensOf, List.cons_append, List.append_assoc]
      rw [tokens?, tokens?_quoted, tokens?,
        tokens?_chars j hHead (endsNumeral_memberChars members rest),
        tokens?_memberChars members hMembers]
      simp only [Option.map_map]
      rfl

theorem tokens?_itemChars : ∀ (items : List Json) {rest : List Char},
    (∀ n ∈ itemNumbers items, n.ReadsBack) →
      tokens? (itemChars items ++ rest) = (tokens? rest).map (itemTokens items ++ ·)
  | [], rest, _ => by
      rw [itemChars, itemTokens]
      exact tokens?.eq_def _
  | j :: items, rest, hNumbers => by
      rw [itemNumbers, List.forall_mem_append] at hNumbers
      obtain ⟨hHead, hItems⟩ := hNumbers
      simp only [itemChars, itemTokens, List.cons_append, List.append_assoc]
      rw [tokens?, tokens?_chars j hHead (endsNumeral_itemChars items rest),
        tokens?_itemChars items hItems, Option.map_map, Option.map_map]
      rfl

theorem tokens?_memberChars : ∀ (members : List (String × Json)) {rest : List Char},
    (∀ n ∈ memberNumbers members, n.ReadsBack) →
      tokens? (memberChars members ++ rest) = (tokens? rest).map (memberTokens members ++ ·)
  | [], rest, _ => by
      rw [memberChars, memberTokens]
      exact tokens?.eq_def _
  | (k, j) :: members, rest, hNumbers => by
      rw [memberNumbers, List.forall_mem_append] at hNumbers
      obtain ⟨hHead, hMembers⟩ := hNumbers
      simp only [memberChars, memberTokens, List.cons_append, List.append_assoc]
      rw [tokens?, tokens?_quoted, tokens?,
        tokens?_chars j hHead (endsNumeral_memberChars members rest),
        tokens?_memberChars members hMembers]
      simp only [Option.map_map]
      rfl

end

end PaneEngine.Json
