import PaneEngine.Action.Token

/-!
# Texts and their tokens

How a sequence of tokens can be laid out as a text: blanks may stand anywhere
between tokens, and a word ends only where no further character belongs to it.
A text is laid out in at most one way, and the tokens of the text are what it
lays out.

## Main definitions

* `isPlain` — the characters that can stand in an action expression;
* `LaidOut` — a text lays out tokens.

## Main results

* `text_induction` — how a text begins;
* `tokens_of_laidOut` — a text lays out its tokens and no others;
* `laidOut_of_no_stray` — a text lays out its tokens if none of them is stray;
* `laidOut_append` — texts can be put side by side if no word runs on.
-/

namespace PaneEngine.Action

/-- A character that can stand in an action expression: a blank, a parenthesis or part of a
word. -/
def isPlain (c : Char) : Bool := Text.isBlank c || c = '(' || c = ')' || isWordChar c

/-- A text lays out tokens, each word as long as it can be. -/
inductive LaidOut : List Char → List Token → Prop where
  | nil : LaidOut [] []
  | blank {c : Char} {cs : List Char} {ts : List Token} (hBlank : Text.isBlank c = true)
      (hRest : LaidOut cs ts) : LaidOut (c :: cs) ts
  | opening {cs : List Char} {ts : List Token} (hRest : LaidOut cs ts) :
      LaidOut ('(' :: cs) (.opening :: ts)
  | closing {cs : List Char} {ts : List Token} (hRest : LaidOut cs ts) :
      LaidOut (')' :: cs) (.closing :: ts)
  | word {w cs : List Char} {ts : List Token} (hSome : w ≠ [])
      (hWord : ∀ c ∈ w, isWordChar c = true) (hEnd : ∀ c ∈ cs.head?, isWordChar c = false)
      (hRest : LaidOut cs ts) : LaidOut (w ++ cs) (.word w :: ts)

/-! ## Kinds of characters -/

theorem isWordChar_iff {c : Char} :
    isWordChar c = true ↔ Text.isBlank c = false ∧ Text.isControl c = false ∧ c ≠ '(' ∧
      c ≠ ')' ∧ c ≠ '"' ∧ c ≠ '\'' ∧ c ≠ '\x60' := by
  simp [isWordChar, and_assoc]

theorem isBlank_opening : Text.isBlank '(' = false := by decide

theorem isBlank_closing : Text.isBlank ')' = false := by decide

/-! ## One token of a text -/

theorem tokens_blank {c : Char} (h : Text.isBlank c = true) (cs : List Char) :
    tokens (c :: cs) = tokens cs := by
  rw [tokens, if_pos h]

theorem tokens_opening (cs : List Char) : tokens ('(' :: cs) = .opening :: tokens cs := by
  rw [tokens, if_neg (by rw [isBlank_opening]; decide), if_pos rfl]

theorem tokens_closing (cs : List Char) : tokens (')' :: cs) = .closing :: tokens cs := by
  rw [tokens, if_neg (by rw [isBlank_closing]; decide), if_neg (by decide), if_pos rfl]

/-- The first word of a text ends where the text does or another character stands. -/
theorem tokens_word {w cs : List Char} (hSome : w ≠ []) (hWord : ∀ c ∈ w, isWordChar c = true)
    (hEnd : ∀ c ∈ cs.head?, isWordChar c = false) :
    tokens (w ++ cs) = .word w :: tokens cs := by
  cases w with
  | nil => exact absurd rfl hSome
  | cons c w =>
      have hFirst := hWord c List.mem_cons_self
      have hRest : ∀ a ∈ w, isWordChar a = true := fun a ha => hWord a (List.mem_cons_of_mem _ ha)
      obtain ⟨hBlank, _, hOpening, hClosing, _⟩ := isWordChar_iff.1 hFirst
      have hTake : cs.takeWhile isWordChar = [] := by
        cases cs with
        | nil => rfl
        | cons a cs => simp [hEnd a rfl]
      have hDrop : cs.dropWhile isWordChar = cs := by
        cases cs with
        | nil => rfl
        | cons a cs => simp [hEnd a rfl]
      rw [List.cons_append, tokens, if_neg (by simp [hBlank]), if_neg hOpening, if_neg hClosing,
        if_pos hFirst, List.takeWhile_append_of_pos hRest, List.dropWhile_append_of_pos hRest,
        hTake, hDrop, List.append_nil]

/-- A stray character is the last token. -/
theorem tokens_stray {c : Char} (h : isPlain c = false) (cs : List Char) :
    tokens (c :: cs) = [.stray c] := by
  simp only [isPlain, Bool.or_eq_false_iff, decide_eq_false_iff_not] at h
  obtain ⟨⟨⟨hBlank, hOpening⟩, hClosing⟩, hWord⟩ := h
  rw [tokens, if_neg (by simp [hBlank]), if_neg hOpening, if_neg hClosing, if_neg (by simp [hWord])]

theorem not_isWordChar_head_dropWhile (cs : List Char) :
    ∀ c ∈ (cs.dropWhile isWordChar).head?, isWordChar c = false := by
  intro c hMem
  have hHead := List.head?_dropWhile_not isWordChar cs
  rw [Option.mem_def.1 hMem] at hHead
  simpa using hHead

/-- A text is empty or begins with a blank, a parenthesis, a word that ends there, or a stray
character. -/
theorem text_induction {motive : List Char → Prop}
    (nil : motive [])
    (blank : ∀ c rest, Text.isBlank c = true → motive rest → motive (c :: rest))
    (opening : ∀ rest, motive rest → motive ('(' :: rest))
    (closing : ∀ rest, motive rest → motive (')' :: rest))
    (word : ∀ w rest, w ≠ [] → (∀ c ∈ w, isWordChar c = true) →
      (∀ c ∈ rest.head?, isWordChar c = false) → motive rest → motive (w ++ rest))
    (stray : ∀ c rest, isPlain c = false → motive (c :: rest))
    (cs : List Char) : motive cs := by
  fun_induction tokens cs with
  | case1 => exact nil
  | case2 c rest hBlank ih => exact blank c rest hBlank ih
  | case3 rest _ ih => exact opening rest ih
  | case4 rest _ _ ih => exact closing rest ih
  | case5 c rest _ _ _ hWord ih =>
      have hAll : ∀ a ∈ c :: rest.takeWhile isWordChar, isWordChar a = true :=
        List.forall_mem_cons.2 ⟨hWord, List.all_eq_true.1 List.all_takeWhile⟩
      have hText : (c :: rest.takeWhile isWordChar) ++ rest.dropWhile isWordChar = c :: rest := by
        rw [List.cons_append, List.takeWhile_append_dropWhile]
      rw [← hText]
      exact word _ _ (List.cons_ne_nil _ _) hAll (not_isWordChar_head_dropWhile rest) ih
  | case6 c rest hBlank hOpening hClosing hWord =>
      exact stray c rest (by simp [isPlain, hBlank, hOpening, hClosing, hWord])

/-! ## Texts of plain characters -/

theorem isPlain_of_laidOut {cs : List Char} {ts : List Token} (h : LaidOut cs ts) :
    ∀ c ∈ cs, isPlain c = true := by
  induction h with
  | nil => simp
  | blank hBlank _ ih => exact List.forall_mem_cons.2 ⟨by simp [isPlain, hBlank], ih⟩
  | opening _ ih => exact List.forall_mem_cons.2 ⟨by simp [isPlain], ih⟩
  | closing _ ih => exact List.forall_mem_cons.2 ⟨by simp [isPlain], ih⟩
  | word _ hWord _ _ ih =>
      intro c hMem
      rcases List.mem_append.1 hMem with hHere | hRest
      · simp [isPlain, hWord c hHere]
      · exact ih c hRest

theorem tokens_of_laidOut {cs : List Char} {ts : List Token} (h : LaidOut cs ts) :
    tokens cs = ts := by
  induction h with
  | nil => rw [tokens]
  | blank hBlank _ ih => rw [tokens_blank hBlank, ih]
  | opening _ ih => rw [tokens_opening, ih]
  | closing _ ih => rw [tokens_closing, ih]
  | word hSome hWord hEnd _ ih => rw [tokens_word hSome hWord hEnd, ih]

/-- **A text lays out its tokens** if none of them is stray. -/
theorem laidOut_of_no_stray {cs : List Char} (h : ∀ c, Token.stray c ∉ tokens cs) :
    LaidOut cs (tokens cs) := by
  induction cs using text_induction with
  | nil =>
      rw [tokens]
      exact .nil
  | blank c rest hBlank ih =>
      rw [tokens_blank hBlank] at h ⊢
      exact .blank hBlank (ih h)
  | opening rest ih =>
      rw [tokens_opening] at h ⊢
      exact .opening (ih fun c hMem => h c (List.mem_cons_of_mem _ hMem))
  | closing rest ih =>
      rw [tokens_closing] at h ⊢
      exact .closing (ih fun c hMem => h c (List.mem_cons_of_mem _ hMem))
  | word w rest hSome hWord hEnd ih =>
      rw [tokens_word hSome hWord hEnd] at h ⊢
      exact .word hSome hWord hEnd (ih fun c hMem => h c (List.mem_cons_of_mem _ hMem))
  | stray c rest hPlain =>
      rw [tokens_stray hPlain] at h
      exact absurd (List.mem_singleton.2 rfl) (h c)

/-- Texts can be put side by side unless the second goes on with a word. -/
theorem laidOut_append {cs cs' : List Char} {ts ts' : List Token} (h : LaidOut cs ts)
    (h' : LaidOut cs' ts') (hEnd : ∀ c ∈ cs'.head?, isWordChar c = false) :
    LaidOut (cs ++ cs') (ts ++ ts') := by
  induction h with
  | nil => exact h'
  | blank hBlank _ ih => exact .blank hBlank ih
  | opening _ ih => exact .opening ih
  | closing _ ih => exact .closing ih
  | @word w cs ts hSome hWord hHead _ ih =>
      rw [List.append_assoc]
      refine .word hSome hWord ?_ ih
      intro c hMem
      cases cs with
      | nil => exact hEnd c hMem
      | cons a cs => exact hHead c hMem

/-- The words that a text lays out are not empty. -/
theorem word_ne_nil_of_laidOut {cs : List Char} {ts : List Token} (h : LaidOut cs ts)
    {w : List Char} (hMem : .word w ∈ ts) : w ≠ [] := by
  induction h with
  | nil => cases hMem
  | blank _ _ ih => exact ih hMem
  | opening _ ih => exact ih (List.mem_of_ne_of_mem (by simp) hMem)
  | closing _ ih => exact ih (List.mem_of_ne_of_mem (by simp) hMem)
  | word hSome _ _ _ ih =>
      rcases List.mem_cons.1 hMem with hHere | hRest
      · injection hHere with hEq
        rw [hEq]
        exact hSome
      · exact ih hRest

end PaneEngine.Action
