import PaneEngine.Proofs.Action.Grammar
import PaneEngine.Proofs.Results

/-!
# Texts that go on

The tokens of a text stay what they are when the text goes on, but for a word
at its end, which may become longer.  Whether a word can stand at a place does
not depend on its characters, so an error that a token has is there in every
continuation too.

If no token has an error, the lists that are open can be closed, and if there
is no term yet, one can be put behind.  So an error is reported as soon as no
continuation has terms.  Only two errors are found at the end of a text and not
at a token: that a list is still open, and that there is no term.

## Main definitions

* `reading` — the reading of all tokens of a text;
* `OpenAtEnd`, `ClosesNothing` — the two ways for parentheses to be unbalanced;
* `GoesOn` — what tokens become when the text goes on.

## Main results

* `goesOn_tokens` — the tokens of a text that goes on;
* `reading_error_lasts` — an error that a token has is there in every continuation;
* `exists_continuation_iff` — a text has a continuation with terms if no token has an error;
* `failure_is_prompt` — an error is reported as soon as no continuation can succeed.
-/

namespace PaneEngine.Action

open Term (tokensOf heightOf)

/-! ## Readings of texts -/

/-- The reading of all tokens of a text, where none has an error. -/
def reading (s : String) : Except ParseError Reading :=
  (tokens s.toList).foldlM Reading.step .start

/-- All tokens of the text can be read, and behind them lists are still open. -/
def OpenAtEnd (s : String) : Prop := ∃ r, reading s = .ok r ∧ r.stack ≠ []

/-- Before all other tokens of the text stands a closing parenthesis. -/
def ClosesNothing (s : String) : Prop :=
  ∃ before after, s.toList = before ++ ')' :: after ∧ ∀ c ∈ before, Text.isBlank c = true

theorem readTerms_eq (s : String) : readTerms s = reading s >>= Reading.finish := rfl

theorem holds_reading {s : String} {r : Reading} (h : reading s = .ok r) :
    r.Holds (tokens s.toList) :=
  Reading.holds_foldlM Reading.holds_start h

theorem Reading.Holds.surplus_eq_false {r : Reading} {ts : List Token} (h : r.Holds ts)
    (hComplete : r.complete = []) : r.surplus = false := by
  cases hLeft : r.surplus with
  | false => rfl
  | true => exact absurd hComplete (h.surplus hLeft).2

/-- Where no term and no list has been read, there were no tokens. -/
theorem Reading.Holds.eq_nil {r : Reading} {ts : List Token} (h : r.Holds ts)
    (hStack : r.stack = []) (hComplete : r.complete = []) : ts = [] := by
  obtain ⟨k, hWritten, hNone⟩ := h.written
  rw [hWritten, hNone (h.surplus_eq_false hComplete), Reading.written, hStack, hComplete]
  rfl

/-! ## Tokens of a text that goes on -/

/-- What the tokens of a text become when it goes on: more stand behind them, and a word at the end
may be longer. -/
inductive GoesOn : List Token → List Token → Prop where
  | more (ts later : List Token) : GoesOn ts (ts ++ later)
  | longer (ts : List Token) (w w' : List Char) (later : List Token) :
      GoesOn (ts ++ [.word w]) (ts ++ .word (w ++ w') :: later)

theorem GoesOn.cons {ts ts' : List Token} (t : Token) (h : GoesOn ts ts') :
    GoesOn (t :: ts) (t :: ts') := by
  cases h with
  | more ts later => exact .more (t :: ts) later
  | longer ts w w' later => exact .longer (t :: ts) w w' later

/-- A run of word characters takes what it can of the text behind it. -/
theorem tokens_run {w : List Char} (hSome : w ≠ []) (hWord : ∀ c ∈ w, isWordChar c = true)
    (cs : List Char) :
    tokens (w ++ cs) =
      .word (w ++ cs.takeWhile isWordChar) :: tokens (cs.dropWhile isWordChar) := by
  have hAll : ∀ c ∈ w ++ cs.takeWhile isWordChar, isWordChar c = true :=
    List.forall_mem_append.2 ⟨hWord, List.all_eq_true.1 List.all_takeWhile⟩
  rw [← tokens_word (List.append_ne_nil_of_left_ne_nil hSome _) hAll
    (not_isWordChar_head_dropWhile cs), List.append_assoc, List.takeWhile_append_dropWhile]

/-- **The tokens of a text that goes on.** -/
theorem goesOn_tokens (cs more : List Char) : GoesOn (tokens cs) (tokens (cs ++ more)) := by
  induction cs using text_induction with
  | nil =>
      rw [tokens]
      exact .more [] _
  | blank c rest hBlank ih =>
      rw [List.cons_append, tokens_blank hBlank, tokens_blank hBlank]
      exact ih
  | opening rest ih =>
      rw [List.cons_append, tokens_opening, tokens_opening]
      exact ih.cons _
  | closing rest ih =>
      rw [List.cons_append, tokens_closing, tokens_closing]
      exact ih.cons _
  | word w rest hSome hWord hEnd ih =>
      rw [tokens_word hSome hWord hEnd, List.append_assoc]
      cases rest with
      | nil =>
          -- the word is the last token and takes what it can of the continuation
          rw [List.nil_append, tokens_run hSome hWord, tokens]
          exact .longer [] _ _ _
      | cons d behind =>
          have hFirst : tokens (w ++ (d :: behind ++ more)) = _ := tokens_word hSome hWord hEnd
          rw [hFirst]
          exact ih.cons _
  | stray c rest hPlain =>
      rw [List.cons_append, tokens_stray hPlain, tokens_stray hPlain]
      exact .more [.stray c] []

/-! ## Errors of tokens -/

/-- Whether a word can stand at a place does not depend on its characters. -/
theorem Reading.step_word_error {r : Reading} {w : List Char} {e : ParseError}
    (h : r.step (.word w) = .error e) (w' : List Char) : r.step (.word w') = .error e := by
  rw [step] at h ⊢
  split at h
  · next hSurplus =>
    rw [if_pos hSurplus]
    exact h
  · cases h

/-- An error that a token has is there however the tokens go on. -/
theorem foldlM_error_of_goesOn {ts ts' : List Token} (h : GoesOn ts ts') {r : Reading}
    {e : ParseError} (hError : ts.foldlM Reading.step r = .error e) :
    ts'.foldlM Reading.step r = .error e := by
  cases h with
  | more ts later =>
      rw [List.foldlM_append, hError]
      rfl
  | longer ts w w' later =>
      rw [List.foldlM_append, bind_eq_error_iff] at hError ⊢
      rcases hError with hBefore | ⟨r', hBefore, hWord⟩
      · exact .inl hBefore
      · have hStep : r'.step (.word w) = .error e := by
          rw [List.foldlM_cons, bind_eq_error_iff] at hWord
          rcases hWord with hHere | ⟨_, _, hNil⟩
          · exact hHere
          · cases hNil
        refine .inr ⟨r', hBefore, ?_⟩
        rw [List.foldlM_cons, Reading.step_word_error hStep]
        rfl

/-- **An error that a token has is there in every continuation.** -/
theorem reading_error_lasts {s : String} {e : ParseError} (h : reading s = .error e)
    (more : String) : reading (s ++ more) = .error e := by
  rw [reading, String.toList_append]
  exact foldlM_error_of_goesOn (goesOn_tokens s.toList more.toList) h

/-- What can be wrong at a token. -/
theorem Reading.step_eq_error_iff {r : Reading} {t : Token} {e : ParseError} :
    r.step t = .error e ↔
      (∃ c, t = .stray c ∧ e = .unexpected c) ∨
      (t = .closing ∧ r.stack = [] ∧ r.complete = [] ∧ e = .unbalanced) ∨
      ((t = .opening ∨ ∃ w, t = .word w) ∧ r.surplus = true ∧ e = .trailingInput) ∨
      (t = .opening ∧ r.surplus = false ∧ r.stack.length = maxDepth ∧ e = .tooDeep) := by
  obtain ⟨stack, complete, surplus⟩ := r
  cases t with
  | stray c => simp [step, eq_comm]
  | word w => cases surplus <;> simp [step, eq_comm]
  | opening =>
      cases surplus with
      | true => simp [step, eq_comm]
      | false => by_cases hFull : stack.length = maxDepth <;> simp [step, hFull, eq_comm]
  | closing =>
      cases stack with
      | cons items outer => simp [step, close]
      | nil => cases complete <;> simp [step, close, eq_comm]

/-- The first token that has an error, and what has been read before it. -/
theorem exists_step_of_foldlM_error {ts : List Token} {r : Reading} {e : ParseError}
    (h : ts.foldlM Reading.step r = .error e) :
    ∃ before t after r', ts = before ++ t :: after ∧ before.foldlM Reading.step r = .ok r' ∧
      r'.step t = .error e := by
  induction ts generalizing r with
  | nil => cases h
  | cons t rest ih =>
      rw [List.foldlM_cons, bind_eq_error_iff] at h
      rcases h with hHere | ⟨next, hStep, hRest⟩
      · exact ⟨[], t, rest, r, rfl, rfl, hHere⟩
      · obtain ⟨before, t', after, r', rfl, hBefore, hError⟩ := ih hRest
        refine ⟨t :: before, t', after, r', rfl, ?_, hError⟩
        rw [List.foldlM_cons, hStep]
        exact hBefore

/-- No token has the error that there is no term. -/
theorem reading_ne_empty (s : String) : reading s ≠ .error .empty := by
  intro h
  obtain ⟨_, _, _, _, _, _, hStep⟩ := exists_step_of_foldlM_error h
  simpa using Reading.step_eq_error_iff.1 hStep

theorem readTerms_of_reading_error {s : String} {e : ParseError} (h : reading s = .error e) :
    readTerms s = .error e := by
  rw [readTerms_eq, h]
  rfl

/-- At the end of a text two errors are found. -/
theorem finish_eq_error_iff {r : Reading} {e : ParseError} :
    r.finish = .error e ↔
      (r.stack ≠ [] ∧ e = .unbalanced) ∨ (r.stack = [] ∧ r.complete = [] ∧ e = .empty) := by
  obtain ⟨stack, complete, surplus⟩ := r
  cases stack with
  | cons items outer => simp [Reading.finish, eq_comm]
  | nil => cases complete <;> simp [Reading.finish, eq_comm]

theorem readTerms_eq_error_iff {s : String} {e : ParseError} :
    readTerms s = .error e ↔ reading s = .error e ∨ (OpenAtEnd s ∧ e = .unbalanced) ∨
      ∃ r, reading s = .ok r ∧ r.stack = [] ∧ r.complete = [] ∧ e = .empty := by
  rw [readTerms_eq, bind_eq_error_iff]
  simp only [finish_eq_error_iff, OpenAtEnd]
  constructor
  · rintro (hError | ⟨r, hRead, (⟨hStack, hKind⟩ | hNothing)⟩)
    · exact .inl hError
    · exact .inr (.inl ⟨⟨r, hRead, hStack⟩, hKind⟩)
    · exact .inr (.inr ⟨r, hRead, hNothing⟩)
  · rintro (hError | ⟨⟨r, hRead, hStack⟩, hKind⟩ | ⟨r, hRead, hNothing⟩)
    · exact .inl hError
    · exact .inr ⟨r, hRead, .inl ⟨hStack, hKind⟩⟩
    · exact .inr ⟨r, hRead, .inr hNothing⟩

/-! ## Parentheses that close nothing -/

theorem tokens_blanks {gap : List Char} (hGap : ∀ c ∈ gap, Text.isBlank c = true)
    (cs : List Char) : tokens (gap ++ cs) = tokens cs := by
  induction gap with
  | nil => rfl
  | cons c gap ih =>
      obtain ⟨hc, hRest⟩ := List.forall_mem_cons.1 hGap
      rw [List.cons_append, tokens_blank hc, ih hRest]

/-- The first token is a closing parenthesis exactly if only blanks stand before one. -/
theorem closing_first_iff {cs : List Char} :
    (∃ later, tokens cs = .closing :: later) ↔
      ∃ before after, cs = before ++ ')' :: after ∧ ∀ c ∈ before, Text.isBlank c = true := by
  constructor
  · rintro ⟨later, hTokens⟩
    induction cs using text_induction with
    | blank c rest hBlank ih =>
        rw [tokens_blank hBlank] at hTokens
        obtain ⟨before, after, rfl, hBefore⟩ := ih hTokens
        exact ⟨c :: before, after, rfl, List.forall_mem_cons.2 ⟨hBlank, hBefore⟩⟩
    | closing rest _ => exact ⟨[], rest, rfl, by simp⟩
    | nil =>
        rw [tokens] at hTokens
        cases hTokens
    | opening rest _ =>
        rw [tokens_opening] at hTokens
        cases hTokens
    | word w rest hSome hWord hEnd _ =>
        rw [tokens_word hSome hWord hEnd] at hTokens
        cases hTokens
    | stray c rest hPlain =>
        rw [tokens_stray hPlain] at hTokens
        cases hTokens
  · rintro ⟨before, after, rfl, hBefore⟩
    exact ⟨tokens after, by rw [tokens_blanks hBefore, tokens_closing]⟩

/-- Of the tokens, only a closing one before all others makes parentheses unbalanced. -/
theorem closing_first_of_unbalanced {ts : List Token}
    (h : ts.foldlM Reading.step .start = .error .unbalanced) : ∃ later, ts = .closing :: later := by
  obtain ⟨before, t, later, r, rfl, hBefore, hStep⟩ := exists_step_of_foldlM_error h
  obtain ⟨rfl, hStack, hComplete⟩ :
      t = .closing ∧ r.stack = [] ∧ r.complete = [] := by
    simpa using Reading.step_eq_error_iff.1 hStep
  have hNothing := (Reading.holds_foldlM Reading.holds_start hBefore).eq_nil hStack hComplete
  rw [List.nil_append] at hNothing
  exact ⟨later, by rw [hNothing, List.nil_append]⟩

theorem reading_unbalanced_iff {s : String} :
    reading s = .error .unbalanced ↔ ClosesNothing s := by
  rw [ClosesNothing, ← closing_first_iff]
  constructor
  · exact closing_first_of_unbalanced
  · rintro ⟨later, hTokens⟩
    rw [reading, hTokens]
    rfl

/-! ## Continuations with terms -/

theorem stray_not_mem_of_foldlM {ts : List Token} {r r' : Reading}
    (h : ts.foldlM Reading.step r = .ok r') (c : Char) : Token.stray c ∉ ts := by
  intro hMem
  obtain ⟨before, after, rfl⟩ := List.append_of_mem hMem
  rw [List.foldlM_append, bind_eq_ok_iff] at h
  obtain ⟨_, _, hStray⟩ := h
  rw [List.foldlM_cons, bind_eq_ok_iff] at hStray
  obtain ⟨_, hStep, _⟩ := hStray
  cases hStep

/-- A text whose tokens can be read, with other tokens laid out behind it. -/
theorem readTerms_append {s more : String} {r : Reading} {ts : List Token}
    (hRead : reading s = .ok r) (hLaid : LaidOut more.toList ts)
    (hEnd : ∀ c ∈ more.toList.head?, isWordChar c = false) :
    readTerms (s ++ more) = ts.foldlM Reading.step r >>= Reading.finish := by
  have hFirst : LaidOut s.toList (tokens s.toList) :=
    laidOut_of_no_stray (stray_not_mem_of_foldlM hRead)
  have hTokens := tokens_of_laidOut (laidOut_append hFirst hLaid hEnd)
  have hBoth : reading (s ++ more) = ts.foldlM Reading.step r := by
    rw [reading, String.toList_append, hTokens, List.foldlM_append]
    exact congrArg (· >>= fun r => ts.foldlM Reading.step r) hRead
  rw [readTerms_eq, hBoth]

/-- Closing all open lists completes a term. -/
theorem foldlM_close_all (items : List Term) (outer : List (List Term)) (complete : List Term)
    (surplus : Bool) :
    ∃ t, (List.replicate (outer.length + 1) Token.closing).foldlM Reading.step
      ⟨items :: outer, complete, surplus⟩ = .ok ⟨[], t :: complete, surplus⟩ := by
  induction outer generalizing items with
  | nil => exact ⟨.list items.reverse, rfl⟩
  | cons items' outer ih => exact ih (.list items.reverse :: items')

/-- **A text has a continuation with terms** if all its tokens can be read. -/
theorem exists_continuation {s : String} {r : Reading} (h : reading s = .ok r) :
    ∃ more es, readTerms (s ++ more) = .ok es := by
  have hHolds := holds_reading h
  obtain ⟨stack, complete, surplus⟩ := r
  cases stack with
  | cons items outer =>
      obtain ⟨t, hClosed⟩ := foldlM_close_all items outer complete surplus
      let more := String.ofList (List.replicate (outer.length + 1) ')')
      have hText : more.toList = List.replicate (outer.length + 1) ')' := String.toList_ofList
      have hLaid : LaidOut more.toList (List.replicate (outer.length + 1) .closing) :=
        hText ▸ laidOut_closing _
      refine ⟨more, (t :: complete).reverse, ?_⟩
      rw [readTerms_append h hLaid (hText ▸ not_isWordChar_head_closing _), hClosed]
      rfl
  | nil =>
      cases complete with
      | nil =>
          have hSurplus : surplus = false := hHolds.surplus_eq_false rfl
          have hLaid : LaidOut "()".toList [.opening, .closing] := .opening (.closing .nil)
          refine ⟨"()", [.list []], ?_⟩
          have hEnd : ∀ c ∈ "()".toList.head?, isWordChar c = false := by
            intro c hMem
            cases hMem
            decide
          rw [readTerms_append h hLaid hEnd, hSurplus]
          rfl
      | cons t rest =>
          refine ⟨"", (t :: rest).reverse, ?_⟩
          rw [String.append_empty, readTerms_eq, h]
          rfl

/-- A text has a continuation with terms exactly if it has terms, is empty or a list is open at its
end. -/
theorem exists_continuation_iff {s : String} :
    (∃ more es, readTerms (s ++ more) = .ok es) ↔
      (∃ es, readTerms s = .ok es) ∨ readTerms s = .error .empty ∨ OpenAtEnd s := by
  constructor
  · rintro ⟨more, es, hOk⟩
    cases hRead : reading s with
    | error e =>
        rw [readTerms_of_reading_error (reading_error_lasts hRead more)] at hOk
        cases hOk
    | ok r =>
        rw [readTerms_eq, hRead]
        cases hFinish : r.finish with
        | ok es' => exact .inl ⟨es', hFinish⟩
        | error e =>
            rcases finish_eq_error_iff.1 hFinish with ⟨hStack, -⟩ | ⟨-, -, rfl⟩
            · exact .inr (.inr ⟨r, hRead, hStack⟩)
            · exact .inr (.inl hFinish)
  · rintro (⟨es, hOk⟩ | hEmpty | ⟨r, hRead, -⟩)
    · obtain ⟨r, hRead, -⟩ := bind_eq_ok_iff.1 hOk
      exact exists_continuation hRead
    · rcases readTerms_eq_error_iff.1 hEmpty with hError | ⟨-, hKind⟩ | ⟨r, hRead, -⟩
      · exact absurd hError (reading_ne_empty s)
      · cases hKind
      · exact exists_continuation hRead
    · exact exists_continuation hRead

/-- Parentheses are unbalanced in two ways. -/
theorem readTerms_unbalanced_iff {s : String} :
    readTerms s = .error .unbalanced ↔ OpenAtEnd s ∨ ClosesNothing s := by
  rw [readTerms_eq_error_iff, reading_unbalanced_iff]
  simp [or_comm]

theorem closesNothing_append {s : String} (h : ClosesNothing s) (more : String) :
    ClosesNothing (s ++ more) := by
  obtain ⟨before, after, hText, hBefore⟩ := h
  refine ⟨before, after ++ more.toList, ?_, hBefore⟩
  rw [String.toList_append, hText, List.append_assoc, List.cons_append]

/-- **An error is reported as soon as no continuation can succeed, and only then.**  For every text:
a stray character, lists that nest too deep and terms behind a surplus parenthesis are the same
error in every continuation; a text has a continuation with terms exactly if it has terms itself,
is empty, or is unbalanced because a list is open at its end; the other texts that are unbalanced
begin with a parenthesis that closes nothing, and so does every continuation of them. -/
theorem failure_is_prompt (s : String) :
    (∀ e, readTerms s = .error e →
      (∃ c, e = .unexpected c) ∨ e = .tooDeep ∨ e = .trailingInput →
      ∀ more, readTerms (s ++ more) = .error e) ∧
    ((∃ more es, readTerms (s ++ more) = .ok es) ↔
      (∃ es, readTerms s = .ok es) ∨ readTerms s = .error .empty ∨
        (readTerms s = .error .unbalanced ∧ OpenAtEnd s)) ∧
    (readTerms s = .error .unbalanced ∧ ClosesNothing s →
      ∀ more, readTerms (s ++ more) = .error .unbalanced ∧ ClosesNothing (s ++ more)) ∧
    (readTerms s = .error .unbalanced → (OpenAtEnd s ↔ ¬ ClosesNothing s)) := by
  refine ⟨?_, ?_, ?_, ?_⟩
  · intro e hError hKind more
    rcases readTerms_eq_error_iff.1 hError with hToken | ⟨-, rfl⟩ | ⟨_, -, -, -, rfl⟩
    · exact readTerms_of_reading_error (reading_error_lasts hToken more)
    · simp at hKind
    · simp at hKind
  · rw [exists_continuation_iff]
    have hOpen : OpenAtEnd s → readTerms s = .error .unbalanced :=
      fun h => readTerms_unbalanced_iff.2 (.inl h)
    exact or_congr_right (or_congr_right (iff_and_self.2 hOpen))
  · rintro ⟨-, hFirst⟩ more
    have hMore := closesNothing_append hFirst more
    exact ⟨readTerms_unbalanced_iff.2 (.inr hMore), hMore⟩
  · intro hError
    constructor
    · rintro ⟨r, hRead, -⟩ hFirst
      rw [reading_unbalanced_iff.2 hFirst] at hRead
      cases hRead
    · exact (readTerms_unbalanced_iff.1 hError).resolve_right

/-- A quotation mark is an error whatever follows, a word cut off inside a tuple is none, and a
closing parenthesis behind a blank leads nowhere. -/
theorem failure_is_prompt_cutWord :
    readTerms "(goto \"" = .error (.unexpected '"') ∧
      (∀ more, readTerms ("(goto \"" ++ more) = .error (.unexpected '"')) ∧
      readTerms "(goto (bun" = .error .unbalanced ∧ OpenAtEnd "(goto (bun" ∧
      (∃ more es, readTerms ("(goto (bun" ++ more) = .ok es) ∧
      ∀ more, readTerms (" )" ++ more) = .error .unbalanced := by
  have hQuoteTokens : tokens "(goto \"".toList = [.opening, .word "goto".toList, .stray '"'] := by
    decide +kernel
  have hQuote : readTerms "(goto \"" = .error (.unexpected '"') := by
    unfold readTerms
    rw [hQuoteTokens]
    rfl
  have hCutTokens : tokens "(goto (bun".toList =
      [.opening, .word "goto".toList, .opening, .word "bun".toList] := by
    decide +kernel
  have hOpen : OpenAtEnd "(goto (bun" := by
    refine ⟨⟨[[.word "bun"], [.word "goto"]], [], false⟩, ?_, List.cons_ne_nil _ _⟩
    unfold reading
    rw [hCutTokens]
    rfl
  have hCut : readTerms "(goto (bun" = .error .unbalanced := readTerms_unbalanced_iff.2 (.inl hOpen)
  have hFirst : ClosesNothing " )" := ⟨[' '], [], rfl, List.forall_mem_singleton.2 rfl⟩
  have hClosing : readTerms " )" = .error .unbalanced := readTerms_unbalanced_iff.2 (.inr hFirst)
  obtain ⟨hLasts, _⟩ := failure_is_prompt "(goto \""
  obtain ⟨_, hGoesOn, _⟩ := failure_is_prompt "(goto (bun"
  obtain ⟨_, _, hNever, _⟩ := failure_is_prompt " )"
  exact ⟨hQuote, hLasts _ hQuote (.inl ⟨'"', rfl⟩), hCut, hOpen,
    hGoesOn.2 (.inr (.inr ⟨hCut, hOpen⟩)), fun more => (hNever ⟨hClosing, hFirst⟩ more).1⟩

end PaneEngine.Action
