import PaneEngine.Action.Term

/-!
# Reading terms

Tokens are read as terms exactly if the terms are written with them, and behind
them stand nothing but closing parentheses.  What has been read can be written
down again at any moment: the complete terms and behind them the lists that are
still open.  That is how the reading is followed token by token.

## Main definitions

* `Term.height`, `Term.words` — how deep lists nest in a term, and its words;
* `Reading.written` — what has been read, as tokens;
* `Reading.Holds` — a reading stands for the tokens that were read.

## Main results

* `Reading.foldlM_tokensOf` — terms are read from the tokens they are written with;
* `Reading.holds_step` — what one token does to what has been read;
* `termsOf_iff` — the token sequences of terms.
-/

namespace PaneEngine.Action

/-! ## Height and words -/

mutual

/-- How many lists are nested in a term. -/
def Term.height : Term → Nat
  | .word _ => 0
  | .list items => Term.heightOf items + 1

/-- How many lists are nested in some of the terms. -/
def Term.heightOf : List Term → Nat
  | [] => 0
  | t :: rest => max t.height (Term.heightOf rest)

end

mutual

/-- The words of a term. -/
def Term.words : Term → List String
  | .word text => [text]
  | .list items => Term.wordsOf items

/-- The words of terms. -/
def Term.wordsOf : List Term → List String
  | [] => []
  | t :: rest => t.words ++ Term.wordsOf rest

end

namespace Term

theorem tokensOf_append (as bs : List Term) : tokensOf (as ++ bs) = tokensOf as ++ tokensOf bs := by
  induction as with
  | nil => rfl
  | cons t rest ih => rw [List.cons_append, tokensOf, tokensOf, ih, List.append_assoc]

theorem tokensOf_concat (as : List Term) (t : Term) :
    tokensOf (as ++ [t]) = tokensOf as ++ t.tokens := by
  rw [tokensOf_append, tokensOf, tokensOf, List.append_nil]

theorem heightOf_append (as bs : List Term) :
    heightOf (as ++ bs) = max (heightOf as) (heightOf bs) := by
  induction as with
  | nil => simp [heightOf]
  | cons t rest ih => rw [List.cons_append, heightOf, heightOf, ih, Nat.max_assoc]

theorem heightOf_reverse (as : List Term) : heightOf as.reverse = heightOf as := by
  induction as with
  | nil => rfl
  | cons t rest ih =>
      rw [List.reverse_cons, heightOf_append, ih, heightOf, heightOf, heightOf, Nat.max_zero,
        Nat.max_comm]

mutual

/-- Every word of a term is one of the tokens it is written with. -/
theorem word_mem_tokens : (t : Term) → ∀ w ∈ t.words, Token.word w.toList ∈ t.tokens
  | .word text => by
      intro w hMem
      rw [words, List.mem_singleton] at hMem
      rw [hMem, tokens]
      exact List.mem_singleton.2 rfl
  | .list items => by
      intro w hMem
      rw [words] at hMem
      rw [tokens]
      refine List.mem_append_left _ (List.mem_cons_of_mem _ ?_)
      exact word_mem_tokensOf items w hMem

theorem word_mem_tokensOf : (ts : List Term) → ∀ w ∈ wordsOf ts, Token.word w.toList ∈ tokensOf ts
  | [] => by
      intro w hMem
      cases hMem
  | t :: rest => by
      intro w hMem
      rw [wordsOf] at hMem
      rw [tokensOf]
      rcases List.mem_append.1 hMem with hHere | hRest
      · exact List.mem_append_left _ (word_mem_tokens t w hHere)
      · exact List.mem_append_right _ (word_mem_tokensOf rest w hRest)

end

mutual

theorem stray_not_mem_tokens (c : Char) : (t : Term) → Token.stray c ∉ t.tokens
  | .word text => by simp [tokens]
  | .list items => by
      have hItems := stray_not_mem_tokensOf c items
      simp [tokens, hItems]

/-- No stray character is among the tokens that terms are written with. -/
theorem stray_not_mem_tokensOf (c : Char) : (ts : List Term) → Token.stray c ∉ tokensOf ts
  | [] => by simp [tokensOf]
  | t :: rest => by
      have hHere := stray_not_mem_tokens c t
      have hRest := stray_not_mem_tokensOf c rest
      simp [tokensOf, hHere, hRest]

end

end Term

namespace Reading

open Term (tokensOf heightOf)

/-! ## Terms are read from what they are written with -/

/-- The reading after complete terms. -/
def addAll (ts : List Term) (r : Reading) : Reading := ts.foldl (fun r t => r.add t) r

theorem add_surplus (t : Term) (r : Reading) : (r.add t).surplus = r.surplus := by
  unfold add
  split <;> rfl

theorem add_stack_length (t : Term) (r : Reading) :
    (r.add t).stack.length = r.stack.length := by
  unfold add
  split
  · next hStack => rw [hStack]
  · next hStack => rw [hStack]; rfl

theorem addAll_open (ts : List Term) (items : List Term) (outer : List (List Term))
    (complete : List Term) (surplus : Bool) :
    addAll ts ⟨items :: outer, complete, surplus⟩ =
      ⟨(ts.reverse ++ items) :: outer, complete, surplus⟩ := by
  induction ts generalizing items with
  | nil => rfl
  | cons t rest ih =>
      refine (ih (t :: items)).trans ?_
      rw [List.reverse_cons, List.append_assoc]
      rfl

theorem addAll_complete (ts : List Term) (complete : List Term) (surplus : Bool) :
    addAll ts ⟨[], complete, surplus⟩ = ⟨[], ts.reverse ++ complete, surplus⟩ := by
  induction ts generalizing complete with
  | nil => rfl
  | cons t rest ih =>
      refine (ih (t :: complete)).trans ?_
      rw [List.reverse_cons, List.append_assoc]
      rfl

theorem step_word {r : Reading} (h : r.surplus = false) (text : List Char) :
    step r (.word text) = .ok (r.add (.word (String.ofList text))) := by
  rw [step, if_neg (by rw [h]; decide)]

theorem step_opening {r : Reading} (h : r.surplus = false) (hRoom : r.stack.length ≠ maxDepth) :
    step r .opening = .ok { r with stack := [] :: r.stack } := by
  rw [step, if_neg (by rw [h]; decide), if_neg hRoom]

mutual

/-- A term is read from the tokens it is written with, as long as it does not nest too deep. -/
theorem foldlM_tokens : (t : Term) → (r : Reading) → r.surplus = false →
    r.stack.length + t.height ≤ maxDepth → t.tokens.foldlM step r = .ok (r.add t)
  | .word text, r, hSurplus, _ => by
      rw [Term.tokens, List.foldlM_cons, step_word hSurplus, String.ofList_toList]
      rfl
  | .list items, r, hSurplus, hDepth => by
      rw [Term.height] at hDepth
      have hRoom : r.stack.length ≠ maxDepth := by omega
      have hItems : (tokensOf items).foldlM step { r with stack := [] :: r.stack } =
          .ok (addAll items { r with stack := [] :: r.stack }) := by
        refine foldlM_tokensOf items _ hSurplus ?_
        show r.stack.length + 1 + heightOf items ≤ maxDepth
        omega
      rw [Term.tokens, List.foldlM_append, List.foldlM_cons, step_opening hSurplus hRoom]
      show ((tokensOf items).foldlM step { r with stack := [] :: r.stack } >>= fun r =>
        [Token.closing].foldlM step r) = _
      rw [hItems, addAll_open, List.append_nil]
      show Except.ok (r.add (.list items.reverse.reverse)) = _
      rw [List.reverse_reverse]

theorem foldlM_tokensOf : (ts : List Term) → (r : Reading) → r.surplus = false →
    r.stack.length + heightOf ts ≤ maxDepth → (tokensOf ts).foldlM step r = .ok (addAll ts r)
  | [], _, _, _ => rfl
  | t :: rest, r, hSurplus, hDepth => by
      rw [heightOf] at hDepth
      have hFirst := foldlM_tokens t r hSurplus (by omega)
      have hRest := foldlM_tokensOf rest (r.add t) ((add_surplus t r).trans hSurplus)
        (by rw [add_stack_length]; omega)
      rw [tokensOf, List.foldlM_append, hFirst]
      exact hRest

end

/-- Closing parentheses behind complete terms are left over. -/
theorem foldlM_surplus (k : Nat) {complete : List Term} (h : complete ≠ []) (surplus : Bool) :
    ∃ surplus', (List.replicate k Token.closing).foldlM step ⟨[], complete, surplus⟩ =
      .ok ⟨[], complete, surplus'⟩ := by
  induction k generalizing surplus with
  | zero => exact ⟨surplus, rfl⟩
  | succ k ih =>
      obtain ⟨surplus', hRest⟩ := ih true
      refine ⟨surplus', ?_⟩
      have hClose : step ⟨[], complete, surplus⟩ .closing = .ok ⟨[], complete, true⟩ := by
        rw [step, close, List.isEmpty_eq_false_iff.2 h]
        rfl
      rw [List.replicate_succ, List.foldlM_cons, hClose]
      exact hRest

/-! ## What has been read -/

/-- The lists that are still open, as tokens. -/
def openTokens : List (List Term) → List Token
  | [] => []
  | items :: outer => openTokens outer ++ .opening :: tokensOf items.reverse

/-- What has been read, as tokens, but for closing parentheses that were left over. -/
def written (r : Reading) : List Token := tokensOf r.complete.reverse ++ openTokens r.stack

/-- The terms in open lists do not nest too deep for their place. -/
def Shallow : List (List Term) → Prop
  | [] => True
  | items :: outer => outer.length + 1 + heightOf items ≤ maxDepth ∧ Shallow outer

/-- A reading stands for the tokens that were read. -/
structure Holds (r : Reading) (ts : List Token) : Prop where
  written : ∃ k, ts = r.written ++ List.replicate k .closing ∧ (r.surplus = false → k = 0)
  surplus : r.surplus = true → r.stack = [] ∧ r.complete ≠ []
  complete : heightOf r.complete ≤ maxDepth
  shallow : Shallow r.stack

theorem holds_start : Holds start [] :=
  ⟨⟨0, rfl, fun _ => rfl⟩, by simp [start], Nat.zero_le _, trivial⟩

theorem length_le_of_shallow {stack : List (List Term)} (h : Shallow stack) :
    stack.length ≤ maxDepth := by
  cases stack with
  | nil => exact Nat.zero_le _
  | cons items outer =>
      have hHere := h.1
      rw [List.length_cons]
      omega

theorem written_add (t : Term) (r : Reading) : (r.add t).written = r.written ++ t.tokens := by
  obtain ⟨stack, complete, surplus⟩ := r
  cases stack with
  | nil =>
      show tokensOf (t :: complete).reverse ++ [] = (tokensOf complete.reverse ++ []) ++ t.tokens
      rw [List.reverse_cons, Term.tokensOf_concat, List.append_nil, List.append_nil]
  | cons items outer =>
      show tokensOf complete.reverse ++
          (openTokens outer ++ .opening :: tokensOf (t :: items).reverse) =
        (tokensOf complete.reverse ++ (openTokens outer ++ .opening :: tokensOf items.reverse)) ++
          t.tokens
      rw [List.reverse_cons, Term.tokensOf_concat]
      simp only [List.append_assoc, List.cons_append]

/-- A term that is added has to be low enough for its place. -/
theorem low_add {t : Term} {r : Reading} (hComplete : heightOf r.complete ≤ maxDepth)
    (hShallow : Shallow r.stack) (hLow : r.stack.length + t.height ≤ maxDepth) :
    heightOf (r.add t).complete ≤ maxDepth ∧ Shallow (r.add t).stack := by
  obtain ⟨stack, complete, surplus⟩ := r
  cases stack with
  | nil =>
      refine ⟨?_, trivial⟩
      show heightOf (t :: complete) ≤ maxDepth
      have hLow : 0 + t.height ≤ maxDepth := hLow
      have hComplete : heightOf complete ≤ maxDepth := hComplete
      rw [heightOf]
      omega
  | cons items outer =>
      refine ⟨hComplete, ?_, hShallow.2⟩
      have hLow : outer.length + 1 + t.height ≤ maxDepth := hLow
      have hHere := hShallow.1
      rw [heightOf]
      omega

/-- A complete term is added to what has been read. -/
theorem holds_add {t : Term} {r : Reading} {ts : List Token} (hWritten : ts = r.written)
    (hSurplus : r.surplus = false) (hComplete : heightOf r.complete ≤ maxDepth)
    (hShallow : Shallow r.stack) (hLow : r.stack.length + t.height ≤ maxDepth) :
    Holds (r.add t) (ts ++ t.tokens) := by
  obtain ⟨hComplete', hShallow'⟩ := low_add hComplete hShallow hLow
  refine ⟨⟨0, ?_, fun _ => rfl⟩, ?_, hComplete', hShallow'⟩
  · rw [written_add, hWritten]
    exact (List.append_nil _).symm
  · intro hTrue
    rw [add_surplus, hSurplus] at hTrue
    cases hTrue

theorem holds_word {r r' : Reading} {ts : List Token} {text : List Char} (h : Holds r ts)
    (hStep : step r (.word text) = .ok r') : Holds r' (ts ++ [.word text]) := by
  cases hSurplus : r.surplus with
  | true =>
      rw [step, hSurplus] at hStep
      cases hStep
  | false =>
      rw [step_word hSurplus] at hStep
      injection hStep with hStep
      obtain ⟨k, hWritten, hNone⟩ := h.written
      rw [hNone hSurplus] at hWritten
      have hLength := length_le_of_shallow h.shallow
      have hAdd := holds_add (t := .word (String.ofList text))
        (hWritten.trans (List.append_nil _)) hSurplus h.complete h.shallow
        (by rw [Term.height]; omega)
      rw [Term.tokens, String.toList_ofList, hStep] at hAdd
      exact hAdd

theorem holds_opening {r r' : Reading} {ts : List Token} (h : Holds r ts)
    (hStep : step r .opening = .ok r') : Holds r' (ts ++ [.opening]) := by
  cases hSurplus : r.surplus with
  | true =>
      rw [step, hSurplus] at hStep
      cases hStep
  | false =>
      have hLength := length_le_of_shallow h.shallow
      by_cases hFull : r.stack.length = maxDepth
      · rw [step, hSurplus, if_neg (by decide), if_pos hFull] at hStep
        cases hStep
      · rw [step_opening hSurplus hFull] at hStep
        injection hStep with hStep
        obtain ⟨k, hWritten, hNone⟩ := h.written
        rw [hNone hSurplus] at hWritten
        rw [← hStep]
        refine ⟨⟨0, ?_, fun _ => rfl⟩, ?_, h.complete, ?_, h.shallow⟩
        · rw [hWritten]
          simp [written, openTokens, tokensOf]
        · intro hTrue
          have hTrue : r.surplus = true := hTrue
          rw [hSurplus] at hTrue
          cases hTrue
        · rw [heightOf]
          omega

/-- A closing parenthesis completes the innermost list, or is left over. -/
theorem holds_closing {r r' : Reading} {ts : List Token} (h : Holds r ts)
    (hStep : step r .closing = .ok r') : Holds r' (ts ++ [.closing]) := by
  obtain ⟨stack, complete, surplus⟩ := r
  cases stack with
  | nil =>
      by_cases hNone : complete = []
      · subst hNone
        cases hStep
      · rw [step, close] at hStep
        simp only [List.isEmpty_eq_false_iff.2 hNone] at hStep
        injection hStep with hStep
        obtain ⟨k, hWritten, _⟩ := h.written
        rw [← hStep]
        refine ⟨⟨k + 1, ?_, by simp⟩, fun _ => ⟨rfl, hNone⟩, h.complete, trivial⟩
        rw [hWritten, List.append_assoc, ← List.replicate_succ']
        rfl
  | cons items outer =>
      cases surplus with
      | true =>
          -- nothing is left over while a list is open
          cases (h.surplus rfl).1
      | false =>
          injection hStep with hStep
          obtain ⟨k, hWritten, hNone⟩ := h.written
          rw [hNone rfl, List.replicate_zero, List.append_nil] at hWritten
          have hHere := h.shallow.1
          have hLow : outer.length + (Term.list items.reverse).height ≤ maxDepth := by
            rw [Term.height, Term.heightOf_reverse]
            omega
          obtain ⟨hComplete, hShallow⟩ := low_add (r := ⟨outer, complete, false⟩) h.complete
            h.shallow.2 hLow
          rw [← hStep]
          refine ⟨⟨0, ?_, fun _ => rfl⟩, ?_, hComplete, hShallow⟩
          · rw [written_add, hWritten]
            simp [written, openTokens, Term.tokens]
          · intro hTrue
            rw [add_surplus] at hTrue
            cases hTrue

/-- **What one token does**: what has been read goes on to stand for the tokens that were read. -/
theorem holds_step {r r' : Reading} {ts : List Token} {t : Token} (h : Holds r ts)
    (hStep : step r t = .ok r') : Holds r' (ts ++ [t]) := by
  cases t with
  | opening => exact holds_opening h hStep
  | closing => exact holds_closing h hStep
  | word text => exact holds_word h hStep
  | stray c => cases hStep

theorem holds_foldlM {r r' : Reading} {before ts : List Token} (h : Holds r before)
    (hRun : ts.foldlM step r = .ok r') : Holds r' (before ++ ts) := by
  induction ts generalizing r before with
  | nil =>
      injection hRun with hRun
      rw [List.append_nil, ← hRun]
      exact h
  | cons t rest ih =>
      rw [List.foldlM_cons] at hRun
      cases hStep : step r t with
      | error e =>
          rw [hStep] at hRun
          cases hRun
      | ok next =>
          rw [hStep] at hRun
          have hRest := ih (holds_step h hStep) hRun
          rw [List.append_assoc, List.singleton_append] at hRest
          exact hRest

end Reading

/-! ## Token sequences of terms -/

open Term (tokensOf heightOf)

theorem finish_eq_ok {r : Reading} {es : List Term} (h : r.finish = .ok es) :
    r.stack = [] ∧ r.complete ≠ [] ∧ es = r.complete.reverse := by
  obtain ⟨stack, complete, surplus⟩ := r
  cases stack with
  | nil =>
      cases complete with
      | nil => cases h
      | cons t rest =>
          injection h with h
          exact ⟨rfl, List.cons_ne_nil _ _, h.symm⟩
  | cons items outer => cases h

/-- **The token sequences that are read as terms** are those that the terms are written with, and
behind them nothing but closing parentheses. -/
theorem termsOf_iff {ts : List Token} {es : List Term} :
    termsOf ts = .ok es ↔ es ≠ [] ∧ heightOf es ≤ maxDepth ∧
      ∃ k, ts = tokensOf es ++ List.replicate k .closing := by
  constructor
  · intro h
    unfold termsOf at h
    cases hRun : ts.foldlM Reading.step Reading.start with
    | error e =>
        rw [hRun] at h
        cases h
    | ok r =>
        rw [hRun] at h
        obtain ⟨hStack, hComplete, rfl⟩ := finish_eq_ok h
        have hHolds := Reading.holds_foldlM Reading.holds_start hRun
        obtain ⟨k, hWritten, _⟩ := hHolds.written
        refine ⟨by simpa using hComplete, ?_, k, ?_⟩
        · rw [Term.heightOf_reverse]
          exact hHolds.complete
        · rw [List.nil_append] at hWritten
          rw [hWritten, Reading.written, hStack, Reading.openTokens, List.append_nil]
  · rintro ⟨hSome, hHeight, k, rfl⟩
    -- the terms first, which leave no list open, and then what is left over
    have hRead : (tokensOf es).foldlM Reading.step Reading.start =
        .ok (Reading.addAll es Reading.start) :=
      Reading.foldlM_tokensOf es .start rfl (by rw [Reading.start, List.length_nil]; omega)
    have hSome' : es.reverse ++ [] ≠ [] := by simpa using hSome
    obtain ⟨surplus, hSurplus⟩ := Reading.foldlM_surplus k hSome' false
    unfold termsOf
    rw [List.foldlM_append, hRead, Reading.start, Reading.addAll_complete]
    show ((List.replicate k Token.closing).foldlM Reading.step _ >>= Reading.finish) = _
    rw [hSurplus]
    show Reading.finish ⟨[], es.reverse ++ [], surplus⟩ = _
    rw [Reading.finish, List.isEmpty_nil, List.isEmpty_eq_false_iff.2 hSome', List.append_nil,
      List.reverse_reverse]
    rfl

end PaneEngine.Action
