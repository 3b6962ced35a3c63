import Mathlib.Data.List.Chain
import PaneEngine.Action.Basic
import PaneEngine.Proofs.Action.Grammar
import PaneEngine.Proofs.Results

/-!
# Actions as they are written

An action is written with the tokens of its term.  Blanks may stand before,
between and behind them, as long as two words do not run together, and behind
the term any number of closing parentheses.  The texts that are written so, and
no others, are read as the action.

Two of the errors that terms can have do not occur behind a reading: there is
at least one term, and lists nest in it no deeper than the tuples of a command
do.

## Main definitions

* `IsWord` — a text that can stand as a word;
* `Spacing` — tokens with the blanks around them;
* `Prints` — a text is a printing of an action.

## Main results

* `laidOut_iff_spacing` — a text lays out tokens if it is a spacing of them;
* `parse_iff_prints` — the texts that are read as an action are its printings;
* `ofTerms_eq_error_iff` — what the terms of a text can fail to be an action for;
* `printing_roundTrip` — reading undoes printing.
-/

namespace PaneEngine.Action

open Term (tokensOf heightOf wordsOf)

/-! ## Words -/

/-- A text that can stand as a word. -/
def IsWord (w : String) : Prop := w ≠ "" ∧ ∀ c ∈ w.toList, isWordChar c = true

instance (w : String) : Decidable (IsWord w) :=
  decidable_of_iff (w ≠ "" ∧ w.toList.all isWordChar = true) (by rw [IsWord, List.all_eq_true])

/-- A token that a text can have, strays apart. -/
def Token.IsProper : Token → Prop
  | .opening => True
  | .closing => True
  | .word w => w ≠ [] ∧ ∀ c ∈ w, isWordChar c = true
  | .stray _ => False

theorem isProper_word_iff {w : String} : (Token.word w.toList).IsProper ↔ IsWord w := by
  rw [Token.IsProper, IsWord, ne_eq, ne_eq, String.toList_eq_nil_iff]

namespace Term

mutual

theorem isProper_of_mem_tokens : (t : Term) → (∀ w ∈ t.words, IsWord w) →
    ∀ token ∈ t.tokens, token.IsProper
  | .word text, hWords => by
      intro token hMem
      rw [tokens, List.mem_singleton] at hMem
      rw [hMem]
      exact isProper_word_iff.2 (hWords text (List.mem_singleton.2 rfl))
  | .list items, hWords => by
      intro token hMem
      rw [tokens, List.mem_append, List.mem_cons, List.mem_singleton] at hMem
      rcases hMem with (rfl | hItems) | rfl
      · trivial
      · exact isProper_of_mem_tokensOf items hWords token hItems
      · trivial

/-- Terms with proper words are written with proper tokens. -/
theorem isProper_of_mem_tokensOf : (ts : List Term) → (∀ w ∈ wordsOf ts, IsWord w) →
    ∀ token ∈ tokensOf ts, token.IsProper
  | [], _ => by
      intro token hMem
      cases hMem
  | t :: rest, hWords => by
      intro token hMem
      rw [wordsOf] at hWords
      rw [tokensOf] at hMem
      obtain ⟨hHere, hRest⟩ := List.forall_mem_append.1 hWords
      rcases List.mem_append.1 hMem with hFirst | hLater
      · exact isProper_of_mem_tokens t hHere token hFirst
      · exact isProper_of_mem_tokensOf rest hRest token hLater

end

end Term

theorem isProper_of_laidOut {cs : List Char} {ts : List Token} (h : LaidOut cs ts) :
    ∀ t ∈ ts, t.IsProper := by
  induction h with
  | nil => exact fun t hMem => absurd hMem List.not_mem_nil
  | blank _ _ ih => exact ih
  | opening _ ih => exact List.forall_mem_cons.2 ⟨trivial, ih⟩
  | closing _ ih => exact List.forall_mem_cons.2 ⟨trivial, ih⟩
  | word hSome hWord _ _ ih => exact List.forall_mem_cons.2 ⟨⟨hSome, hWord⟩, ih⟩

/-! ## Spacings -/

/-- A token as written. -/
def Token.chars : Token → List Char
  | .opening => ['(']
  | .closing => [')']
  | .word w => w
  | .stray c => [c]

/-- Whether a token is a word. -/
def Token.isWord : Token → Bool
  | .word _ => true
  | _ => false

/-- Tokens with the gap before each of them, and the gap behind the last. -/
structure Spacing where
  gapped : List (List Char × Token)
  last : List Char

namespace Spacing

/-- The tokens that are spaced. -/
def tokens (l : Spacing) : List Token := l.gapped.map (·.2)

/-- The text of a spacing. -/
def chars (l : Spacing) : List Char := (l.gapped.flatMap fun g => g.1 ++ g.2.chars) ++ l.last

/-- The gaps are blanks, and two words have one between them. -/
structure Separates (l : Spacing) : Prop where
  gaps : ∀ g ∈ l.gapped, ∀ c ∈ g.1, Text.isBlank c = true
  last : ∀ c ∈ l.last, Text.isBlank c = true
  words : l.gapped.IsChain fun g next => g.2.isWord = true → next.2.isWord = true → next.1 ≠ []

instance (l : Spacing) : Decidable l.Separates :=
  decidable_of_iff
    ((∀ g ∈ l.gapped, g.1.all Text.isBlank = true) ∧ l.last.all Text.isBlank = true ∧
      l.gapped.IsChain fun g next => g.2.isWord = true → next.2.isWord = true → next.1 ≠ []) (by
    simp only [List.all_eq_true]
    exact ⟨fun h => ⟨h.1, h.2.1, h.2.2⟩, fun h => ⟨h.gaps, h.last, h.words⟩⟩)

theorem chars_cons (gap : List Char) (t : Token) (rest : List (List Char × Token))
    (last : List Char) :
    chars ⟨(gap, t) :: rest, last⟩ = gap ++ (t.chars ++ chars ⟨rest, last⟩) := by
  simp [chars]

end Spacing

theorem isWordChar_of_isBlank {c : Char} (h : Text.isBlank c = true) : isWordChar c = false := by
  simp [isWordChar, h]

theorem laidOut_blanks {gap cs : List Char} {ts : List Token}
    (hGap : ∀ c ∈ gap, Text.isBlank c = true) (h : LaidOut cs ts) : LaidOut (gap ++ cs) ts := by
  induction gap with
  | nil => exact h
  | cons c gap ih =>
      obtain ⟨hc, hRest⟩ := List.forall_mem_cons.1 hGap
      exact .blank hc (ih hRest)

/-- Behind a word of a spacing that separates, no word goes on. -/
theorem head_not_isWordChar {rest : List (List Char × Token)} {last : List Char}
    (h : Spacing.Separates ⟨rest, last⟩) (hProper : ∀ t ∈ rest.map (·.2), t.IsProper)
    (hGap : ∀ g ∈ rest.head?, g.2.isWord = true → g.1 ≠ []) :
    ∀ c ∈ (Spacing.chars ⟨rest, last⟩).head?, isWordChar c = false := by
  intro c hMem
  cases rest with
  | nil => exact isWordChar_of_isBlank (h.last c (List.mem_of_mem_head? hMem))
  | cons g rest =>
      obtain ⟨gap, t⟩ := g
      rw [Spacing.chars_cons] at hMem
      cases gap with
      | cons a gap =>
          cases hMem
          exact isWordChar_of_isBlank (h.gaps _ List.mem_cons_self _ List.mem_cons_self)
      | nil =>
          cases t with
          | opening =>
              cases hMem
              decide
          | closing =>
              cases hMem
              decide
          | word w => exact absurd rfl (hGap _ rfl rfl)
          | stray a => exact (hProper (.stray a) List.mem_cons_self).elim

/-- A spacing that separates lays out its tokens. -/
theorem laidOut_of_separates {gapped : List (List Char × Token)} {last : List Char}
    (h : Spacing.Separates ⟨gapped, last⟩) (hProper : ∀ t ∈ gapped.map (·.2), t.IsProper) :
    LaidOut (Spacing.chars ⟨gapped, last⟩) (gapped.map (·.2)) := by
  induction gapped with
  | nil =>
      have hBlank := laidOut_blanks h.last .nil
      rw [List.append_nil] at hBlank
      exact hBlank
  | cons g rest ih =>
      obtain ⟨gap, t⟩ := g
      obtain ⟨hHere, hRest⟩ := List.forall_mem_cons.1 hProper
      obtain ⟨hGap, hGaps⟩ := List.forall_mem_cons.1 h.gaps
      have hSeparates : Spacing.Separates ⟨rest, last⟩ := ⟨hGaps, h.last, h.words.tail⟩
      have hLaid := ih hSeparates hRest
      rw [Spacing.chars_cons]
      refine laidOut_blanks hGap ?_
      cases t with
      | opening => exact .opening hLaid
      | closing => exact .closing hLaid
      | stray c => exact hHere.elim
      | word w =>
          refine .word hHere.1 hHere.2 (head_not_isWordChar hSeparates hRest ?_) hLaid
          intro next hNext
          exact h.words.rel_head? hNext rfl

/-- A blank before a text widens the first gap. -/
theorem exists_spacing_blank {c : Char} (hBlank : Text.isBlank c = true) {l : Spacing}
    (h : l.Separates) : ∃ l' : Spacing, l'.Separates ∧ l'.chars = c :: l.chars ∧
      l'.tokens = l.tokens := by
  obtain ⟨gapped, last⟩ := l
  cases gapped with
  | nil =>
      refine ⟨⟨[], c :: last⟩, ⟨h.gaps, ?_, h.words⟩, rfl, rfl⟩
      exact List.forall_mem_cons.2 ⟨hBlank, h.last⟩
  | cons g rest =>
      obtain ⟨gap, t⟩ := g
      obtain ⟨hGap, hGaps⟩ := List.forall_mem_cons.1 h.gaps
      obtain ⟨hNext, hRest⟩ := List.isChain_cons.1 h.words
      refine ⟨⟨(c :: gap, t) :: rest, last⟩, ⟨?_, h.last, ?_⟩, rfl, rfl⟩
      · exact List.forall_mem_cons.2 ⟨List.forall_mem_cons.2 ⟨hBlank, hGap⟩, hGaps⟩
      · exact List.isChain_cons.2 ⟨hNext, hRest⟩

/-- A token before a text comes without a gap, if it is no word that would run on. -/
theorem exists_spacing_cons {t : Token} {l : Spacing} (h : l.Separates)
    (hProper : ∀ t ∈ l.tokens, t.IsProper)
    (hEnd : t.isWord = true → ∀ c ∈ l.chars.head?, isWordChar c = false) :
    ∃ l' : Spacing, l'.Separates ∧ l'.chars = t.chars ++ l.chars ∧ l'.tokens = t :: l.tokens := by
  obtain ⟨gapped, last⟩ := l
  refine ⟨⟨([], t) :: gapped, last⟩, ⟨?_, h.last, ?_⟩, Spacing.chars_cons [] t gapped last, rfl⟩
  · exact List.forall_mem_cons.2 ⟨fun c hMem => absurd hMem List.not_mem_nil, h.gaps⟩
  · refine List.isChain_cons.2 ⟨?_, h.words⟩
    intro next hMem hWord hNext hGap
    cases gapped with
    | nil => cases hMem
    | cons g rest =>
        cases hMem
        obtain ⟨gap, t'⟩ := next
        cases hGap
        cases t' with
        | word w =>
            -- the next word stands where none may go on
            obtain ⟨hSome, hWordChars⟩ := hProper (.word w) List.mem_cons_self
            cases w with
            | nil => exact hSome rfl
            | cons c w =>
                have hHead := hEnd hWord c rfl
                rw [hWordChars c List.mem_cons_self] at hHead
                cases hHead
        | _ => cases hNext

/-- **A text lays out tokens exactly if it is a spacing of them**, and they are proper. -/
theorem laidOut_iff_spacing {cs : List Char} {ts : List Token} :
    LaidOut cs ts ↔ (∀ t ∈ ts, t.IsProper) ∧
      ∃ l : Spacing, l.Separates ∧ l.chars = cs ∧ l.tokens = ts := by
  constructor
  · intro h
    refine ⟨isProper_of_laidOut h, ?_⟩
    induction h with
    | nil => exact ⟨⟨[], []⟩, ⟨by simp, by simp, .nil⟩, rfl, rfl⟩
    | blank hBlank _ ih =>
        obtain ⟨l, hSeparates, rfl, rfl⟩ := ih
        exact exists_spacing_blank hBlank hSeparates
    | opening hRest ih =>
        obtain ⟨l, hSeparates, rfl, rfl⟩ := ih
        exact exists_spacing_cons (t := .opening) hSeparates (isProper_of_laidOut hRest)
          fun hWord => nomatch hWord
    | closing hRest ih =>
        obtain ⟨l, hSeparates, rfl, rfl⟩ := ih
        exact exists_spacing_cons (t := .closing) hSeparates (isProper_of_laidOut hRest)
          fun hWord => nomatch hWord
    | word hSome hWord hEnd hRest ih =>
        obtain ⟨l, hSeparates, rfl, rfl⟩ := ih
        exact exists_spacing_cons (t := .word _) hSeparates (isProper_of_laidOut hRest)
          fun _ => hEnd
  · rintro ⟨hProper, l, hSeparates, rfl, rfl⟩
    exact laidOut_of_separates hSeparates hProper

/-! ## The action of terms -/

theorem tupleWord_eq_ok_iff {t : Term} {w : String} : tupleWord t = .ok w ↔ t = .word w := by
  cases t with
  | word text => simp [tupleWord]
  | list items => simp [tupleWord]

theorem ofTerm_eq_ok_iff {t : Term} {p : Param} : Param.ofTerm t = .ok p ↔ t = p.term := by
  cases t with
  | word w => cases p <;> simp [Param.ofTerm, Param.term]
  | list items =>
      rw [Param.ofTerm, map_eq_ok_iff]
      simp only [mapM_eq_ok_iff_of_inverse fun t w => tupleWord_eq_ok_iff]
      cases p <;> simp [Param.term]

/-- The terms of an action are the term that it is written as. -/
theorem ofTerms_eq_ok_iff {es : List Term} {a : Action} : ofTerms es = .ok a ↔ es = [a.term] := by
  match es with
  | [] => simp [ofTerms]
  | [.word url] => cases a <;> simp [ofTerms, term]
  | [.list []] => cases a <;> simp [ofTerms, term]
  | [.list (.list items :: params)] => cases a <;> simp [ofTerms, term]
  | [.list (.word command :: params)] =>
      rw [ofTerms, map_eq_ok_iff]
      simp only [mapM_eq_ok_iff_of_inverse fun t p => ofTerm_eq_ok_iff]
      cases a with
      | link url => simp [term]
      | call command' ps => simp [term, eq_comm, and_comm]
  | _ :: _ :: _ => simp [ofTerms]

/-- A single term that is a list without a command at its head. -/
def Headless (es : List Term) : Prop :=
  es = [.list []] ∨ ∃ items params, es = [.list (.list items :: params)]

theorem height_le_of_mem {ts : List Term} {t : Term} (h : t ∈ ts) : t.height ≤ heightOf ts := by
  induction ts with
  | nil => cases h
  | cons t' rest ih =>
      rw [heightOf]
      rcases List.mem_cons.1 h with rfl | hRest
      · exact Nat.le_max_left _ _
      · exact Nat.le_trans (ih hRest) (Nat.le_max_right _ _)

/-- Terms that nest no deeper than tuples do are parameters. -/
theorem ofTerm_succeeds {t : Term} (h : t.height ≤ 1) : ∃ p, Param.ofTerm t = .ok p := by
  cases t with
  | word w => exact ⟨.word w, rfl⟩
  | list items =>
      rw [Term.height] at h
      obtain ⟨ws, hWords⟩ : ∃ ws, items.mapM tupleWord = .ok ws := by
        refine mapM_succeeds_iff.2 ?_
        intro t hMem
        have hLow := height_le_of_mem hMem
        cases t with
        | word w => exact ⟨w, rfl⟩
        | list inner =>
            rw [Term.height] at hLow
            omega
      exact ⟨.tuple ws, map_eq_ok_iff.2 ⟨ws, hWords, rfl⟩⟩

theorem ofTerms_of_two_le {es : List Term} (h : 2 ≤ es.length) :
    ofTerms es = .error .trailingInput := by
  match es with
  | [] => cases h
  | [_] => simp at h
  | _ :: _ :: _ => simp [ofTerms]

theorem ofTerms_of_headless {es : List Term} (h : Headless es) :
    ofTerms es = .error .missingCommand := by
  rcases h with rfl | ⟨items, params, rfl⟩
  · rfl
  · rfl

/-- The terms that a text can have are those of an action, too many, or without a command. -/
theorem ofTerms_cases {es : List Term} (hSome : es ≠ []) (hShallow : heightOf es ≤ maxDepth) :
    (∃ a, ofTerms es = .ok a) ∨ 2 ≤ es.length ∨ Headless es := by
  match es with
  | [] => exact absurd rfl hSome
  | [.word url] => exact .inl ⟨.link url, rfl⟩
  | [.list []] => exact .inr (.inr (.inl rfl))
  | [.list (.list items :: params)] => exact .inr (.inr (.inr ⟨items, params, rfl⟩))
  | [.list (.word command :: params)] =>
      obtain ⟨ps, hParams⟩ : ∃ ps, params.mapM Param.ofTerm = .ok ps := by
        refine mapM_succeeds_iff.2 ?_
        intro t hMem
        have hLow := height_le_of_mem hMem
        simp only [heightOf, Term.height, maxDepth] at hShallow
        exact ofTerm_succeeds (by omega)
      exact .inl ⟨.call command ps, map_eq_ok_iff.2 ⟨ps, hParams, rfl⟩⟩
  | _ :: _ :: rest => exact .inr (.inl (Nat.le_add_left 2 rest.length))

/-- **What the terms of a text can fail to be an action for.** -/
theorem ofTerms_eq_error_iff {es : List Term} (hSome : es ≠ [])
    (hShallow : heightOf es ≤ maxDepth) (e : ParseError) :
    ofTerms es = .error e ↔
      (e = .trailingInput ∧ 2 ≤ es.length) ∨ (e = .missingCommand ∧ Headless es) := by
  constructor
  · intro h
    rcases ofTerms_cases hSome hShallow with ⟨a, hAction⟩ | hMany | hHeadless
    · rw [h] at hAction
      cases hAction
    · rw [ofTerms_of_two_le hMany] at h
      cases h
      exact .inl ⟨rfl, hMany⟩
    · rw [ofTerms_of_headless hHeadless] at h
      cases h
      exact .inr ⟨rfl, hHeadless⟩
  · rintro (⟨rfl, hMany⟩ | ⟨rfl, hHeadless⟩)
    · exact ofTerms_of_two_le hMany
    · exact ofTerms_of_headless hHeadless

/-! ## Printings -/

/-- A text is a printing of an action: it spaces the tokens of its term, and behind them closing
parentheses. -/
def Prints (a : Action) (s : String) : Prop :=
  ∃ (l : Spacing) (k : Nat), l.Separates ∧ l.tokens = a.term.tokens ++ List.replicate k .closing ∧
    s = String.ofList l.chars

/-- Tokens with a space before each of them can be told apart. -/
theorem exists_separates (ts : List Token) : ∃ l : Spacing, l.Separates ∧ l.tokens = ts := by
  refine ⟨⟨ts.map fun t => ([' '], t), []⟩, ⟨?_, ?_, ?_⟩, ?_⟩
  · refine List.forall_mem_map.2 ?_
    intro t _
    exact List.forall_mem_singleton.2 rfl
  · exact fun c hMem => absurd hMem List.not_mem_nil
  · refine (List.isChain_map _).2 (List.Pairwise.isChain (List.pairwise_of_forall ?_))
    exact fun _ _ _ _ => List.cons_ne_nil _ _
  · rw [Spacing.tokens, List.map_map]
    exact List.map_id ts

/-- Every action has a printing. -/
theorem exists_prints (a : Action) : ∃ s, Prints a s := by
  obtain ⟨l, hSeparates, hTokens⟩ := exists_separates a.term.tokens
  exact ⟨String.ofList l.chars, l, 0, hSeparates, by rw [hTokens]; simp, rfl⟩

theorem heightOf_map_word (ws : List String) : heightOf (ws.map Term.word) = 0 := by
  induction ws with
  | nil => rfl
  | cons w ws ih => rw [List.map_cons, heightOf, ih]; rfl

theorem heightOf_params (ps : List Param) : heightOf (ps.map Param.term) ≤ 1 := by
  induction ps with
  | nil => exact Nat.zero_le 1
  | cons p ps ih =>
      have hFirst : p.term.height ≤ 1 := by
        cases p with
        | word w => exact Nat.zero_le 1
        | tuple ws => rw [Param.term, Term.height, heightOf_map_word]
      rw [List.map_cons, heightOf]
      exact Nat.max_le.2 ⟨hFirst, ih⟩

/-- Actions nest no deeper than they may. -/
theorem height_term_le (a : Action) : a.term.height ≤ maxDepth := by
  cases a with
  | link url => exact Nat.zero_le _
  | call command ps =>
      have hParams := heightOf_params ps
      simp only [term, Term.height, heightOf, maxDepth]
      omega

theorem parse_eq_ok_iff {s : String} {a : Action} :
    parse s = .ok a ↔ readTerms s = .ok [a.term] := by
  rw [parse, bind_eq_ok_iff]
  simp only [ofTerms_eq_ok_iff, exists_eq_right]

theorem prints_iff_laidOut {s : String} {a : Action} :
    ((∀ w ∈ a.term.words, IsWord w) ∧ Prints a s) ↔
      ∃ k, LaidOut s.toList (a.term.tokens ++ List.replicate k .closing) := by
  constructor
  · rintro ⟨hWords, l, k, hSeparates, hTokens, rfl⟩
    refine ⟨k, laidOut_iff_spacing.2 ⟨?_, l, hSeparates, String.toList_ofList.symm, hTokens⟩⟩
    intro t hMem
    rcases List.mem_append.1 hMem with hTerm | hSurplus
    · exact Term.isProper_of_mem_tokens a.term hWords t hTerm
    · rw [List.eq_of_mem_replicate hSurplus]
      trivial
  · rintro ⟨k, hLaid⟩
    obtain ⟨hProper, l, hSeparates, hChars, hTokens⟩ := laidOut_iff_spacing.1 hLaid
    refine ⟨?_, l, k, hSeparates, hTokens, by rw [hChars, String.ofList_toList]⟩
    intro w hMem
    exact isProper_word_iff.1
      (hProper _ (List.mem_append_left _ (Term.word_mem_tokens a.term w hMem)))

/-- **The texts that are read as an action are its printings**, and its words are proper. -/
theorem parse_iff_prints {s : String} {a : Action} :
    parse s = .ok a ↔ (∀ w ∈ a.term.words, IsWord w) ∧ Prints a s := by
  rw [parse_eq_ok_iff, prints_iff_laidOut]
  have hTokens : tokensOf [a.term] = a.term.tokens := List.append_nil _
  constructor
  · intro h
    obtain ⟨k, hLaid⟩ := (accepts_of_readTerms h).layout
    exact ⟨k, hTokens ▸ hLaid⟩
  · rintro ⟨k, hLaid⟩
    refine termsOf_iff.2 ⟨List.cons_ne_nil _ _, ?_, k, ?_⟩
    · rw [heightOf, heightOf, Nat.max_zero]
      exact height_term_le a
    · rw [tokens_of_laidOut hLaid, hTokens]

/-- **Reading undoes printing.**  An action whose words are proper has printings and is read from
each of them.  A text that is read as an action is a printing of it, and every other printing is
read as the same action.  And where the terms of a text are no action, there are several of them,
or the only one has no command at its head. -/
theorem printing_roundTrip :
    (∀ a : Action, (∀ w ∈ a.term.words, IsWord w) →
      (∃ s, Prints a s) ∧ ∀ s, Prints a s → parse s = .ok a) ∧
    (∀ (s : String) (a : Action), parse s = .ok a →
      Prints a s ∧ ∀ s', Prints a s' → parse s' = .ok a) ∧
    ∀ (s : String) (es : List Term), readTerms s = .ok es →
      (∀ e, parse s = .error e → e = .trailingInput ∨ e = .missingCommand) ∧
      (parse s = .error .trailingInput ↔ 2 ≤ es.length) ∧
      (parse s = .error .missingCommand ↔ Headless es) ∧
      ofTerms es ≠ .error .empty ∧ ofTerms es ≠ .error .tooDeep := by
  refine ⟨?_, ?_, ?_⟩
  · intro a hWords
    exact ⟨exists_prints a, fun s hPrints => parse_iff_prints.2 ⟨hWords, hPrints⟩⟩
  · intro s a hParse
    obtain ⟨hWords, hPrints⟩ := parse_iff_prints.1 hParse
    exact ⟨hPrints, fun s' hPrints' => parse_iff_prints.2 ⟨hWords, hPrints'⟩⟩
  · intro s es hRead
    obtain ⟨hSome, hShallow, -⟩ := termsOf_iff.1 hRead
    have hError := ofTerms_eq_error_iff hSome hShallow
    have hParse : parse s = ofTerms es := by
      rw [parse, hRead]
      rfl
    rw [hParse]
    refine ⟨?_, ?_, ?_, ?_, ?_⟩
    · intro e hFails
      rcases (hError e).1 hFails with ⟨hTrailing, -⟩ | ⟨hMissing, -⟩
      · exact .inl hTrailing
      · exact .inr hMissing
    · simp [hError]
    · simp [hError]
    · simp [hError]
    · simp [hError]

/-- A call with an empty tuple, and a printing of it with a parenthesis too many. -/
theorem printing_roundTrip_emptyTuple :
    let a : Action := .call "goto" [.tuple [], .word "home"]
    (∀ w ∈ a.term.words, IsWord w) ∧ Prints a "( goto() home) )" ∧
      parse "( goto() home) )" = .ok a ∧ (∀ s, Prints a s → parse s = .ok a) ∧
      readTerms "((goto))" = .ok [.list [.list [.word "goto"]]] ∧
      parse "((goto))" = .error .missingCommand := by
  intro a
  have hWords : ∀ w ∈ a.term.words, IsWord w := by decide +kernel
  let l : Spacing :=
    ⟨[([], .opening), ([' '], .word "goto".toList), ([], .opening), ([], .closing),
      ([' '], .word "home".toList), ([], .closing), ([' '], .closing)], []⟩
  have hPrints : Prints a "( goto() home) )" := ⟨l, 1, by decide +kernel, rfl, by decide +kernel⟩
  have hRead : readTerms "((goto))" = .ok [.list [.list [.word "goto"]]] := by
    have hTokens : tokens "((goto))".toList =
        [.opening, .opening, .word "goto".toList, .closing, .closing] := by
      decide +kernel
    unfold readTerms
    rw [hTokens]
    rfl
  obtain ⟨hPrinted, hAgain, hFailure⟩ := printing_roundTrip
  have hParse := (hPrinted a hWords).2 _ hPrints
  obtain ⟨-, -, hMissing, -⟩ := hFailure _ _ hRead
  exact ⟨hWords, hPrints, hParse, (hAgain _ _ hParse).2, hRead,
    hMissing.2 (.inr ⟨_, _, rfl⟩)⟩

end PaneEngine.Action
