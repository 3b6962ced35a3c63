import PaneEngine.Proofs.Action.Layout
import PaneEngine.Proofs.Action.Reading

/-!
# The grammar of terms

A text is read as terms exactly if it lays out the tokens that the terms are
written with, and behind them nothing but closing parentheses.

## Main definitions

* `Accepts` — the grammar.

## Main results

* `accepts_surplus` — closing parentheses behind an accepted text;
* `readTerms_iff_accepts` — the grammar says which texts are read as which terms.
-/

namespace PaneEngine.Action

open Term (tokensOf heightOf wordsOf)

/-- The grammar: the text has plain characters and lays out the tokens of some terms, which nest no
deeper than they may and have no empty word, and behind them closing parentheses. -/
structure Accepts (s : String) (es : List Term) : Prop where
  plain : ∀ c ∈ s.toList, isPlain c = true
  some : es ≠ []
  shallow : heightOf es ≤ maxDepth
  words : ∀ w ∈ wordsOf es, w ≠ ""
  layout : ∃ k, LaidOut s.toList (tokensOf es ++ List.replicate k .closing)

theorem stray_not_mem_of_terms {es : List Term} {k : Nat} (c : Char) :
    Token.stray c ∉ tokensOf es ++ List.replicate k .closing := by
  intro hMem
  rcases List.mem_append.1 hMem with hTerms | hSurplus
  · exact Term.stray_not_mem_tokensOf c es hTerms
  · cases (List.mem_replicate.1 hSurplus).2

theorem accepts_of_readTerms {s : String} {es : List Term} (h : readTerms s = .ok es) :
    Accepts s es := by
  obtain ⟨hSome, hShallow, k, hTokens⟩ := termsOf_iff.1 h
  have hLaid : LaidOut s.toList (tokens s.toList) := by
    refine laidOut_of_no_stray ?_
    intro c
    rw [hTokens]
    exact stray_not_mem_of_terms c
  rw [hTokens] at hLaid
  refine ⟨isPlain_of_laidOut hLaid, hSome, hShallow, ?_, k, hLaid⟩
  intro w hMem hEmpty
  have hToken := List.mem_append_left (List.replicate k .closing)
    (Term.word_mem_tokensOf es w hMem)
  exact word_ne_nil_of_laidOut hLaid hToken (by rw [hEmpty]; rfl)

theorem readTerms_of_accepts {s : String} {es : List Term} (h : Accepts s es) :
    readTerms s = .ok es := by
  obtain ⟨k, hLaid⟩ := h.layout
  exact termsOf_iff.2 ⟨h.some, h.shallow, k, tokens_of_laidOut hLaid⟩

/-- Closing parentheses lay themselves out. -/
theorem laidOut_closing (n : Nat) :
    LaidOut (List.replicate n ')') (List.replicate n .closing) := by
  induction n with
  | zero => exact .nil
  | succ n ih => exact .closing ih

theorem not_isWordChar_head_closing (n : Nat) :
    ∀ c ∈ (List.replicate n ')').head?, isWordChar c = false := by
  intro c hMem
  have hParen : c = ')' := List.eq_of_mem_replicate (List.mem_of_mem_head? hMem)
  rw [hParen]
  decide

/-- Closing parentheses behind an accepted text change nothing. -/
theorem accepts_surplus {s : String} {es : List Term} (h : Accepts s es) (n : Nat) :
    Accepts (s ++ String.ofList (List.replicate n ')')) es := by
  obtain ⟨k, hLaid⟩ := h.layout
  have hText : (s ++ String.ofList (List.replicate n ')')).toList =
      s.toList ++ List.replicate n ')' := by
    rw [String.toList_append, String.toList_ofList]
  have hBoth := laidOut_append hLaid (laidOut_closing n) (not_isWordChar_head_closing n)
  rw [List.append_assoc, List.replicate_append_replicate, ← hText] at hBoth
  exact ⟨isPlain_of_laidOut hBoth, h.some, h.shallow, h.words, k + n, hBoth⟩

/-- **The grammar says which texts are read as which terms**, for every text and all terms.  So the
terms of a text are the only ones that the grammar gives it; texts that lay out the same tokens,
however blanks stand between them, are read alike; and closing parentheses behind an accepted text
change nothing. -/
theorem readTerms_iff_accepts (s : String) (es : List Term) :
    (readTerms s = .ok es ↔ Accepts s es) ∧
    (∀ es', Accepts s es → Accepts s es' → es' = es) ∧
    (∀ s' ts, LaidOut s.toList ts → LaidOut s'.toList ts → readTerms s' = readTerms s) ∧
    (readTerms s = .ok es →
      ∀ n, readTerms (s ++ String.ofList (List.replicate n ')')) = .ok es) := by
  refine ⟨⟨accepts_of_readTerms, readTerms_of_accepts⟩, ?_, ?_, ?_⟩
  · intro es' hEs hEs'
    have hOk := (readTerms_of_accepts hEs').symm.trans (readTerms_of_accepts hEs)
    injection hOk
  · intro s' ts hLaid hLaid'
    unfold readTerms
    rw [tokens_of_laidOut hLaid, tokens_of_laidOut hLaid']
  · intro hRead n
    exact readTerms_of_accepts (accepts_surplus (accepts_of_readTerms hRead) n)

end PaneEngine.Action
