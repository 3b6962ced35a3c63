import Mathlib.Data.List.Infix
import PaneEngine.Proofs.Config.Substitution

/-!
# Texts that stand for themselves

A second dollar sign in front takes away the meaning of a reference, and the text
that is left is the reference without it.  So every text can be written in a
configuration: an extra dollar sign goes before each reference in it, also
before one that follows dollar signs already, and what comes out is the text
itself, whatever the variables are.

The escaped text has no references but the escaped ones.  Names and braces hold
no dollar sign, so nothing is inserted into them, and a reference that starts in
the escaped text starts in the text as well.

## Main definitions

* `Opens` — a reference starts at the front of a text;
* `escape` — a text with an extra dollar sign before each reference.

## Main results

* `opens_of_escapeChars_eq` — escaping makes no references;
* `escapeChars_eq_self` — a text without references needs no escaping;
* `literal_expressible` — every text can be written.
-/

namespace PaneEngine.Config

/-! ## References in a text -/

/-- A reference that is not escaped starts at the front. -/
def Opens (cs : List Char) : Prop :=
  ∃ name after, IsName name ∧ cs = '$' :: (Piece.braced name ++ after)

theorem opens_cons_iff {c : Char} {rest : List Char} :
    Opens (c :: rest) ↔ c = '$' ∧ (bracedName? rest).isSome = true := by
  rw [Option.isSome_iff_exists]
  constructor
  · rintro ⟨name, after, hName, hEq⟩
    obtain ⟨rfl, hRest⟩ := List.cons.inj hEq
    exact ⟨rfl, (name, after), bracedName?_eq_some_iff.2 ⟨hName, hRest⟩⟩
  · rintro ⟨rfl, ⟨name, after⟩, hBraced⟩
    obtain ⟨hName, rfl⟩ := bracedName?_eq_some_iff.1 hBraced
    exact ⟨name, after, hName, rfl⟩

theorem not_opens_nil : ¬ Opens [] := by
  rintro ⟨name, after, -, hEq⟩
  cases hEq

instance : DecidablePred Opens
  | [] => .isFalse not_opens_nil
  | _ :: _ => decidable_of_iff _ opens_cons_iff.symm

theorem not_opens_of_ne {c : Char} (h : '$' ≠ c) (rest : List Char) : ¬ Opens (c :: rest) :=
  fun hOpens => h (opens_cons_iff.1 hOpens).1.symm

/-- No dollar sign stands in a name in braces. -/
theorem dollar_not_mem_braced {name : List Char} (h : IsName name) : '$' ∉ Piece.braced name := by
  have hChars : ∀ c ∈ name, isNameChar c = true := by
    cases name with
    | nil => exact absurd h id
    | cons c cs =>
        obtain ⟨hStart, hRest⟩ := isName_cons_iff.1 h
        exact List.forall_mem_cons.2 ⟨by rw [isNameChar, hStart, Bool.true_or], hRest⟩
  intro hMem
  rcases List.mem_cons.1 hMem with hOpening | hMem
  · exact absurd hOpening (by decide)
  · rcases List.mem_append.1 hMem with hName | hClosing
    · exact absurd (hChars _ hName) (by decide)
    · exact absurd (List.mem_singleton.1 hClosing) (by decide)

/-! ## Escaping -/

/-- The characters of a text, with an extra dollar sign before each reference. -/
def escapeChars : List Char → List Char
  | [] => []
  | c :: rest =>
    if Opens (c :: rest) then '$' :: c :: escapeChars rest else c :: escapeChars rest

/-- The text with an extra dollar sign before each reference. -/
def escape (s : String) : String := String.ofList (escapeChars s.toList)

theorem escapeChars_of_opens {c : Char} {rest : List Char} (h : Opens (c :: rest)) :
    escapeChars (c :: rest) = '$' :: c :: escapeChars rest := by
  rw [escapeChars, if_pos h]

theorem escapeChars_of_not_opens {c : Char} {rest : List Char} (h : ¬ Opens (c :: rest)) :
    escapeChars (c :: rest) = c :: escapeChars rest := by
  rw [escapeChars, if_neg h]

/-- An escaped text starts as the text does, or with the dollar sign put before a reference. -/
theorem escapeChars_cons (c : Char) (rest : List Char) :
    escapeChars (c :: rest) = '$' :: '$' :: escapeChars rest ∨
      escapeChars (c :: rest) = c :: escapeChars rest ∧ ¬ Opens (c :: rest) := by
  by_cases hOpens : Opens (c :: rest)
  · refine .inl ?_
    rw [escapeChars_of_opens hOpens, (opens_cons_iff.1 hOpens).1]
  · exact .inr ⟨escapeChars_of_not_opens hOpens, hOpens⟩

/-- Characters that are no dollar signs stay, whatever comes behind them. -/
theorem escapeChars_append {cs : List Char} (h : '$' ∉ cs) (after : List Char) :
    escapeChars (cs ++ after) = cs ++ escapeChars after := by
  induction cs with
  | nil => rfl
  | cons c cs ih =>
      rw [List.cons_append,
        escapeChars_of_not_opens (not_opens_of_ne (List.ne_of_not_mem_cons h) _),
        ih (List.not_mem_of_not_mem_cons h), List.cons_append]

/-- Characters that are no dollar signs were there before. -/
theorem exists_of_escapeChars_eq {cs part after : List Char} (hPart : '$' ∉ part)
    (h : escapeChars cs = part ++ after) : ∃ rest, cs = part ++ rest := by
  induction part generalizing cs with
  | nil => exact ⟨cs, rfl⟩
  | cons c part ih =>
      cases cs with
      | nil => cases h
      | cons d cs =>
          rcases escapeChars_cons d cs with hTwice | ⟨hSame, -⟩
          · rw [hTwice] at h
            exact absurd (List.cons.inj h).1 (List.ne_of_not_mem_cons hPart)
          · rw [hSame] at h
            obtain ⟨rfl, hTail⟩ := List.cons.inj h
            obtain ⟨rest, rfl⟩ := ih (List.not_mem_of_not_mem_cons hPart) hTail
            exact ⟨rest, rfl⟩

/-- Escaping makes no references: one behind an escaped text's dollar sign was one before. -/
theorem opens_of_escapeChars_eq {rest name after : List Char} (hName : IsName name)
    (h : escapeChars rest = Piece.braced name ++ after) : Opens ('$' :: rest) := by
  obtain ⟨after', rfl⟩ := exists_of_escapeChars_eq (dollar_not_mem_braced hName) h
  exact ⟨name, after', hName, rfl⟩

/-- Where no reference starts in a text, none starts in the escaped text, escaped or not. -/
theorem no_reference_of_not_opens {c : Char} {rest : List Char} (h : ¬ Opens (c :: rest))
    (escaped : Bool) (name after : List Char) (hName : IsName name) :
    c :: escapeChars rest ≠ (Piece.reference escaped name).chars ++ after := by
  intro hEq
  cases escaped with
  | false =>
      have hTail : escapeChars rest = Piece.braced name ++ after := (List.cons.inj hEq).2
      have hDollar : c = '$' := (List.cons.inj hEq).1
      exact h (hDollar ▸ opens_of_escapeChars_eq hName hTail)
  | true =>
      have hTail : escapeChars rest = '$' :: (Piece.braced name ++ after) := (List.cons.inj hEq).2
      -- The second dollar sign stood in the text, and there a reference starts with it.
      cases rest with
      | nil => cases hTail
      | cons d rest =>
          rcases escapeChars_cons d rest with hTwice | ⟨hSame, hNone⟩
          · rw [hTwice] at hTail
            have hBrace : '$' = '\x7b' := (List.cons.inj (List.cons.inj hTail).2).1
            exact absurd hBrace (by decide)
          · rw [hSame] at hTail
            obtain ⟨rfl, hBraced⟩ := List.cons.inj hTail
            exact hNone (opens_of_escapeChars_eq hName hBraced)

/-- The escaped text is cut into escaped references and characters, and they stand for the text. -/
theorem exists_cuts_escapeChars (env : Environment) (cs : List Char) :
    ∃ ps, Cuts (escapeChars cs) ps ∧ Replaces env ps cs := by
  match cs with
  | [] => exact ⟨[], .nil, .nil⟩
  | c :: rest =>
      by_cases hOpens : Opens (c :: rest)
      · obtain ⟨name, after, hName, hEq⟩ := id hOpens
        obtain ⟨ps, hCuts, hReplaces⟩ := exists_cuts_escapeChars env after
        refine ⟨.reference true name :: ps, ?_, ?_⟩
        · rw [escapeChars_of_opens hOpens, (List.cons.inj hEq).1, (List.cons.inj hEq).2,
            escapeChars_append (dollar_not_mem_braced hName)]
          show Cuts ((Piece.reference true name).chars ++ escapeChars after) _
          exact .reference hName hCuts
        · rw [hEq]
          exact .escaped hReplaces
      · obtain ⟨ps, hCuts, hReplaces⟩ := exists_cuts_escapeChars env rest
        refine ⟨.char c :: ps, ?_, .char hReplaces⟩
        rw [escapeChars_of_not_opens hOpens]
        exact .char (no_reference_of_not_opens hOpens) hCuts
termination_by cs.length
decreasing_by
  · have hLength := congrArg List.length hEq
    simp only [List.length_cons, List.length_append] at hLength ⊢
    omega
  · exact Nat.lt_succ_self _

theorem expands_escape (env : Environment) (s : String) : Expands env (escape s) s := by
  obtain ⟨ps, hCuts, hReplaces⟩ := exists_cuts_escapeChars env s.toList
  refine ⟨ps, ?_, hReplaces⟩
  rw [escape, String.toList_ofList]
  exact hCuts

theorem escapeChars_eq_self {cs : List Char} (h : ∀ after, after <:+ cs → ¬ Opens after) :
    escapeChars cs = cs := by
  induction cs with
  | nil => rfl
  | cons c rest ih =>
      rw [escapeChars_of_not_opens (h _ List.suffix_rfl), ih]
      intro after hSuffix
      exact h after (hSuffix.trans (List.suffix_cons c rest))

/-- **Every text can be written.**  For all variables, none set included: the text with an extra
dollar sign before each reference becomes the text itself, at every path of a document; and a text
in which no reference starts is left as it is. -/
theorem literal_expressible (env : Environment) (s : String) :
    expand env (escape s) = .ok s ∧
    (∀ path, substituteAt env path (.string (escape s)) = .ok (.string s)) ∧
    ((∀ after, after <:+ s.toList → ¬ Opens after) → escape s = s ∧ expand env s = .ok s) := by
  have hEscaped : expand env (escape s) = .ok s := expand_eq_ok_iff.2 (expands_escape env s)
  refine ⟨hEscaped, ?_, ?_⟩
  · intro path
    exact substituteAt_string_eq_ok_iff.2 ⟨s, expands_escape env s, rfl⟩
  · intro hNone
    have hSame : escape s = s := by
      rw [escape, escapeChars_eq_self hNone, String.ofList_toList]
    rw [hSame] at hEscaped
    exact ⟨hSame, hEscaped⟩

/-- Dollar signs before a reference stay, references may follow each other, and neither a small
letter nor a digit starts a name. -/
theorem literal_expressible_dollarSigns :
    escape "$$${A}${B_1}${a}" = "$$$${A}$${B_1}${a}" ∧
      expand (fun _ => none) "$$$${A}$${B_1}${a}" = .ok "$$${A}${B_1}${a}" ∧
      expand (fun _ => none) "$${a} ${1A} $" = .ok "$${a} ${1A} $" := by
  have hEscape : escape "$$${A}${B_1}${a}" = "$$$${A}$${B_1}${a}" := by decide +kernel
  have hNone : ∀ after, after <:+ "$${a} ${1A} $".toList → ¬ Opens after := by
    simp only [← List.mem_tails]
    decide +kernel
  obtain ⟨hEscaped, -, -⟩ := literal_expressible (fun _ => none) "$$${A}${B_1}${a}"
  rw [hEscape] at hEscaped
  obtain ⟨-, -, hPlain⟩ := literal_expressible (fun _ => none) "$${a} ${1A} $"
  exact ⟨hEscape, hEscaped, (hPlain hNone).2⟩

end PaneEngine.Config
