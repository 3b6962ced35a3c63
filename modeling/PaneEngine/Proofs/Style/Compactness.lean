import PaneEngine.Proofs.Json.Notation
import PaneEngine.Proofs.Style.Override

/-!
# Values that are left out and texts that repeat

A value is left out where it equals its neighbour in the tuple, but what the
styles hold are texts.  Numbers with the same text are the same, and so are truth
values, so among values of one kind no text is ever repeated.  A text that reads
like a number or a truth value does not equal it, though, and then the text is
there at both breakpoints.

## Main definitions

* `Responsive.IsCompact` — no breakpoint repeats a text of the one before it.

## Main results

* `Value.same_of_toText_eq` — values with the same text are equal unless just one is a text;
* `Overrides.isCompact_iff_kinds_agree` — when the styles of an occurrence are compact;
* `Overrides.not_isCompact_numberAsText` — a text before a number that reads the same.
-/

namespace PaneEngine.Style

namespace Value

/-- Whether a value is given as a text. -/
def isText : Value → Bool
  | text _ => true
  | number _ => false
  | bool _ => false

theorem isText_eq_of_same {u v : Value} (h : u.same v = true) : u.isText = v.isText := by
  cases u <;> cases v <;> first | rfl | cases h

/-- No number is written like a truth value. -/
theorem toText_number_ne_toText_bool (n : Json.Number) (b : Bool) :
    (number n).toText ≠ (bool b).toText := by
  intro hText
  obtain ⟨k, hRead⟩ := Json.exists_numeral?_text n
  rw [show n.text = (bool b).toText from hText] at hRead
  cases b <;> cases hRead

/-- **Values with the same text are equal** if both of them are texts or neither is. -/
theorem same_of_toText_eq {u v : Value} (hText : u.toText = v.toText)
    (hKind : u.isText = v.isText) : u.same v = true := by
  cases u with
  | text s =>
      cases v with
      | text t => exact decide_eq_true hText
      | number m => cases hKind
      | bool c => cases hKind
  | number n =>
      cases v with
      | text t => cases hKind
      | number m =>
          rw [Json.Number.eq_of_text_eq hText]
          exact same_refl (number m)
      | bool c => exact absurd hText (toText_number_ne_toText_bool n c)
  | bool b =>
      cases v with
      | text t => cases hKind
      | number m => exact absurd hText.symm (toText_number_ne_toText_bool m b)
      | bool c => cases b <;> cases c <;> first | rfl | exact absurd hText (by decide)

end Value

/-- No breakpoint has the same text for a property as the breakpoint before it. -/
def Responsive.IsCompact (r : Responsive) : Prop :=
  ∀ property n s, r.textAt? property n = some s → r.textAt? property (n + 1) ≠ some s

namespace Overrides

/-- The styles of an occurrence are compact just if a value that is kept and the one after it
are both texts or both none wherever they read the same. -/
theorem isCompact_iff_kinds_agree (o : Overrides) (index : Nat) :
    (o.stylesAt index).IsCompact ↔
      ∀ property n u v, n + 1 < Breakpoint.all.length →
        o.keptAt? property index n = some u → o.valueAt? property index (n + 1) = some v →
          u.toText = v.toText → u.isText = v.isText := by
  constructor
  · intro hCompact property n u v hPosition hKept hValue hText
    refine Decidable.byContradiction fun hKinds => ?_
    have hDiffers : ∀ w, o.valueAt? property index n = some w → w.same v = false := by
      intro w hw
      obtain rfl : u = w := Option.some.inj ((valueAt?_of_keptAt? hKept).symm.trans hw)
      exact Bool.eq_false_iff.2 fun hSame => hKinds (Value.isText_eq_of_same hSame)
    have hNext := (keptAt?_succ_eq_some_iff o property index n v).2 ⟨hValue, hDiffers⟩
    refine hCompact property n u.toText ?_ ?_
    · rw [textAt?_stylesAt o index property (Nat.lt_of_succ_lt hPosition), hKept]
      rfl
    · rw [textAt?_stylesAt o index property hPosition, hNext, hText]
      rfl
  · intro hKinds property n s hEntry hNext
    obtain ⟨-, u, hKept, hText⟩ := keptAt?_of_textAt? hEntry
    obtain ⟨hPosition, v, hKept', hText'⟩ := keptAt?_of_textAt? hNext
    obtain ⟨hValue, hDiffers⟩ := (keptAt?_succ_eq_some_iff o property index n v).1 hKept'
    have hSameText : u.toText = v.toText := hText.trans hText'.symm
    have hSame : u.same v = true := Value.same_of_toText_eq hSameText
      (hKinds property n u v hPosition hKept hValue hSameText)
    exact Bool.eq_false_iff.1 (hDiffers u (valueAt?_of_keptAt? hKept)) hSame

/-- **Styles are not always compact.**  A text that reads like the number after it does not equal
that number, and both breakpoints have the text. -/
theorem not_isCompact_numberAsText :
    let o : Overrides := Dict.empty.insert "w" [some [some (.text "12"), some (.number (.int 12))]]
    (o.stylesAt 0).textAt? "w" 0 = some "12" ∧ (o.stylesAt 0).textAt? "w" 1 = some "12" ∧
      ¬ (o.stylesAt 0).IsCompact := by
  intro o
  have hFirst : (o.stylesAt 0).textAt? "w" 0 = some "12" := by decide
  have hSecond : (o.stylesAt 0).textAt? "w" 1 = some "12" := by decide
  exact ⟨hFirst, hSecond, fun hCompact => hCompact "w" 0 "12" hFirst hSecond⟩

end Overrides

end PaneEngine.Style
