import PaneEngine.Proofs.Json.Notation
import PaneEngine.Proofs.Style.Override

/-!
# Reading styles from the smallest breakpoint up

A breakpoint that has no value for a property takes over the one of the next
smaller breakpoint.  A value is left out of the styles only where its neighbour
in the tuple equals it, so that the cascade ends at a value equal to the one that
was left out: along the cascade each value equals the one before it.

What is read is a text.  A text that shows a value is that value as it stands in a
stylesheet: a text is itself, and what a number is written as is a numeral for it.

## Main definitions

* `Responsive.readAt` — what holds for a property at a position;
* `Value.Shows` — a text shows a value.

## Main results

* `Value.shows_toText` — the text of a value shows it;
* `Overrides.readAt_stylesAt` — the cascade ends at an equal value;
* `Overrides.stylesAt_congr` — the styles depend on the values of their occurrence alone;
* `Overrides.cascade_lossless` — leaving out values loses none of them.
-/

namespace PaneEngine.Style

namespace Responsive

/-- The text that holds for a property at a position: its own, or else the one that holds at
the position before. -/
def readAt (r : Responsive) (property : String) : Nat → Option String
  | 0 => r.textAt? property 0
  | n + 1 => (r.textAt? property (n + 1)).or (r.readAt property n)

theorem readAt_of_textAt? {r : Responsive} {property s : String} {n : Nat}
    (h : r.textAt? property n = some s) : r.readAt property n = some s := by
  cases n with
  | zero => exact h
  | succ n =>
      unfold readAt
      rw [h, Option.some_or]

theorem readAt_succ_of_textAt?_eq_none {r : Responsive} {property : String} {n : Nat}
    (h : r.textAt? property (n + 1) = none) :
    r.readAt property (n + 1) = r.readAt property n := by
  show (r.textAt? property (n + 1)).or (r.readAt property n) = _
  rw [h, Option.none_or]

end Responsive

namespace Value

/-- A text shows a value: texts show themselves, truth values have their names, an integer has its
decimal digits, and a double any numeral, with its sign, of a decimal that is rounded to it. -/
inductive Shows : Value → String → Prop where
  | text (s : String) : Shows (text s) s
  | yes : Shows (bool true) "true"
  | no : Shows (bool false) "false"
  | int (i : Int) : Shows (number (.int i)) (toString i)
  | double {x : Binary64} {s : String} {magnitude : List Char} {y : ℚ}
      (hText : s.toList = (if x.negative then ['-'] else []) ++ magnitude)
      (hDenotes : Json.Denotes magnitude x.negative y)
      (hRounds : if x.magnitude = 0 then y = 0
        else 0 < y ∧ (Decimal.Interval.ofMagnitude x.magnitude).Holds y) :
      Shows (number (.double x)) s

/-- **The text of a value shows it.** -/
theorem shows_toText (v : Value) : v.Shows v.toText := by
  cases v with
  | text s => exact .text s
  | number n =>
      cases n with
      | int i => exact .int i
      | double x =>
          obtain ⟨y, hDenotes, hRounds⟩ := Json.denotes_double x
          exact .double (Json.toList_text_double x) hDenotes hRounds
  | bool b =>
      cases b with
      | true => exact .yes
      | false => exact .no

end Value

namespace Overrides

variable (o : Overrides) (index : Nat)

/-- An entry comes from the value at the same position for the same occurrence. -/
theorem valueAt?_of_textAt? {property s : String} {n : Nat}
    (h : (o.stylesAt index).textAt? property n = some s) :
    n < Breakpoint.all.length ∧ ∃ v, o.valueAt? property index n = some v ∧ v.toText = s := by
  obtain ⟨hPosition, v, hKept, hText⟩ := keptAt?_of_textAt? h
  exact ⟨hPosition, v, valueAt?_of_keptAt? hKept, hText⟩

/-- Past the first position an entry is there just where the value differs from its neighbour. -/
theorem isSome_textAt?_succ_iff (property : String) {n : Nat}
    (h : n + 1 < Breakpoint.all.length) :
    ((o.stylesAt index).textAt? property (n + 1)).isSome = true ↔
      ∃ v, o.valueAt? property index (n + 1) = some v ∧
        ∀ u, o.valueAt? property index n = some u → u.same v = false := by
  rw [textAt?_stylesAt o index property h, Option.isSome_map, Option.isSome_iff_exists]
  exact exists_congr fun v => keptAt?_succ_eq_some_iff o property index n v

/-- The induction is along the cascade: a value that is left out equals its neighbour, which
by induction equals the value the cascade ends at. -/
theorem readAt_stylesAt {property : String} {n : Nat} (hPosition : n < Breakpoint.all.length)
    {v : Value} (h : o.valueAt? property index n = some v) :
    ∃ m w, m ≤ n ∧ o.valueAt? property index m = some w ∧ w.same v = true ∧
      (o.stylesAt index).readAt property n = some w.toText := by
  induction n generalizing v with
  | zero =>
      refine ⟨0, v, Nat.le_refl 0, h, v.same_refl, Responsive.readAt_of_textAt? ?_⟩
      rw [textAt?_stylesAt o index property hPosition, keptAt?_zero, h]
      rfl
  | succ n ih =>
      cases hKept : o.keptAt? property index (n + 1) with
      | some v' =>
          obtain rfl : v = v' := Option.some.inj (h.symm.trans (valueAt?_of_keptAt? hKept))
          refine ⟨n + 1, v, Nat.le_refl _, h, v.same_refl, Responsive.readAt_of_textAt? ?_⟩
          rw [textAt?_stylesAt o index property hPosition, hKept]
          rfl
      | none =>
          have hRepeats : ∃ u, o.valueAt? property index n = some u ∧ u.same v = true := by
            refine Decidable.byContradiction fun hNone => ?_
            have hDiffers : ∀ u, o.valueAt? property index n = some u → u.same v = false :=
              fun u hu => Bool.eq_false_iff.2 fun hSame => hNone ⟨u, hu, hSame⟩
            rw [(keptAt?_succ_eq_some_iff o property index n v).2 ⟨h, hDiffers⟩] at hKept
            cases hKept
          obtain ⟨u, hu, hSame⟩ := hRepeats
          obtain ⟨m, w, hLe, hw, hSame', hRead⟩ := ih (Nat.lt_of_succ_lt hPosition) hu
          refine ⟨m, w, Nat.le_succ_of_le hLe, hw, Value.same_trans hSame' hSame, ?_⟩
          rw [Responsive.readAt_succ_of_textAt?_eq_none, hRead]
          rw [textAt?_stylesAt o index property hPosition, hKept]
          rfl

/-- Two tables that give an occurrence the same values give it the same styles. -/
theorem stylesAt_congr {o o' : Overrides} {index : Nat}
    (h : ∀ property n, n < Breakpoint.all.length →
      o.valueAt? property index n = o'.valueAt? property index n) :
    o.stylesAt index = o'.stylesAt index := by
  have hKept : ∀ property n, n < Breakpoint.all.length →
      o.keptAt? property index n = o'.keptAt? property index n := by
    intro property n hPosition
    rw [keptAt?_eq, keptAt?_eq, h property n hPosition,
      h property (n - 1) (Nat.lt_of_le_of_lt (Nat.sub_le n 1) hPosition)]
  have hEntry : ∀ b property n, Breakpoint.ofPosition? n = some b →
      (o.stylesAt index).value? b property = (o'.stylesAt index).value? b property := by
    intro b property n hb
    obtain ⟨hPosition, -⟩ := List.getElem?_eq_some_iff.1 hb
    have hEq : (o.stylesAt index).textAt? property n = (o'.stylesAt index).textAt? property n := by
      rw [textAt?_stylesAt o index property hPosition, hKept property n hPosition,
        textAt?_stylesAt o' index property hPosition]
    unfold Responsive.textAt? at hEq
    rwa [hb] at hEq
  refine Responsive.ext_value? (isTight_stylesAt o index) (isTight_stylesAt o' index) ?_
  intro b property
  cases b with
  | mobile => exact hEntry .mobile property 0 rfl
  | tablet => exact hEntry .tablet property 1 rfl
  | desktop => exact hEntry .desktop property 2 rfl

/-- Leaving out repeated values loses none: at each breakpoint that a tuple gives a value the
cascade reads the text of an equal value of the tuple, and that text shows it.  Nothing else is in
the styles: entries come from values at their own position for their own occurrence, past the first
position just where they differ from their neighbour, and no other values have an influence. -/
theorem cascade_lossless :
    (∀ property n v, n < Breakpoint.all.length → o.valueAt? property index n = some v →
      ∃ m w, m ≤ n ∧ o.valueAt? property index m = some w ∧ w.same v = true ∧
        (o.stylesAt index).readAt property n = some w.toText) ∧
    (∀ v : Value, v.Shows v.toText) ∧
    (∀ property n s, (o.stylesAt index).textAt? property n = some s →
      n < Breakpoint.all.length ∧ ∃ v, o.valueAt? property index n = some v ∧ v.toText = s) ∧
    (∀ property n, n + 1 < Breakpoint.all.length →
      (((o.stylesAt index).textAt? property (n + 1)).isSome = true ↔
        ∃ v, o.valueAt? property index (n + 1) = some v ∧
          ∀ u, o.valueAt? property index n = some u → u.same v = false)) ∧
    (∀ o' : Overrides, (∀ property n, n < Breakpoint.all.length →
        o.valueAt? property index n = o'.valueAt? property index n) →
      o.stylesAt index = o'.stylesAt index) := by
  refine ⟨?_, Value.shows_toText, ?_, ?_, ?_⟩
  · exact fun property n v hPosition h => readAt_stylesAt o index hPosition h
  · exact fun property n s h => valueAt?_of_textAt? o index h
  · exact fun property n h => isSome_textAt?_succ_iff o index property h
  · exact fun o' h => stylesAt_congr h

/-- The two zeros are equal though their texts differ: where the second one is left out, the
text of the first one is read.  A text is kept before a truth value that it reads like. -/
theorem cascade_lossless_zeros :
    let zero : Value := .number (.double .zero)
    let negative : Value := .number (.double ⟨true, 0, by decide⟩)
    let o : Overrides := .ofList [("hidden", [none, some [some (.text "true"), some (.bool true)]]),
      ("top", [none, some [some zero, some negative, none]])]
    o.valueAt? "top" 1 1 = some negative ∧ negative.toText = "-0.0" ∧
      (o.stylesAt 1).textAt? "top" 0 = some "0.0" ∧ (o.stylesAt 1).textAt? "top" 1 = none ∧
      (∃ m w, m ≤ 1 ∧ o.valueAt? "top" 1 m = some w ∧ w.same negative = true ∧
        (o.stylesAt 1).readAt "top" 1 = some w.toText) ∧
      (o.stylesAt 1).readAt "top" 1 = some "0.0" ∧
      (o.stylesAt 1).textAt? "hidden" 0 = some "true" ∧
      (o.stylesAt 1).textAt? "hidden" 1 = some "true" ∧ o.stylesAt 0 = .empty := by
  intro zero negative o
  have hValue : o.valueAt? "top" 1 1 = some negative := by decide
  have hCascade := (cascade_lossless o 1).1 "top" 1 negative (by decide) hValue
  exact ⟨hValue, by decide, by decide, by decide, hCascade, by decide, by decide, by decide,
    by decide⟩

end Overrides

end PaneEngine.Style
