import PaneEngine.Proofs.Hook.Opening
import PaneEngine.Proofs.Text.Blank

/-!
# Directives as they are written

A directive is written as its name and, in parentheses, its sections with bars
between them, the items of a list with commas between them.  The separators and
the closing parenthesis end an item, and blanks at its ends are dropped, so
parameters can be written and read back if their items have none of these.
These are also the only parameters that are ever read.

Written behind other text, a directive is still the first one: the prefix would
have to open a directive with its own end and the name, but no name of a hook
ends in another.

## Main definitions

* `IsItem` — a text that can be read back;
* `WellFormed` — parameters that can be read back.

## Main results

* `paramsOf_sections` — well-formed parameters are read back;
* `wellFormed_paramsOf` — all parameters that are read are well formed;
* `quiet_of_not_hasOpening` — a name does not open earlier than it stands;
* `directive_roundTrip` — writing and reading are inverse to each other.
-/

namespace PaneEngine.Hook

/-! ## Splitting at a character -/

/-- A character that is neither the separator nor in a part is not in the whole. -/
theorem not_mem_intercalate {d c : Char} (hSep : c ≠ d) {parts : List (List Char)}
    (h : ∀ part ∈ parts, c ∉ part) : c ∉ [d].intercalate parts := by
  induction parts with
  | nil => exact List.not_mem_nil
  | cons part parts ih =>
      obtain ⟨hPart, hParts⟩ := List.forall_mem_cons.1 h
      cases parts with
      | nil => simpa using hPart
      | cons next parts =>
          rw [List.intercalate_cons_cons, List.mem_append, List.mem_append, List.mem_singleton]
          rintro ((hHere | hSame) | hLater)
          · exact hPart hHere
          · exact hSep hSame
          · exact ih hParts hLater

/-- A text without a separator, or a first part without one and the rest behind it. -/
theorem split_induction {d : Char} {motive : List Char → Prop}
    (whole : ∀ cs, d ∉ cs → motive cs)
    (split : ∀ first rest, d ∉ first → motive rest → motive (first ++ d :: rest))
    (cs : List Char) : motive cs := by
  induction hLength : cs.length using Nat.strongRecOn generalizing cs with
  | _ n ih =>
      by_cases hMem : d ∈ cs
      · obtain ⟨first, rest, rfl, hFirst⟩ := List.eq_append_cons_of_mem hMem
        rw [List.length_append, List.length_cons] at hLength
        exact split first rest hFirst (ih rest.length (by omega) rest rfl)
      · exact whole cs hMem

/-- The parts of a text are parts of it, and the character at which it is split is in none. -/
theorem mem_splitOn {d : Char} {cs part : List Char} (h : part ∈ cs.splitOn d) :
    d ∉ part ∧ ∀ c ∈ part, c ∈ cs := by
  induction cs using split_induction (d := d) with
  | whole cs hNone =>
      rw [List.splitOn_eq_singleton hNone, List.mem_singleton] at h
      rw [h]
      exact ⟨hNone, fun _ hc => hc⟩
  | split first rest hFirst ih =>
      rw [List.splitOn_append_cons_self_of_not_mem hFirst, List.mem_cons] at h
      rcases h with rfl | hLater
      · exact ⟨hFirst, fun c hc => List.mem_append_left _ hc⟩
      · obtain ⟨hPart, hWhole⟩ := ih hLater
        refine ⟨hPart, ?_⟩
        intro c hc
        exact List.mem_append_right first (List.mem_cons_of_mem d (hWhole c hc))

/-- A text has one part more than separators. -/
theorem length_splitOn (d : Char) (cs : List Char) :
    (cs.splitOn d).length = cs.count d + 1 := by
  induction cs using split_induction (d := d) with
  | whole cs hNone =>
      rw [List.splitOn_eq_singleton hNone, List.count_eq_zero.2 hNone]
      rfl
  | split first rest hFirst ih =>
      rw [List.splitOn_append_cons_self_of_not_mem hFirst, List.length_cons, ih,
        List.count_append, List.count_cons_self, List.count_eq_zero.2 hFirst]
      omega

/-! ## Well-formed parameters -/

/-- A text without blanks at its ends and without a character that ends an item. -/
structure IsItem (s : String) : Prop where
  trimmed : Text.IsTrimmed s.toList
  no_bar : '|' ∉ s.toList
  no_comma : ',' ∉ s.toList
  no_closing : ')' ∉ s.toList

instance (s : String) : Decidable (IsItem s) :=
  decidable_of_iff
    (Text.IsTrimmed s.toList ∧ '|' ∉ s.toList ∧ ',' ∉ s.toList ∧ ')' ∉ s.toList)
    ⟨fun h => ⟨h.1, h.2.1, h.2.2.1, h.2.2.2⟩,
      fun h => ⟨h.trimmed, h.no_bar, h.no_comma, h.no_closing⟩⟩

/-- A scalar that is an item, or a list of at least two items. -/
def Param.IsWellFormed : Param → Prop
  | .scalar s => IsItem s
  | .list items => 2 ≤ items.length ∧ ∀ s ∈ items, IsItem s

instance : (p : Param) → Decidable p.IsWellFormed
  | .scalar s => inferInstanceAs (Decidable (IsItem s))
  | .list items => inferInstanceAs (Decidable (2 ≤ items.length ∧ ∀ s ∈ items, IsItem s))

/-- Parameters that can be read back: there is at least one, and each is well formed. -/
structure WellFormed (ps : List Param) : Prop where
  ne_nil : ps ≠ []
  params : ∀ p ∈ ps, p.IsWellFormed

instance (ps : List Param) : Decidable (WellFormed ps) :=
  decidable_of_iff (ps ≠ [] ∧ ∀ p ∈ ps, p.IsWellFormed)
    ⟨fun h => ⟨h.1, h.2⟩, fun h => ⟨h.ne_nil, h.params⟩⟩

namespace Param.IsWellFormed

variable {p : Param}

/-- Of the characters that end an item, only the comma is written. -/
theorem not_mem_chars (h : p.IsWellFormed) : '|' ∉ p.chars ∧ ')' ∉ p.chars := by
  cases p with
  | scalar s => exact ⟨h.no_bar, h.no_closing⟩
  | list items =>
      constructor
      · refine not_mem_intercalate (by decide) (List.forall_mem_map.2 ?_)
        intro s hs
        exact (h.2 s hs).no_bar
      · refine not_mem_intercalate (by decide) (List.forall_mem_map.2 ?_)
        intro s hs
        exact (h.2 s hs).no_closing

/-- A well-formed parameter is read back. -/
theorem param_chars (h : p.IsWellFormed) : param p.chars = p := by
  cases p with
  | scalar s =>
      have hComma : s.toList.contains ',' = false := by
        simpa using h.no_comma
      simp only [param, chars, Text.trimChars_of_isTrimmed h.trimmed, hComma, Bool.false_eq_true,
        if_false, String.ofList_toList]
  | list items =>
      obtain ⟨hLength, hItems⟩ := h
      have hTrimmed : Text.IsTrimmed ([','].intercalate (items.map String.toList)) := by
        refine Text.isTrimmed_intercalate (by decide) (List.forall_mem_map.2 ?_)
        intro s hs
        exact (hItems s hs).trimmed
      have hSplit : ([','].intercalate (items.map String.toList)).splitOn ',' =
          items.map String.toList := by
        refine List.splitOn_intercalate ',' (List.forall_mem_map.2 ?_) ?_
        · intro s hs
          exact (hItems s hs).no_comma
        · intro hNil
          rw [List.map_eq_nil_iff.1 hNil] at hLength
          simp at hLength
      -- Two items have a comma between them.
      have hComma : ([','].intercalate (items.map String.toList)).contains ',' = true := by
        have hCount := length_splitOn ',' ([','].intercalate (items.map String.toList))
        rw [hSplit, List.length_map] at hCount
        exact List.contains_iff_mem.2 (List.count_pos_iff.1 (by omega))
      have hRead : items.map (fun s => String.ofList (Text.trimChars s.toList)) = items := by
        refine (List.map_congr_left ?_).trans (List.map_id items)
        intro s hs
        rw [Text.trimChars_of_isTrimmed (hItems s hs).trimmed, String.ofList_toList]
        rfl
      simp only [param, chars, Text.trimChars_of_isTrimmed hTrimmed, hComma, if_true, hSplit,
        List.map_map, Function.comp_def, hRead]

end Param.IsWellFormed

namespace WellFormed

variable {ps : List Param}

/-- Well-formed parameters are read back. -/
theorem paramsOf_sections (h : WellFormed ps) :
    paramsOf (['|'].intercalate (ps.map Param.chars)) = ps := by
  have hSplit : (['|'].intercalate (ps.map Param.chars)).splitOn '|' = ps.map Param.chars := by
    refine List.splitOn_intercalate '|' (List.forall_mem_map.2 ?_) ?_
    · intro p hp
      exact (h.params p hp).not_mem_chars.1
    · intro hNil
      exact h.ne_nil (List.map_eq_nil_iff.1 hNil)
  rw [paramsOf, hSplit, List.map_map]
  refine (List.map_congr_left ?_).trans (List.map_id ps)
  intro p hp
  exact (h.params p hp).param_chars

theorem closing_not_mem (h : WellFormed ps) :
    ')' ∉ ['|'].intercalate (ps.map Param.chars) := by
  refine not_mem_intercalate (by decide) (List.forall_mem_map.2 ?_)
  intro p hp
  exact (h.params p hp).not_mem_chars.2

end WellFormed

/-! ## Parameters that are read -/

/-- A trimmed part of a text without bars and closing parentheses is an item if it has no comma. -/
theorem isItem_trimChars {raw : List Char} (hBar : '|' ∉ raw) (hClosing : ')' ∉ raw)
    (hComma : ',' ∉ Text.trimChars raw) : IsItem (String.ofList (Text.trimChars raw)) := by
  have hToList := String.toList_ofList (l := Text.trimChars raw)
  constructor
  · rw [hToList]
    exact Text.isTrimmed_trimChars raw
  · rw [hToList]
    exact fun hMem => hBar (Text.mem_of_mem_trimChars hMem)
  · rw [hToList]
    exact hComma
  · rw [hToList]
    exact fun hMem => hClosing (Text.mem_of_mem_trimChars hMem)

theorem isWellFormed_param {raw : List Char} (hBar : '|' ∉ raw) (hClosing : ')' ∉ raw) :
    (param raw).IsWellFormed := by
  unfold param
  simp only
  split
  case isTrue hComma =>
      constructor
      · have hCount := List.count_pos_iff.2 (List.contains_iff_mem.1 hComma)
        rw [List.length_map, length_splitOn]
        omega
      · intro s hs
        obtain ⟨part, hPart, rfl⟩ := List.mem_map.1 hs
        obtain ⟨hNone, hWhole⟩ := mem_splitOn hPart
        have hRaw : ∀ c ∈ part, c ∈ raw := fun c hc => Text.mem_of_mem_trimChars (hWhole c hc)
        exact isItem_trimChars (fun hMem => hBar (hRaw _ hMem)) (fun hMem => hClosing (hRaw _ hMem))
          fun hMem => hNone (Text.mem_of_mem_trimChars hMem)
  case isFalse hComma =>
      exact isItem_trimChars hBar hClosing fun hMem => hComma (List.contains_iff_mem.2 hMem)

/-- All parameters that are read are well formed. -/
theorem wellFormed_paramsOf {inner : List Char} (h : ')' ∉ inner) :
    WellFormed (paramsOf inner) where
  ne_nil := by
    intro hNil
    exact List.splitOn_ne_nil '|' inner (List.map_eq_nil_iff.1 hNil)
  params := by
    intro p hp
    obtain ⟨raw, hRaw, rfl⟩ := List.mem_map.1 hp
    obtain ⟨hBar, hWhole⟩ := mem_splitOn hRaw
    exact isWellFormed_param hBar fun hMem => h (hWhole _ hMem)

/-- There is one parameter more than bars. -/
theorem length_paramsOf (inner : List Char) :
    (paramsOf inner).length = inner.count '|' + 1 := by
  rw [paramsOf, List.length_map, length_splitOn]

/-! ## A directive behind other text -/

/-- A directive that opens in a prefix opens in the prefix alone: a name does not end in another
name, so the prefix cannot open one with the name that stands behind it. -/
theorem quiet_of_not_hasOpening {before : List Char} (h : ¬ HasOpening before) (n : Name)
    (after : List Char) : Quiet before (opened n after) := by
  intro first m after' hSplit
  by_contra hShort
  have hPrefix : first <+: before := by
    have hBefore : before <+: first ++ opened m after' := ⟨opened n after, hSplit⟩
    exact List.prefix_of_prefix_length_le (List.prefix_append first _) hBefore (by omega)
  obtain ⟨gap, rfl⟩ := hPrefix
  rw [List.append_assoc] at hSplit
  have hOpened : gap ++ opened n after = opened m after' := List.append_cancel_left hSplit
  by_cases hParen : '(' ∈ gap
  · -- The parenthesis behind the earlier name stands in the prefix.
    obtain ⟨name, rest, rfl, hName⟩ := List.eq_append_cons_of_mem hParen
    have hTake := congrArg (List.takeWhile (· ≠ '(')) hOpened
    rw [List.append_assoc, List.cons_append, takeWhile_ne hName, opened,
      takeWhile_ne m.opening_not_mem] at hTake
    exact h ⟨first, m, rest, by rw [hTake]; rfl⟩
  · -- The earlier name ends in the one that is written.
    have hNone : '(' ∉ gap ++ n.text.toList := by
      rw [List.mem_append, not_or]
      exact ⟨hParen, n.opening_not_mem⟩
    have hTake := congrArg (List.takeWhile (· ≠ '(')) hOpened
    rw [opened, ← List.append_assoc, takeWhile_ne hNone, opened,
      takeWhile_ne m.opening_not_mem] at hTake
    have hSame : n = m := Name.eq_of_suffix ⟨gap, hTake⟩
    rw [hSame, List.append_left_eq_self] at hTake
    rw [hTake, List.append_nil] at hShort
    omega

theorem chars_eq_opened (h : Hook) (after : List Char) :
    h.chars ++ after =
      opened h.name (['|'].intercalate (h.params.map Param.chars) ++ ')' :: after) := by
  simp [chars, opened]

/-- A directive that a text holds is read back if nothing opens before it. -/
theorem scan_chars {h : Hook} (hWell : WellFormed h.params) {before : List Char}
    (hBefore : ¬ HasOpening before) (after : List Char) :
    scan (before ++ h.chars ++ after) = .ok (some h) := by
  rw [List.append_assoc, chars_eq_opened, scan_skip (quiet_of_not_hasOpening hBefore _ _),
    scan_opened, answer_closed _ hWell.closing_not_mem, hWell.paramsOf_sections]

/-- Where a directive that is found comes from. -/
theorem exists_of_scan_eq {cs : List Char} {h : Hook} (hScan : scan cs = .ok (some h)) :
    ∃ before inner after, cs = before ++ opened h.name (inner ++ ')' :: after) ∧
      Quiet before (opened h.name (inner ++ ')' :: after)) ∧ ')' ∉ inner ∧
      h.params = paramsOf inner := by
  have hOpening : HasOpening cs := by
    by_contra hNone
    rw [scan_eq_none_iff.2 hNone] at hScan
    cases hScan
  obtain ⟨before, n, behind, rfl, hQuiet⟩ := exists_first hOpening
  rw [scan_skip hQuiet, scan_opened] at hScan
  by_cases hClosed : ')' ∈ behind
  · obtain ⟨inner, after, rfl, hInner⟩ := List.eq_append_cons_of_mem hClosed
    rw [answer_closed n hInner] at hScan
    cases hScan
    exact ⟨before, inner, after, rfl, hQuiet, hInner, rfl⟩
  · rw [answer_unclosed n hClosed] at hScan
    cases hScan

/-- **Writing and reading directives are inverse to each other.**  A directive with well-formed
parameters, written behind any text in which none opens and before any other, is read back.  And
all parameters that are read are well formed, one more than there are bars between the
parentheses, and are read back when the directive is written. -/
theorem directive_roundTrip :
    (∀ (h : Hook) (before after : List Char), WellFormed h.params → ¬ HasOpening before →
      scan (before ++ h.chars ++ after) = .ok (some h)) ∧
    ∀ (cs : List Char) (h : Hook), scan cs = .ok (some h) →
      WellFormed h.params ∧ scan h.chars = .ok (some h) ∧
        ∃ before inner after, cs = before ++ opened h.name (inner ++ ')' :: after) ∧
          Quiet before (opened h.name (inner ++ ')' :: after)) ∧ ')' ∉ inner ∧
          h.params.length = inner.count '|' + 1 := by
  constructor
  · intro h before after hWell hBefore
    exact scan_chars hWell hBefore after
  · intro cs h hScan
    obtain ⟨before, inner, after, hSplit, hQuiet, hInner, hParams⟩ := exists_of_scan_eq hScan
    have hWell : WellFormed h.params := hParams ▸ wellFormed_paramsOf hInner
    have hNothing : ¬ HasOpening [] := by
      rintro ⟨first, n, rest, hNil⟩
      have hEmpty := (List.append_eq_nil_iff.1 hNil.symm).2
      exact opened_ne_nil n rest hEmpty
    have hAgain := scan_chars hWell hNothing []
    rw [List.nil_append, List.append_nil] at hAgain
    refine ⟨hWell, hAgain, before, inner, after, hSplit, hQuiet, hInner, ?_⟩
    rw [hParams, length_paramsOf]

/-- The text before the directive ends in the name of a hook, the list has an empty item, and the
last scalar is empty. -/
theorem directive_roundTrip_gluedName :
    let h : Hook := ⟨.identifyAs, [.scalar "PERSONA", .list ["dev", ""], .scalar ""]⟩
    WellFormed h.params ∧ ¬ HasOpening "toggle".toList ∧
      scan ("toggle".toList ++ h.chars ++ " (bunny(".toList) = .ok (some h) := by
  intro h
  have hWell : WellFormed h.params := by decide
  have hBefore : ¬ HasOpening "toggle".toList := scan_eq_none_iff.1 rfl
  exact ⟨hWell, hBefore, directive_roundTrip.1 h _ _ hWell hBefore⟩

end PaneEngine.Hook
