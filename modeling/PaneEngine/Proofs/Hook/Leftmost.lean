import PaneEngine.Proofs.Hook.Opening

/-!
# The leftmost directive

A scan answers at the first place of a text where a directive opens: with the
directive if a closing parenthesis stands behind it, with an error otherwise.
The error hides nothing, since what would close a later directive would close
the first one too.

A text in memory is a sequence of bytes, and a scan cuts it by byte offsets.  A
cut inside a character fails.  That this never happens is said of a scan that
keeps count of bytes and makes every cut it needs.

## Main definitions

* `cutFrom?`, `cutTo?` — the parts of a text at a byte offset;
* `scanBytes?` — the scan by byte offsets, with the names in any order.

## Main results

* `scanBytes?_eq_scan` — no cut fails, and the order of the names does not matter;
* `scan_leftmost` — what a scan answers.
-/

namespace PaneEngine.Hook

/-! ## Cuts -/

/-- The text from a byte offset on, if a character begins or the text ends there. -/
def cutFrom? (text : String) (offset : Nat) : Option String :=
  if h : (String.Pos.Raw.mk offset).IsValid text then
    some (text.sliceFrom (text.pos ⟨offset⟩ h)).copy
  else none

/-- The text up to a byte offset, if a character begins or the text ends there. -/
def cutTo? (text : String) (offset : Nat) : Option String :=
  if h : (String.Pos.Raw.mk offset).IsValid text then
    some (text.sliceTo (text.pos ⟨offset⟩ h)).copy
  else none

theorem isValid_append (first second : String) :
    (String.Pos.Raw.mk first.utf8ByteSize).IsValid (first ++ second) :=
  String.Pos.Raw.isValid_iff_exists_append.2 ⟨first, second, rfl, rfl⟩

theorem splits_append (first second : String) :
    ((first ++ second).pos ⟨first.utf8ByteSize⟩ (isValid_append first second)).Splits
      first second where
  eq_append := rfl
  offset_eq_rawEndPos := rfl

theorem cutFrom?_append (first second : String) :
    cutFrom? (first ++ second) first.utf8ByteSize = some second := by
  have hSplits := (splits_append first second).eq_right (String.Pos.splits _)
  rw [cutFrom?, dif_pos (isValid_append first second), ← hSplits]

theorem cutTo?_append (first second : String) :
    cutTo? (first ++ second) first.utf8ByteSize = some first := by
  have hSplits := (splits_append first second).eq_left (String.Pos.splits _)
  rw [cutTo?, dif_pos (isValid_append first second), ← hSplits]

/-! ## Scanning by byte offsets -/

/-- The byte offset of the first closing parenthesis. -/
def closingOffset? (text : String) : Option Nat :=
  if ')' ∈ text.toList then
    some (String.ofList (text.toList.takeWhile (· ≠ ')'))).utf8ByteSize
  else none

/-- Scans a text from a byte offset on, where the given characters stand.  Names are tried in the
order of `names`; nothing is answered if a cut fails. -/
def scanBytes? (names : List Name) (text : String) (offset : Nat) :
    List Char → Option (Except Unterminated (Option Hook))
  | [] => some (.ok none)
  | c :: later =>
    if c.isLower then
      (cutFrom? text offset).bind fun rest =>
        match names.find? fun n => (n.text.toList ++ ['(']).isPrefixOf rest.toList with
        | none => scanBytes? names text (offset + c.utf8Size) later
        | some n =>
          let start := offset + n.text.utf8ByteSize + 1
          (cutFrom? text start).bind fun after =>
            match closingOffset? after with
            | none => some (.error ⟨n⟩)
            | some length =>
              ((cutTo? text (start + length)).bind (cutFrom? · start)).map fun inner =>
                .ok (some ⟨n, paramsOf inner.toList⟩)
    else scanBytes? names text (offset + c.utf8Size) later

/-- In whatever order the names are tried, the one that opens is found. -/
theorem find?_names {names : List Name} (hNames : names.Perm Name.all) (cs : List Char) :
    (names.find? fun n => (n.text.toList ++ ['(']).isPrefixOf cs) =
      (opening? cs).map (·.1) := by
  cases hRead : opening? cs with
  | none =>
      refine List.find?_eq_none.2 ?_
      intro n _ hHere
      obtain ⟨after, hOpened⟩ := isPrefixOf_iff.1 hHere
      exact opening?_eq_none_iff.1 hRead n after hOpened
  | some e =>
      obtain ⟨n, after⟩ := e
      have hOpened := opening?_eq_some_iff.1 hRead
      cases hFind : names.find? fun n => (n.text.toList ++ ['(']).isPrefixOf cs with
      | none =>
          have hMem : n ∈ names := hNames.mem_iff.2 n.mem_all
          exact absurd (isPrefixOf_iff.2 ⟨after, hOpened⟩) (List.find?_eq_none.1 hFind n hMem)
      | some m =>
          have hHere := List.find?_some hFind
          obtain ⟨after', hOpened'⟩ := isPrefixOf_iff.1 hHere
          have hName := (opened_inj (hOpened'.symm.trans hOpened)).1
          rw [hName]
          rfl

/-- Behind an opening, the cut at the parenthesis leaves what stands behind it, and the cut at the
first closing parenthesis the text in between. -/
theorem cuts_opened (before : String) (n : Name) (after : List Char) :
    let text := before ++ String.ofList (opened n after)
    let start := before.utf8ByteSize + n.text.utf8ByteSize + 1
    cutFrom? text start = some (String.ofList after) ∧
      ∀ inner behind, after = inner ++ behind →
        (cutTo? text (start + (String.ofList inner).utf8ByteSize)).bind (cutFrom? · start) =
          some (String.ofList inner) := by
  intro text start
  let opening : String := before ++ (n.text ++ String.singleton '(')
  have hStart : opening.utf8ByteSize = start := by
    simp only [opening, start, String.utf8ByteSize_append, String.utf8ByteSize_singleton]
    have hSize : Char.utf8Size '(' = 1 := by decide
    omega
  have hText : ∀ first second, after = first ++ second →
      text = (opening ++ String.ofList first) ++ String.ofList second := by
    intro first second hSplit
    refine String.toList_injective ?_
    simp [text, opening, opened, hSplit]
  constructor
  · have hCut := cutFrom?_append (opening ++ String.ofList []) (String.ofList after)
    rw [← hText [] after rfl] at hCut
    simpa [hStart] using hCut
  · intro inner behind hSplit
    have hTo := cutTo?_append (opening ++ String.ofList inner) (String.ofList behind)
    rw [← hText inner behind hSplit, String.utf8ByteSize_append, hStart] at hTo
    rw [hTo, Option.bind_some, ← hStart]
    exact cutFrom?_append opening (String.ofList inner)

/-- **No cut fails, and the order of the names does not matter.** -/
theorem scanBytes?_eq_scan {names : List Name} (hNames : names.Perm Name.all) (before : String)
    (cs : List Char) :
    scanBytes? names (before ++ String.ofList cs) before.utf8ByteSize cs = some (scan cs) := by
  induction cs generalizing before with
  | nil => rfl
  | cons c cs ih =>
      -- One character on, the offset has grown by the bytes of that character.
      have hNext : scanBytes? names (before ++ String.ofList (c :: cs))
          (before.utf8ByteSize + c.utf8Size) cs = some (scan cs) := by
        have hLater := ih (before ++ String.singleton c)
        have hText : before ++ String.singleton c ++ String.ofList cs =
            before ++ String.ofList (c :: cs) := by
          refine String.toList_injective ?_
          simp
        rw [hText, String.utf8ByteSize_append, String.utf8ByteSize_singleton] at hLater
        exact hLater
      cases hRead : opening? (c :: cs) with
      | none =>
          have hScan : scan (c :: cs) = scan cs := by rw [scan, hRead]
          rw [hScan, scanBytes?]
          by_cases hLower : c.isLower = true
          · rw [if_pos hLower, cutFrom?_append, Option.bind_some, String.toList_ofList,
              find?_names hNames, hRead]
            exact hNext
          · rw [if_neg hLower]
            exact hNext
      | some e =>
          obtain ⟨n, after⟩ := e
          have hOpened := opening?_eq_some_iff.1 hRead
          obtain ⟨hFrom, hInner⟩ := cuts_opened before n after
          rw [scanBytes?, if_pos (isLower_of_opened hOpened), cutFrom?_append, Option.bind_some,
            String.toList_ofList, find?_names hNames, hRead, hOpened, scan_opened, answer]
          simp only [Option.map_some, hFrom, Option.bind_some, closingOffset?,
            String.toList_ofList]
          by_cases hClosed : ')' ∈ after
          · have hCut := hInner (after.takeWhile (· ≠ ')')) (after.dropWhile (· ≠ ')'))
              List.takeWhile_append_dropWhile.symm
            simp only [if_pos hClosed, hCut, Option.map_some, String.toList_ofList]
          · simp only [if_neg hClosed]

/-! ## What a scan answers -/

/-- What closes a later directive closes the first one too. -/
theorem closed_of_later {before before' after after' : List Char} {n n' : Name}
    (h : before ++ opened n after = before' ++ opened n' after')
    (hLater : before.length ≤ before'.length) (hClosed : ')' ∈ after') : ')' ∈ after := by
  have hLength := congrArg List.length h
  rw [List.length_append, List.length_append] at hLength
  have hSuffix : opened n' after' <:+ opened n after := by
    refine List.suffix_of_suffix_length_le (List.suffix_append before' _) ?_ (by omega)
    rw [← h]
    exact List.suffix_append before _
  exact closing_mem_opened.1 (hSuffix.mem (closing_mem_opened.2 hClosed))

/-- A directive is found exactly where some name opens and a closing parenthesis stands behind. -/
theorem isSome_find?_iff (text : String) :
    (find? text).isSome ↔ ∃ before n inner behind,
      text.toList = before ++ opened n (inner ++ ')' :: behind) := by
  constructor
  · intro hFound
    by_cases hOpening : HasOpening text.toList
    · obtain ⟨before, n, after, hSplit, hQuiet⟩ := exists_first hOpening
      by_cases hClosed : ')' ∈ after
      · obtain ⟨inner, behind, rfl⟩ := List.append_of_mem hClosed
        exact ⟨before, n, inner, behind, hSplit⟩
      · rw [find?, hSplit, scan_skip hQuiet, scan_opened, answer_unclosed n hClosed] at hFound
        cases hFound
    · rw [find?, scan_eq_none_iff.2 hOpening] at hFound
      cases hFound
  · rintro ⟨before', n', inner, behind, hSplit'⟩
    obtain ⟨before, n, after, hSplit, hQuiet⟩ := exists_first ⟨before', n', _, hSplit'⟩
    have hClosed : ')' ∈ after := by
      have hSame := hSplit.symm.trans hSplit'
      exact closed_of_later hSame (hQuiet before' n' _ hSame)
        (List.mem_append_right inner List.mem_cons_self)
    rw [find?, hSplit, scan_skip hQuiet, scan_opened, answer, if_pos hClosed]
    rfl

/-- **A scan finds the leftmost directive.**  It finds nothing exactly if no directive opens in the
text.  Otherwise there is a first place where one opens, only one name opens there, and the scan
answers with the error for that name if no closing parenthesis stands behind it, and with that
name and the parameters up to the first closing parenthesis if one does.  So a directive is found,
errors counting as nothing, exactly if some opening has a closing parenthesis behind it.  In
whatever order the names are tried, no cut of the text fails and the answer is the same. -/
theorem scan_leftmost (text : String) :
    let cs := text.toList
    (scan cs = .ok none ↔ ¬ HasOpening cs) ∧
      (HasOpening cs → ∃ before n after, cs = before ++ opened n after ∧
        (∀ before' n' after', cs = before' ++ opened n' after' →
          before.length ≤ before'.length) ∧
        (∀ n' after', cs = before ++ opened n' after' → n' = n) ∧
        (')' ∉ after → scan cs = .error ⟨n⟩) ∧
        ∀ inner behind, after = inner ++ ')' :: behind → ')' ∉ inner →
          scan cs = .ok (some ⟨n, paramsOf inner⟩)) ∧
      ((find? text).isSome ↔ ∃ before n inner behind,
        cs = before ++ opened n (inner ++ ')' :: behind)) ∧
      ∀ names : List Name, names.Perm Name.all →
        scanBytes? names text 0 cs = some (scan cs) := by
  intro cs
  refine ⟨scan_eq_none_iff, ?_, isSome_find?_iff text, ?_⟩
  · intro hOpening
    obtain ⟨before, n, after, hSplit, hQuiet⟩ := exists_first hOpening
    have hScan : scan cs = answer n after := by
      rw [hSplit, scan_skip hQuiet, scan_opened]
    refine ⟨before, n, after, hSplit, ?_, ?_, ?_, ?_⟩
    · intro before' n' after' hSplit'
      exact hQuiet before' n' after' (hSplit.symm.trans hSplit')
    · intro n' after' hSplit'
      exact (opened_inj (List.append_cancel_left (hSplit'.symm.trans hSplit))).1
    · intro hUnclosed
      rw [hScan, answer_unclosed n hUnclosed]
    · intro inner behind hAfter hInner
      rw [hScan, hAfter, answer_closed n hInner]
  · intro names hNames
    have hScan := scanBytes?_eq_scan hNames "" cs
    rw [String.empty_append, String.ofList_toList] at hScan
    exact hScan

/-- A character of two bytes, a name that begins with another, and a directive behind it that is
never closed. -/
def misleadingText : String := "é bunnyContext(vid|a,b) (toggle("

/-- The names in the opposite order make no difference. -/
theorem scan_leftmost_misleadingText :
    (find? misleadingText).isSome ∧ Name.all.reverse.Perm Name.all ∧
      scanBytes? Name.all.reverse misleadingText 0 misleadingText.toList =
        some (.ok (some ⟨.bunnyContext, [.scalar "vid", .list ["a", "b"]]⟩)) := by
  have hNames : Name.all.reverse.Perm Name.all := List.reverse_perm Name.all
  have hScan : scan misleadingText.toList =
      .ok (some ⟨.bunnyContext, [.scalar "vid", .list ["a", "b"]]⟩) := rfl
  obtain ⟨_, _, hFound, hBytes⟩ := scan_leftmost misleadingText
  refine ⟨hFound.2 ⟨"é ".toList, .bunnyContext, "vid|a,b".toList, " (toggle(".toList, rfl⟩,
    hNames, ?_⟩
  rw [hBytes _ hNames, hScan]

end PaneEngine.Hook
