import PaneEngine.Proofs.Hook.Printing
import PaneEngine.Proofs.Pane.Parenthood

/-!
# Directives in cleaned texts

The copy of a text node is cleaned of runs of blanks, its hook is read from the
text as it stands.  Both tell of the same directive: cleaning a text and
scanning it is scanning the text and cleaning the parameters.

Cleaning commutes with each step of a scan, because the characters that a scan
looks for are no blanks: it leaves openings where they are, keeps every
separator and the closing parenthesis, and what it does to one part does not
depend on the parts before.

## Main definitions

* `Param.map` — a parameter with its texts changed;
* `cleaned` — a directive with its texts cleaned.

## Main results

* `splitOn_collapseChars` — a text is cleaned part by part;
* `param_collapseChars`, `answer_collapseChars`, `scan_collapseChars` — reading a section,
  answering at an opening and scanning commute with cleaning;
* `cleaning_commutes` — the copy of a text node holds the directive that the node carries.
-/

namespace PaneEngine.Hook

open Text (isBlank collapseChars)

/-- A parameter with its texts changed. -/
def Param.map (f : String → String) : Param → Param
  | .scalar s => .scalar (f s)
  | .list items => .list (items.map f)

/-- A directive with its texts cleaned. -/
def cleaned (h : Hook) : Hook := { h with params := h.params.map (Param.map Text.collapse) }

theorem collapse_ofList (cs : List Char) :
    Text.collapse (String.ofList cs) = String.ofList (collapseChars false cs) := by
  rw [Text.collapse, String.toList_ofList]

/-! ## Parameters -/

/-- A text is cleaned part by part. -/
theorem splitOn_collapseChars {d : Char} (hd : isBlank d = false) (cs : List Char) :
    (collapseChars false cs).splitOn d = (cs.splitOn d).map (collapseChars false) := by
  induction cs using split_induction (d := d) with
  | whole cs hNone =>
      rw [List.splitOn_eq_singleton hNone,
        List.splitOn_eq_singleton (Text.not_mem_collapseChars hd hNone)]
      rfl
  | split first rest hFirst ih =>
      rw [Text.collapseChars_append_cons hd,
        List.splitOn_append_cons_self_of_not_mem (Text.not_mem_collapseChars hd hFirst),
        List.splitOn_append_cons_self_of_not_mem hFirst, ih, List.map_cons]

/-- A section is cleaned item by item. -/
theorem param_collapseChars (raw : List Char) :
    param (collapseChars false raw) = (param raw).map Text.collapse := by
  have hComma : isBlank ',' = false := by decide
  have hSame : (collapseChars false (Text.trimChars raw)).contains ',' =
      (Text.trimChars raw).contains ',' := by
    rw [Bool.eq_iff_iff, List.contains_iff_mem, List.contains_iff_mem,
      Text.mem_collapseChars hComma]
  simp only [param, Text.trimChars_collapseChars, hSame]
  split
  · rw [splitOn_collapseChars hComma, Param.map, List.map_map, List.map_map]
    refine congrArg Param.list (List.map_congr_left ?_)
    intro item _
    rw [Function.comp_apply, Function.comp_apply, Text.trimChars_collapseChars, collapse_ofList]
  · rw [Param.map, collapse_ofList]

theorem paramsOf_collapseChars (inner : List Char) :
    paramsOf (collapseChars false inner) = (paramsOf inner).map (Param.map Text.collapse) := by
  rw [paramsOf, splitOn_collapseChars (by decide), paramsOf, List.map_map, List.map_map]
  refine List.map_congr_left ?_
  intro raw _
  exact param_collapseChars raw

/-! ## Openings -/

namespace Name

theorem any_isBlank (n : Name) : (n.text.toList ++ ['(']).any isBlank = false := by
  cases n <;> decide

theorem isBlank_eq_false_of_mem (n : Name) : ∀ c ∈ n.text.toList ++ ['('], isBlank c = false := by
  simpa only [Bool.not_eq_true] using List.any_eq_false.1 n.any_isBlank

end Name

theorem opened_collapseChars (n : Name) (after : List Char) :
    collapseChars false (opened n after) = opened n (collapseChars false after) := by
  rw [opened_eq_append, Text.collapseChars_append_of_solid n.isBlank_eq_false_of_mem,
    ← opened_eq_append]

/-- The same directives open at the start of a text and of the cleaned text. -/
theorem opening?_collapseChars (cs : List Char) :
    opening? (collapseChars false cs) =
      (opening? cs).map fun e => (e.1, collapseChars false e.2) := by
  cases hRead : opening? cs with
  | some e =>
      obtain ⟨n, after⟩ := e
      rw [opening?_eq_some_iff.1 hRead, opened_collapseChars]
      exact opening?_eq_some_iff.2 rfl
  | none =>
      refine opening?_eq_none_iff.2 ?_
      intro n after hOpened
      rw [opened_eq_append] at hOpened
      obtain ⟨after', hSplit, _⟩ :=
        Text.exists_of_collapseChars_eq n.isBlank_eq_false_of_mem hOpened
      exact opening?_eq_none_iff.1 hRead n after' (hSplit.trans (opened_eq_append n after').symm)

/-- Nothing opens with a blank. -/
theorem scan_blank {c : Char} (h : isBlank c = true) (cs : List Char) :
    scan (c :: cs) = scan cs := by
  have hNone : opening? (c :: cs) = none := by
    refine opening?_eq_none_iff.2 ?_
    intro n after hOpened
    have hHead : c ∈ n.text.toList ++ ['('] := by
      rw [opened_eq_append] at hOpened
      cases hStart : n.text.toList ++ ['('] with
      | nil => simp at hStart
      | cons d rest =>
          rw [hStart] at hOpened
          rw [(List.cons.inj hOpened).1]
          exact List.mem_cons_self
    rw [n.isBlank_eq_false_of_mem c hHead] at h
    cases h
  rw [scan, hNone]

/-- The answer at an opening commutes with cleaning. -/
theorem answer_collapseChars (n : Name) (after : List Char) :
    answer n (collapseChars false after) = (answer n after).map (Option.map cleaned) := by
  have hClosing : isBlank ')' = false := by decide
  by_cases hClosed : ')' ∈ after
  · obtain ⟨inner, behind, rfl, hInner⟩ := List.eq_append_cons_of_mem hClosed
    rw [Text.collapseChars_append_cons hClosing,
      answer_closed n (Text.not_mem_collapseChars hClosing hInner), answer_closed n hInner,
      paramsOf_collapseChars]
    rfl
  · rw [answer_unclosed n (Text.not_mem_collapseChars hClosing hClosed),
      answer_unclosed n hClosed]
    rfl

/-- **Scanning commutes with cleaning**, whatever stands before the text. -/
theorem scan_collapseChars (after : Bool) (cs : List Char) :
    scan (collapseChars after cs) = (scan cs).map (Option.map cleaned) := by
  induction cs generalizing after with
  | nil => rfl
  | cons c cs ih =>
      by_cases hc : isBlank c = true
      · -- At most a space is left of a blank, and nothing opens with either.
        rw [scan_blank hc, collapseChars, if_pos hc]
        split
        · exact ih true
        · rw [scan_blank (by decide)]
          exact ih true
      · have hStart : collapseChars after (c :: cs) = collapseChars false (c :: cs) := by
          rw [collapseChars, if_neg hc, collapseChars, if_neg hc]
        have hRead := opening?_collapseChars (c :: cs)
        rw [hStart]
        cases hOpening : opening? (c :: cs) with
        | none =>
            rw [hOpening, Option.map_none, collapseChars, if_neg hc] at hRead
            rw [collapseChars, if_neg hc, scan, hRead, scan, hOpening]
            exact ih false
        | some e =>
            obtain ⟨n, behind⟩ := e
            have hOpened := opening?_eq_some_iff.1 hOpening
            rw [hOpened, opened_collapseChars, scan_opened, scan_opened, answer_collapseChars]

/-! ## Text nodes -/

theorem find?_collapse (text : String) :
    find? (Text.collapse text) = (find? text).map cleaned := by
  rw [find?, find?, Text.collapse, String.toList_ofList, scan_collapseChars]
  cases scan text.toList <;> rfl

/-- **Cleaning commutes with reading directives.**  The scan of a cleaned text finds nothing, fails
with the same error or finds the directive with its texts cleaned, exactly as the scan of the text
does.  So for every text in a tree, the directive in the copy of its compiled node has the
parameters that the node carries, cleaned. -/
theorem cleaning_commutes :
    (∀ text : String, scan (Text.collapse text).toList =
      (scan text.toList).map (Option.map cleaned)) ∧
    ∀ (s : Pane.Settings) (ids : Nat → String) (t : Tree) (i : Nat) (n : Pane.Node)
      (value : String), (Pane.compile s ids t).nodes[i]? = some n →
      (Pane.outline t).listing[i]? = some (i, .text value) →
      n.copy = some (Text.collapse value) ∧
        (n.copy.bind find?).map Hook.params =
          n.hookParams.map fun params => params.map (Param.map Text.collapse) := by
  constructor
  · intro text
    rw [Text.collapse, String.toList_ofList]
    exact scan_collapseChars false text.toList
  · intro s ids t i n value hNode hText
    obtain ⟨k, style, hListing, _, hKept⟩ := Pane.listing_of_node hNode
    have hSame : k = .text value := by
      rw [hText] at hListing
      exact (congrArg Prod.snd (Option.some.inj hListing)).symm
    have hCopy : n.copy = some (Text.collapse value) := by
      rw [hKept, hSame]
      rfl
    have hParams : n.hookParams = (find? value).map Hook.params := by
      rw [hKept, hSame]
      rfl
    refine ⟨hCopy, ?_⟩
    rw [hCopy, Option.bind_some, find?_collapse, hParams, Option.map_map, Option.map_map]
    rfl

/-- Runs of blanks before the directive, inside a scalar and around the items of a list. -/
theorem cleaning_commutes_spacedHook :
    ∃ n, (Pane.compile Pane.plainSettings (Pane.sequentialIds "n")
        (.text "see \t belief( a  b |c,\n\n d)")).nodes[0]? = some n ∧
      n.copy = some "see belief( a b |c, d)" ∧
      (n.copy.bind find?).map Hook.params = some [.scalar "a b", .list ["c", "d"]] := by
  obtain ⟨hCopy, hParams⟩ := cleaning_commutes.2 Pane.plainSettings (Pane.sequentialIds "n")
    (.text "see \t belief( a  b |c,\n\n d)") 0 _ "see \t belief( a  b |c,\n\n d)" rfl rfl
  exact ⟨_, rfl, hCopy, hParams⟩

end PaneEngine.Hook
