import PaneEngine.Config.Reference
import PaneEngine.Proofs.Results

/-!
# What a text refers to

The cut of a text into pieces is fixed by what stands in it: where a reference
starts that starts the next piece, and only where none starts a character stands
for itself.  `Cuts` says this without saying how references are found, and it
leaves exactly one cut, the one that is computed.  What comes in the place of a
piece is settled by that piece alone, so a value is never read again, whatever it
looks like.

## Main definitions

* `IsName`, `Cuts` — the names of variables and the cut of a text;
* `Missing`, `Refers`, `Served` — variables without a value and the references of a text;
* `Expands` — a text and what its references make of it;
* `Lacks` — the first reference of a text that has no value.

## Main results

* `cuts_iff` — the computed pieces are the cut of the text;
* `expand_eq_ok_iff`, `expand_eq_error_iff`, `expand_succeeds_iff` — what replacing the references
  of a text answers, and when it succeeds.
-/

namespace PaneEngine.Config

/-! ## Names -/

/-- A character that can start a name. -/
def NameStart (c : Char) : Prop := 'A' ≤ c ∧ c ≤ 'Z' ∨ c = '_'

/-- The name of a variable: capital letters, underscores and digits, no digit in front. -/
def IsName : List Char → Prop
  | [] => False
  | c :: cs => NameStart c ∧ ∀ d ∈ cs, NameStart d ∨ '0' ≤ d ∧ d ≤ '9'

theorem isUpper_iff (c : Char) : c.isUpper = true ↔ 'A' ≤ c ∧ c ≤ 'Z' := decide_eq_true_iff

theorem isNameStart_iff (c : Char) : isNameStart c = true ↔ NameStart c := by
  rw [isNameStart, NameStart, Bool.or_eq_true, isUpper_iff, decide_eq_true_iff]

theorem isNameChar_iff (c : Char) : isNameChar c = true ↔ NameStart c ∨ '0' ≤ c ∧ c ≤ '9' := by
  simp [isNameChar, isNameStart_iff, Char.isDigit, Char.le_def]

theorem isName_cons_iff {c : Char} {cs : List Char} :
    IsName (c :: cs) ↔ isNameStart c = true ∧ ∀ d ∈ cs, isNameChar d = true := by
  simp only [IsName, isNameStart_iff, isNameChar_iff]

/-- The bracket behind a name is not a character of it, so the name is found whole. -/
theorem bracedName?_eq_some_iff {cs name after : List Char} :
    bracedName? cs = some (name, after) ↔ IsName name ∧ cs = Piece.braced name ++ after := by
  constructor
  · intro h
    unfold bracedName? at h
    split at h
    · next c rest =>
      split at h
      · next hStart =>
        split at h
        · next after' hAfter =>
          cases h
          refine ⟨isName_cons_iff.2 ⟨hStart, List.all_eq_true.1 List.all_takeWhile⟩, ?_⟩
          have hRest : rest = rest.takeWhile isNameChar ++ '\x7d' :: after := by
            rw [← hAfter, List.takeWhile_append_dropWhile]
          simp only [Piece.braced, List.cons_append, List.append_assoc, List.nil_append, ← hRest]
        · cases h
      · cases h
    · cases h
  · rintro ⟨hName, rfl⟩
    cases name with
    | nil => exact absurd hName id
    | cons c rest =>
        obtain ⟨hStart, hRest⟩ := isName_cons_iff.1 hName
        have hDrop : (rest ++ '\x7d' :: after).dropWhile isNameChar = '\x7d' :: after := by
          rw [List.dropWhile_append_of_pos hRest]
          rfl
        have hTake : (rest ++ '\x7d' :: after).takeWhile isNameChar = rest := by
          rw [List.takeWhile_append_of_pos hRest]
          exact List.append_nil rest
        simp only [Piece.braced, List.cons_append, List.append_assoc, List.nil_append,
          bracedName?, if_pos hStart, hDrop, hTake]

theorem reference?_eq_some_iff {cs after : List Char} {p : Piece} :
    reference? cs = some (p, after) ↔
      ∃ escaped name, p = .reference escaped name ∧ IsName name ∧ cs = p.chars ++ after := by
  constructor
  · intro h
    unfold reference? at h
    split at h
    · next rest =>
      obtain ⟨⟨name, after'⟩, hName, hPair⟩ := Option.map_eq_some_iff.1 h
      cases hPair
      obtain ⟨hIsName, rfl⟩ := bracedName?_eq_some_iff.1 hName
      exact ⟨true, name, rfl, hIsName, rfl⟩
    · next rest _ =>
      obtain ⟨⟨name, after'⟩, hName, hPair⟩ := Option.map_eq_some_iff.1 h
      cases hPair
      obtain ⟨hIsName, rfl⟩ := bracedName?_eq_some_iff.1 hName
      exact ⟨false, name, rfl, hIsName, rfl⟩
    · cases h
  · rintro ⟨escaped, name, rfl, hName, rfl⟩
    have hFound : bracedName? (Piece.braced name ++ after) = some (name, after) :=
      bracedName?_eq_some_iff.2 ⟨hName, rfl⟩
    cases escaped with
    | true =>
        show (bracedName? (Piece.braced name ++ after)).map _ = _
        rw [hFound]
        rfl
    | false =>
        show (bracedName? (Piece.braced name ++ after)).map _ = _
        rw [hFound]
        rfl

/-! ## The cut of a text -/

/-- The cut of a text into pieces: a reference wherever one starts, else a character. -/
inductive Cuts : List Char → List Piece → Prop
  | nil : Cuts [] []
  | reference {escaped : Bool} {name after : List Char} {ps : List Piece} :
      IsName name → Cuts after ps →
        Cuts ((Piece.reference escaped name).chars ++ after) (.reference escaped name :: ps)
  | char {c : Char} {after : List Char} {ps : List Piece} :
      (∀ escaped name rest, IsName name →
        c :: after ≠ (Piece.reference escaped name).chars ++ rest) → Cuts after ps →
        Cuts (c :: after) (.char c :: ps)

theorem reference?_eq_none_iff {cs : List Char} :
    reference? cs = none ↔
      ∀ escaped name rest, IsName name → cs ≠ (Piece.reference escaped name).chars ++ rest := by
  rw [Option.eq_none_iff_forall_ne_some]
  constructor
  · intro h escaped name rest hName hEq
    exact h _ (reference?_eq_some_iff.2 ⟨escaped, name, rfl, hName, hEq⟩)
  · rintro h ⟨p, after⟩ hSome
    obtain ⟨escaped, name, rfl, hName, hEq⟩ := reference?_eq_some_iff.1 hSome
    exact h escaped name after hName hEq

theorem pieces_of_some {cs after : List Char} {p : Piece} (h : reference? cs = some (p, after)) :
    pieces cs = p :: pieces after := by
  cases cs with
  | nil => cases h
  | cons c rest =>
      rw [pieces]
      split
      · next p' after' hSome =>
        rw [h] at hSome
        cases hSome
        rfl
      · next hNone =>
        rw [h] at hNone
        cases hNone

theorem pieces_of_none {c : Char} {rest : List Char} (h : reference? (c :: rest) = none) :
    pieces (c :: rest) = .char c :: pieces rest := by
  rw [pieces]
  split
  · next p after hSome =>
    rw [h] at hSome
    cases hSome
  · rfl

theorem cuts_pieces (cs : List Char) : Cuts cs (pieces cs) := by
  induction cs using pieces.induct with
  | case1 =>
      rw [pieces]
      exact .nil
  | case2 c rest p after hSome ih =>
      rw [pieces_of_some hSome]
      obtain ⟨escaped, name, rfl, hName, hEq⟩ := reference?_eq_some_iff.1 hSome
      rw [hEq]
      exact .reference hName ih
  | case3 c rest hNone ih =>
      rw [pieces_of_none hNone]
      exact .char (reference?_eq_none_iff.1 hNone) ih

/-- The computed pieces are the one cut of the text. -/
theorem cuts_iff {cs : List Char} {ps : List Piece} : Cuts cs ps ↔ pieces cs = ps := by
  constructor
  · intro h
    induction h with
    | nil => rw [pieces]
    | reference hName _ ih =>
        rw [pieces_of_some (reference?_eq_some_iff.2 ⟨_, _, rfl, hName, rfl⟩), ih]
    | char hNone _ ih => rw [pieces_of_none (reference?_eq_none_iff.2 hNone), ih]
  · rintro rfl
    exact cuts_pieces cs

/-- Of a run of dollar signs only the last two belong to a reference. -/
example : pieces "$$${A}${a}".toList =
    .char '$' :: .reference true ['A'] :: "${a}".toList.map .char := by
  decide +kernel

/-! ## Values -/

/-- A variable that is not set, or empty. -/
def Missing (env : Environment) (name : String) : Prop := env name = none ∨ env name = some ""

/-- A text refers to a variable if a piece of it is the reference, not escaped. -/
def Refers (s name : String) : Prop :=
  ∃ ps, Cuts s.toList ps ∧ Piece.reference false name.toList ∈ ps

/-- All variables that a text refers to have values. -/
def Served (env : Environment) (s : String) : Prop := ∀ name, Refers s name → ¬ Missing env name

/-- The first reference of a text to a variable without a value. -/
def Lacks (env : Environment) (s name : String) : Prop :=
  ∃ before after, Cuts s.toList (before ++ .reference false name.toList :: after) ∧
    Missing env name ∧
    ∀ name', Piece.reference false (String.toList name') ∈ before → ¬ Missing env name'

/-- What comes in the place of pieces: an escaped reference without its first dollar sign, the
value of a variable as it is. -/
inductive Replaces (env : Environment) : List Piece → List Char → Prop
  | nil : Replaces env [] []
  | char {c : Char} {ps : List Piece} {cs : List Char} :
      Replaces env ps cs → Replaces env (.char c :: ps) (c :: cs)
  | escaped {name : List Char} {ps : List Piece} {cs : List Char} :
      Replaces env ps cs →
        Replaces env (.reference true name :: ps) ((Piece.reference false name).chars ++ cs)
  | value {name value : String} {ps : List Piece} {cs : List Char} :
      env name = some value → value ≠ "" → Replaces env ps cs →
        Replaces env (.reference false name.toList :: ps) (value.toList ++ cs)

/-- A text and what its references make of it. -/
def Expands (env : Environment) (s t : String) : Prop :=
  ∃ ps, Cuts s.toList ps ∧ Replaces env ps t.toList

variable {env : Environment}

theorem value?_eq_some_iff {name v : String} :
    value? env name = some v ↔ env name = some v ∧ v ≠ "" := by
  simp [value?, Option.filter_eq_some_iff]

theorem value?_eq_none_iff {name : String} : value? env name = none ↔ Missing env name := by
  unfold value? Missing
  cases env name with
  | none => simp
  | some v => simp [Option.filter]

namespace Piece

theorem expand_eq_error_iff {p : Piece} {name : String} :
    p.expand env = .error name ↔ p = .reference false name.toList ∧ Missing env name := by
  rcases p with c | ⟨_ | _, name'⟩
  · exact ⟨fun h => (by cases h), fun h => (by cases h.1)⟩
  · rw [← value?_eq_none_iff]
    constructor
    · intro h
      cases hValue : value? env (String.ofList name') with
      | some v =>
          simp only [expand, hValue] at h
          cases h
      | none =>
          simp only [expand, hValue] at h
          cases h
          exact ⟨by rw [String.toList_ofList], hValue⟩
    · rintro ⟨hEq, hNone⟩
      cases hEq
      simp only [expand, String.ofList_toList, hNone]
  · exact ⟨fun h => (by cases h), fun h => (by cases h.1)⟩

theorem expand_succeeds_iff {p : Piece} :
    (∃ cs, p.expand env = .ok cs) ↔
      ∀ name : String, p = .reference false name.toList → ¬ Missing env name := by
  constructor
  · rintro ⟨cs, hOk⟩ name hEq hMissing
    rw [expand_eq_error_iff.2 ⟨hEq, hMissing⟩] at hOk
    cases hOk
  · intro h
    cases hResult : p.expand env with
    | ok cs => exact ⟨cs, rfl⟩
    | error name =>
        obtain ⟨hEq, hMissing⟩ := expand_eq_error_iff.1 hResult
        exact absurd hMissing (h name hEq)

end Piece

/-- What comes in the place of the first piece does not depend on the others. -/
theorem replaces_cons_iff {p : Piece} {ps : List Piece} {cs : List Char} :
    Replaces env (p :: ps) cs ↔
      ∃ part rest, p.expand env = .ok part ∧ Replaces env ps rest ∧ part ++ rest = cs := by
  constructor
  · intro h
    cases h with
    | char h => exact ⟨_, _, rfl, h, rfl⟩
    | escaped h => exact ⟨_, _, rfl, h, rfl⟩
    | value hValue hNonempty h =>
        refine ⟨_, _, ?_, h, rfl⟩
        simp only [Piece.expand, String.ofList_toList, value?_eq_some_iff.2 ⟨hValue, hNonempty⟩]
  · rintro ⟨part, rest, hPart, hRest, rfl⟩
    rcases p with c | ⟨_ | _, name⟩
    · cases hPart
      exact .char hRest
    · cases hValue : value? env (String.ofList name) with
      | some v =>
          simp only [Piece.expand, hValue] at hPart
          cases hPart
          obtain ⟨hSet, hNonempty⟩ := value?_eq_some_iff.1 hValue
          rw [← String.toList_ofList (l := name)]
          exact .value hSet hNonempty hRest
      | none =>
          simp only [Piece.expand, hValue] at hPart
          cases hPart
    · cases hPart
      exact .escaped hRest

theorem replaces_iff {ps : List Piece} {cs : List Char} :
    Replaces env ps cs ↔
      ∃ parts, ps.mapM (Piece.expand env) = .ok parts ∧ parts.flatten = cs := by
  induction ps generalizing cs with
  | nil =>
      constructor
      · intro h
        cases h
        exact ⟨[], rfl, rfl⟩
      · rintro ⟨parts, h, rfl⟩
        cases h
        exact .nil
  | cons p ps ih =>
      rw [replaces_cons_iff, List.mapM_cons]
      constructor
      · rintro ⟨part, rest, hPart, hRest, rfl⟩
        obtain ⟨parts, hParts, rfl⟩ := ih.1 hRest
        exact ⟨part :: parts,
          bind_eq_ok_iff.2 ⟨part, hPart, bind_eq_ok_iff.2 ⟨parts, hParts, rfl⟩⟩, rfl⟩
      · rintro ⟨all, h, rfl⟩
        obtain ⟨part, hPart, h⟩ := bind_eq_ok_iff.1 h
        obtain ⟨parts, hParts, h⟩ := bind_eq_ok_iff.1 h
        cases h
        exact ⟨part, parts.flatten, hPart, ih.2 ⟨parts, hParts, rfl⟩, rfl⟩

/-! ## Replacing the references of a text -/

theorem expand_eq_ok_iff {s t : String} : expand env s = .ok t ↔ Expands env s t := by
  have hCut : Expands env s t ↔ Replaces env (pieces s.toList) t.toList := by
    constructor
    · rintro ⟨ps, hCuts, h⟩
      rw [cuts_iff.1 hCuts]
      exact h
    · intro h
      exact ⟨_, cuts_pieces _, h⟩
  rw [hCut, replaces_iff, expand, map_eq_ok_iff]
  constructor
  · rintro ⟨parts, hParts, rfl⟩
    exact ⟨parts, hParts, String.toList_ofList.symm⟩
  · rintro ⟨parts, hParts, hEq⟩
    exact ⟨parts, hParts, by rw [hEq, String.ofList_toList]⟩

/-- The error names the first reference without a value. -/
theorem expand_eq_error_iff {s name : String} :
    expand env s = .error name ↔ Lacks env s name := by
  rw [expand, map_eq_error_iff, mapM_eq_error_iff]
  constructor
  · rintro ⟨before, p, after, hSplit, hBefore, hError⟩
    obtain ⟨rfl, hMissing⟩ := Piece.expand_eq_error_iff.1 hError
    refine ⟨before, after, cuts_iff.2 hSplit, hMissing, ?_⟩
    intro name' hMem
    exact Piece.expand_succeeds_iff.1 (hBefore _ hMem) name' rfl
  · rintro ⟨before, after, hCuts, hMissing, hBefore⟩
    refine ⟨before, _, after, cuts_iff.1 hCuts, ?_, Piece.expand_eq_error_iff.2 ⟨rfl, hMissing⟩⟩
    intro p hMem
    refine Piece.expand_succeeds_iff.2 ?_
    rintro name' rfl
    exact hBefore name' hMem

theorem expand_succeeds_iff {s : String} : (∃ t, expand env s = .ok t) ↔ Served env s := by
  have hMap : (∃ t, expand env s = .ok t) ↔
      ∃ parts, (pieces s.toList).mapM (Piece.expand env) = .ok parts := by
    constructor
    · rintro ⟨t, h⟩
      obtain ⟨parts, hParts, -⟩ := map_eq_ok_iff.1 h
      exact ⟨parts, hParts⟩
    · rintro ⟨parts, hParts⟩
      exact ⟨_, map_eq_ok_iff.2 ⟨parts, hParts, rfl⟩⟩
  rw [hMap, mapM_succeeds_iff]
  constructor
  · rintro h name ⟨ps, hCuts, hMem⟩
    rw [← cuts_iff.1 hCuts] at hMem
    exact Piece.expand_succeeds_iff.1 (h _ hMem) name rfl
  · intro h p hMem
    refine Piece.expand_succeeds_iff.2 ?_
    rintro name rfl
    exact h name ⟨_, cuts_pieces _, hMem⟩

end PaneEngine.Config
