import PaneEngine.Config.Substitution
import PaneEngine.Proofs.Config.Reference
import PaneEngine.Proofs.Dict

/-!
# Substitution throughout a document

A document is walked part by part, and the walk stops at the first text that
refers to a missing variable.  Which text is the first is a matter of paths
alone: they are compared step by step, items by their number and members by their
key, which is the order in which a document in canonical form lists its parts.

## Main definitions

* `Step`, `parts`, `At` — the steps of a path and the part of a document at a path;
* `pathText` — a path as it is reported;
* `Step.Before`, `Before` — the order of the document;
* `Ordered` — a document whose parts stand in the order of their steps;
* `Replaced` — a document and the one that its references make of it;
* `ServedThroughout`, `FirstLack` — a document without a missing variable, or with a first one.

## Main results

* `ordered_of_canonical?` — documents in canonical form are in order;
* `substituteAt_eq_ok_iff`, `substituteAt_succeeds_iff`, `substituteAt_eq_error_iff` — what the walk
  answers, from any path on;
* `firstLack_iff_parts` — the first missing variable lies in the first part that has one;
* `substitute_exact` — what substitution answers.
-/

namespace PaneEngine.Config

/-! ## Paths -/

/-- A step from a document to a part of it. -/
inductive Step where
  | item (index : Nat)
  | member (key : String)

/-- The parts of a document, each with the step to it. -/
def parts : Json → List (Step × Json)
  | .array items => items.zipIdx.map fun m => (.item m.2, m.1)
  | .object members => members.map fun m => (.member m.1, m.2)
  | _ => []

/-- The part of a document at a path. -/
inductive At : Json → List Step → Json → Prop
  | here (j : Json) : At j [] j
  | part {j k l : Json} {step : Step} {path : List Step} :
      (step, k) ∈ parts j → At k path l → At j (step :: path) l

/-- The text of a path with one more step: a number in brackets, or a key behind a dot unless it is
the first. -/
def Step.extend (start : String) : Step → String
  | item index => start ++ "[" ++ toString index ++ "]"
  | member key => if start = "" then key else start ++ "." ++ key

theorem extend_item (start : String) (index : Nat) :
    (Step.item index).extend start = itemPath start index := rfl

theorem extend_member (start key : String) :
    (Step.member key).extend start = memberPath start key := by
  simp only [Step.extend, memberPath, String.isEmpty_iff]

/-- The text of a path that goes on from another one. -/
def pathText (start : String) (path : List Step) : String := path.foldl Step.extend start

/-- The order of two steps from the same document. -/
inductive Step.Before : Step → Step → Prop
  | item {i k : Nat} : i < k → Before (.item i) (.item k)
  | member {key key' : String} : key < key' → Before (.member key) (.member key')

/-- The order of the document: the first step in which two paths differ decides. -/
def Before (path path' : List Step) : Prop := List.Lex Step.Before path path'

theorem Step.Before.irrefl (step : Step) : ¬ step.Before step := by
  intro h
  cases h with
  | item h => exact Nat.lt_irrefl _ h
  | member h => exact String.lt_irrefl _ h

theorem Step.Before.asymm {step step' : Step} (h : step.Before step') : ¬ step'.Before step := by
  intro h'
  cases h with
  | item h =>
      cases h' with
      | item h' => exact Nat.lt_asymm h h'
  | member h =>
      cases h' with
      | member h' => exact String.lt_asymm h h'

theorem at_string_iff {s : String} {path : List Step} {j : Json} :
    At (.string s) path j ↔ path = [] ∧ j = .string s := by
  constructor
  · intro h
    cases h with
    | here => exact ⟨rfl, rfl⟩
    | part hMem _ => exact absurd hMem List.not_mem_nil
  · rintro ⟨rfl, rfl⟩
    exact .here _

/-! ## Documents in order -/

/-- A document whose parts stand in the order of their steps, throughout. -/
inductive Ordered : Json → Prop
  | mk {j : Json} : (parts j).Pairwise (fun a b => a.1.Before b.1) →
      (∀ part ∈ parts j, Ordered part.2) → Ordered j

theorem pairwise_zipIdx {α : Type} (l : List α) (n : Nat) :
    (l.zipIdx n).Pairwise fun a b => a.2 < b.2 := by
  induction l generalizing n with
  | nil => exact .nil
  | cons a l ih =>
      rw [List.zipIdx_cons]
      exact List.pairwise_cons.2 ⟨fun b hMem => List.le_snd_of_mem_zipIdx hMem, ih (n + 1)⟩

/-- Items always stand in the order of their numbers. -/
theorem ordered_array {items : List Json} (h : ∀ j ∈ items, Ordered j) :
    Ordered (.array items) := by
  refine .mk ?_ ?_
  · refine List.pairwise_map.2 ((pairwise_zipIdx items 0).imp ?_)
    intro a b hLt
    exact .item hLt
  · intro part hMem
    obtain ⟨⟨j, i⟩, hItem, rfl⟩ := List.mem_map.1 hMem
    exact h j (List.fst_mem_of_mem_zipIdx hItem)

theorem ordered_object {members : List (String × Json)}
    (hSorted : members.Pairwise fun a b => a.1 < b.1) (h : ∀ m ∈ members, Ordered m.2) :
    Ordered (.object members) := by
  refine .mk ?_ ?_
  · refine List.pairwise_map.2 (hSorted.imp ?_)
    intro a b hLt
    exact .member hLt
  · intro part hMem
    obtain ⟨m, hMember, rfl⟩ := List.mem_map.1 hMem
    exact h m hMember

theorem ordered_of_parts_eq_nil {j : Json} (h : parts j = []) : Ordered j := by
  refine .mk ?_ ?_
  · rw [h]
    exact .nil
  · intro part hMem
    rw [h] at hMem
    exact absurd hMem List.not_mem_nil

mutual

/-- A document in canonical form is in order. -/
theorem ordered_of_canonical? : ∀ {raw j : Json}, raw.canonical? = some j → Ordered j
  | .null, _, h => by
      cases h
      exact ordered_of_parts_eq_nil rfl
  | .bool _, _, h => by
      cases h
      exact ordered_of_parts_eq_nil rfl
  | .number _, _, h => by
      cases h
      exact ordered_of_parts_eq_nil rfl
  | .string _, _, h => by
      cases h
      exact ordered_of_parts_eq_nil rfl
  | .array _, _, h => by
      obtain ⟨items, hItems, rfl⟩ := Option.map_eq_some_iff.1 h
      exact ordered_array (ordered_of_canonicalItems? hItems)
  | .object _, _, h => by
      obtain ⟨members, hMembers, rfl⟩ := Option.map_eq_some_iff.1 h
      refine ordered_object (Dict.ofList members).sorted ?_
      intro m hMem
      exact ordered_of_canonicalMembers? hMembers m (Dict.mem_of_mem_ofList hMem)
  | .unreadable, _, h => nomatch h

theorem ordered_of_canonicalItems? : ∀ {raw items : List Json},
    Json.canonicalItems? raw = some items → ∀ j ∈ items, Ordered j
  | [], _, h => by
      cases h
      exact fun j hMem => absurd hMem List.not_mem_nil
  | _ :: _, _, h => by
      obtain ⟨j, hHead, h⟩ := Option.bind_eq_some_iff.1 h
      obtain ⟨rest, hRest, h⟩ := Option.bind_eq_some_iff.1 h
      cases h
      exact List.forall_mem_cons.2
        ⟨ordered_of_canonical? hHead, ordered_of_canonicalItems? hRest⟩

theorem ordered_of_canonicalMembers? : ∀ {raw members : List (String × Json)},
    Json.canonicalMembers? raw = some members → ∀ m ∈ members, Ordered m.2
  | [], _, h => by
      cases h
      exact fun m hMem => absurd hMem List.not_mem_nil
  | (_, _) :: _, _, h => by
      obtain ⟨j, hHead, h⟩ := Option.bind_eq_some_iff.1 h
      obtain ⟨rest, hRest, h⟩ := Option.bind_eq_some_iff.1 h
      cases h
      exact List.forall_mem_cons.2
        ⟨ordered_of_canonical? hHead, ordered_of_canonicalMembers? hRest⟩

end

/-! ## The result -/

mutual

/-- A document and what its references make of it: the same parts in the same places, only texts
are exchanged. -/
inductive Replaced (env : Environment) : Json → Json → Prop
  | null : Replaced env .null .null
  | bool (b : Bool) : Replaced env (.bool b) (.bool b)
  | number (n : Json.Number) : Replaced env (.number n) (.number n)
  | unreadable : Replaced env .unreadable .unreadable
  | string {s t : String} : Expands env s t → Replaced env (.string s) (.string t)
  | array {items items' : List Json} :
      ReplacedItems env items items' → Replaced env (.array items) (.array items')
  | object {members members' : List (String × Json)} :
      ReplacedMembers env members members' → Replaced env (.object members) (.object members')

/-- `Replaced` item by item. -/
inductive ReplacedItems (env : Environment) : List Json → List Json → Prop
  | nil : ReplacedItems env [] []
  | cons {j j' : Json} {rest rest' : List Json} :
      Replaced env j j' → ReplacedItems env rest rest' →
        ReplacedItems env (j :: rest) (j' :: rest')

/-- `Replaced` member by member, under the same key. -/
inductive ReplacedMembers (env : Environment) :
    List (String × Json) → List (String × Json) → Prop
  | nil : ReplacedMembers env [] []
  | cons {key : String} {j j' : Json} {rest rest' : List (String × Json)} :
      Replaced env j j' → ReplacedMembers env rest rest' →
        ReplacedMembers env ((key, j) :: rest) ((key, j') :: rest')

end

variable {env : Environment}

theorem substituteAt_string_eq_ok_iff {path s : String} {j : Json} :
    substituteAt env path (.string s) = .ok j ↔ ∃ t, Expands env s t ∧ j = .string t := by
  rw [substituteAt]
  cases hExpand : expand env s with
  | ok t =>
      constructor
      · intro h
        cases h
        exact ⟨t, expand_eq_ok_iff.1 hExpand, rfl⟩
      · rintro ⟨t', hExpands, rfl⟩
        rw [expand_eq_ok_iff.2 hExpands] at hExpand
        cases hExpand
        rfl
  | error name =>
      constructor
      · intro h
        cases h
      · rintro ⟨t, hExpands, -⟩
        rw [expand_eq_ok_iff.2 hExpands] at hExpand
        cases hExpand

theorem substituteAt_string_eq_error_iff {path s : String} {e : MissingVariable} :
    substituteAt env path (.string s) = .error e ↔ Lacks env s e.name ∧ e.path = path := by
  rw [substituteAt]
  cases hExpand : expand env s with
  | ok t =>
      constructor
      · intro h
        cases h
      · rintro ⟨hLacks, -⟩
        rw [expand_eq_error_iff.2 hLacks] at hExpand
        cases hExpand
  | error name =>
      constructor
      · intro h
        cases h
        exact ⟨expand_eq_error_iff.1 hExpand, rfl⟩
      · rintro ⟨hLacks, rfl⟩
        rw [expand_eq_error_iff.2 hLacks] at hExpand
        cases hExpand
        rfl

mutual

theorem substituteAt_eq_ok_iff : ∀ {path : String} {j j' : Json},
    substituteAt env path j = .ok j' ↔ Replaced env j j'
  | _, .null, _ => ⟨fun h => by cases h; exact .null, fun h => by cases h; rfl⟩
  | _, .bool b, _ => ⟨fun h => by cases h; exact .bool b, fun h => by cases h; rfl⟩
  | _, .number n, _ => ⟨fun h => by cases h; exact .number n, fun h => by cases h; rfl⟩
  | _, .unreadable, _ => ⟨fun h => by cases h; exact .unreadable, fun h => by cases h; rfl⟩
  | _, .string s, j' => by
      rw [substituteAt_string_eq_ok_iff]
      constructor
      · rintro ⟨t, hExpands, rfl⟩
        exact .string hExpands
      · intro h
        cases h with
        | string hExpands => exact ⟨_, hExpands, rfl⟩
  | path, .array items, j' => by
      rw [substituteAt, map_eq_ok_iff]
      constructor
      · rintro ⟨items', h, rfl⟩
        exact .array (substituteItems_eq_ok_iff.1 h)
      · intro h
        cases h with
        | array h => exact ⟨_, substituteItems_eq_ok_iff.2 h, rfl⟩
  | path, .object members, j' => by
      rw [substituteAt, map_eq_ok_iff]
      constructor
      · rintro ⟨members', h, rfl⟩
        exact .object (substituteMembers_eq_ok_iff.1 h)
      · intro h
        cases h with
        | object h => exact ⟨_, substituteMembers_eq_ok_iff.2 h, rfl⟩

theorem substituteItems_eq_ok_iff : ∀ {path : String} {index : Nat} {items items' : List Json},
    substituteItems env path index items = .ok items' ↔ ReplacedItems env items items'
  | _, _, [], _ => ⟨fun h => by cases h; exact .nil, fun h => by cases h; rfl⟩
  | path, index, j :: rest, items' => by
      rw [substituteItems, bind_eq_ok_iff]
      constructor
      · rintro ⟨j', hHead, h⟩
        obtain ⟨rest', hRest, h⟩ := bind_eq_ok_iff.1 h
        cases h
        exact .cons (substituteAt_eq_ok_iff.1 hHead) (substituteItems_eq_ok_iff.1 hRest)
      · intro h
        cases h with
        | cons hHead hRest =>
            exact ⟨_, substituteAt_eq_ok_iff.2 hHead,
              bind_eq_ok_iff.2 ⟨_, substituteItems_eq_ok_iff.2 hRest, rfl⟩⟩

theorem substituteMembers_eq_ok_iff : ∀ {path : String} {members members' : List (String × Json)},
    substituteMembers env path members = .ok members' ↔ ReplacedMembers env members members'
  | _, [], _ => ⟨fun h => by cases h; exact .nil, fun h => by cases h; rfl⟩
  | path, (key, j) :: rest, members' => by
      rw [substituteMembers, bind_eq_ok_iff]
      constructor
      · rintro ⟨j', hHead, h⟩
        obtain ⟨rest', hRest, h⟩ := bind_eq_ok_iff.1 h
        cases h
        exact .cons (substituteAt_eq_ok_iff.1 hHead) (substituteMembers_eq_ok_iff.1 hRest)
      · intro h
        cases h with
        | cons hHead hRest =>
            exact ⟨_, substituteAt_eq_ok_iff.2 hHead,
              bind_eq_ok_iff.2 ⟨_, substituteMembers_eq_ok_iff.2 hRest, rfl⟩⟩

end

/-! ## Walking through the parts -/

/-- A part of the document at a path with its references replaced. -/
def substitutePart (env : Environment) (path : String) (part : Step × Json) :
    Except MissingVariable Json :=
  substituteAt env (part.1.extend path) part.2

theorem substituteItems_eq_mapM (path : String) (index : Nat) (items : List Json) :
    substituteItems env path index items =
      (items.zipIdx index).mapM fun m => substituteAt env (itemPath path m.2) m.1 := by
  induction items generalizing index with
  | nil => rfl
  | cons j items ih =>
      rw [substituteItems, List.zipIdx_cons, List.mapM_cons]
      simp only [ih]

theorem substituteMembers_eq_error_iff {path : String} {members : List (String × Json)}
    {e : MissingVariable} :
    substituteMembers env path members = .error e ↔
      (members.mapM fun m => substituteAt env (memberPath path m.1) m.2) = .error e := by
  induction members with
  | nil => exact ⟨fun h => (by cases h), fun h => (by cases h)⟩
  | cons m members ih =>
      obtain ⟨key, j⟩ := m
      rw [substituteMembers, List.mapM_cons, bind_eq_error_iff, bind_eq_error_iff]
      refine or_congr Iff.rfl (exists_congr fun j' => and_congr Iff.rfl ?_)
      rw [bind_eq_error_iff, bind_eq_error_iff, ih]
      refine or_congr Iff.rfl ?_
      constructor
      · rintro ⟨rest, -, h⟩
        cases h
      · rintro ⟨rest, -, h⟩
        cases h

/-- Apart from a text, a document fails as the list of its parts does. -/
theorem substituteAt_eq_error_iff_mapM {path : String} {j : Json} {e : MissingVariable}
    (h : ∀ s, j ≠ .string s) :
    substituteAt env path j = .error e ↔
      (parts j).mapM (substitutePart env path) = .error e := by
  cases j with
  | string s => exact absurd rfl (h s)
  | array items =>
      rw [substituteAt, map_eq_error_iff, substituteItems_eq_mapM, parts, List.mapM_map]
      simp only [Function.comp_def, substitutePart, extend_item]
  | object members =>
      rw [substituteAt, map_eq_error_iff, substituteMembers_eq_error_iff, parts, List.mapM_map]
      simp only [Function.comp_def, substitutePart, extend_member]
  | _ => exact ⟨fun h => (by cases h), fun h => (by cases h)⟩

theorem substituteAt_succeeds_iff_parts {path : String} {j : Json} (h : ∀ s, j ≠ .string s) :
    (∃ j', substituteAt env path j = .ok j') ↔
      ∀ part ∈ parts j, ∃ j', substitutePart env path part = .ok j' := by
  rw [← mapM_succeeds_iff, succeeds_iff_not_error, succeeds_iff_not_error]
  exact forall_congr' fun e => not_congr (substituteAt_eq_error_iff_mapM h)

theorem sizeOf_lt_of_mem_parts {j : Json} {part : Step × Json} (h : part ∈ parts j) :
    sizeOf part.2 < sizeOf j := by
  cases j with
  | array items =>
      obtain ⟨⟨k, i⟩, hMem, rfl⟩ := List.mem_map.1 h
      have hLt : sizeOf k < sizeOf items := List.sizeOf_lt_of_mem (List.fst_mem_of_mem_zipIdx hMem)
      simp only [Json.array.sizeOf_spec]
      omega
  | object members =>
      obtain ⟨⟨key, k⟩, hMem, rfl⟩ := List.mem_map.1 h
      have hLt : sizeOf (key, k) < sizeOf members := List.sizeOf_lt_of_mem hMem
      simp only [Prod.mk.sizeOf_spec] at hLt
      simp only [Json.object.sizeOf_spec]
      omega
  | _ => exact absurd h List.not_mem_nil

/-- Induction over a document through its parts. -/
theorem parts_induction {motive : Json → Prop}
    (h : ∀ j, (∀ part ∈ parts j, motive part.2) → motive j) (j : Json) : motive j :=
  h j fun part _ => parts_induction h part.2
termination_by sizeOf j
decreasing_by exact sizeOf_lt_of_mem_parts ‹_›

/-! ## Texts at any depth -/

/-- The texts of a document that is not a text are those of its parts. -/
theorem at_text_iff_parts {j : Json} {path : List Step} {s : String} (h : ∀ s, j ≠ .string s) :
    At j path (.string s) ↔
      ∃ step k rest, path = step :: rest ∧ (step, k) ∈ parts j ∧ At k rest (.string s) := by
  constructor
  · intro hAt
    cases hAt with
    | here => exact absurd rfl (h s)
    | part hMem hAt => exact ⟨_, _, _, rfl, hMem, hAt⟩
  · rintro ⟨step, k, rest, rfl, hMem, hAt⟩
    exact .part hMem hAt

/-- Every text at any depth has all the values it refers to. -/
def ServedThroughout (env : Environment) (j : Json) : Prop :=
  ∀ path s, At j path (.string s) → Served env s

theorem servedThroughout_string_iff {s : String} :
    ServedThroughout env (.string s) ↔ Served env s := by
  constructor
  · intro h
    exact h [] s (.here _)
  · intro hServed path s' hAt
    obtain ⟨-, hEq⟩ := at_string_iff.1 hAt
    cases hEq
    exact hServed

theorem servedThroughout_iff_parts {j : Json} (h : ∀ s, j ≠ .string s) :
    ServedThroughout env j ↔ ∀ part ∈ parts j, ServedThroughout env part.2 := by
  constructor
  · intro hServed part hMem path s hAt
    exact hServed (part.1 :: path) s (.part hMem hAt)
  · intro hServed path s hAt
    obtain ⟨step, k, rest, rfl, hMem, hAt⟩ := (at_text_iff_parts h).1 hAt
    exact hServed _ hMem rest s hAt

theorem substituteAt_succeeds_iff {start : String} {j : Json} :
    (∃ j', substituteAt env start j = .ok j') ↔ ServedThroughout env j := by
  induction j using parts_induction generalizing start with
  | h j ih =>
      by_cases hText : ∃ s, j = .string s
      · obtain ⟨s, rfl⟩ := hText
        rw [servedThroughout_string_iff, ← expand_succeeds_iff]
        constructor
        · rintro ⟨j', h⟩
          obtain ⟨t, hExpands, -⟩ := substituteAt_string_eq_ok_iff.1 h
          exact ⟨t, expand_eq_ok_iff.2 hExpands⟩
        · rintro ⟨t, h⟩
          exact ⟨_, substituteAt_string_eq_ok_iff.2 ⟨t, expand_eq_ok_iff.1 h, rfl⟩⟩
      · have hNoText : ∀ s, j ≠ .string s := fun s hEq => hText ⟨s, hEq⟩
        rw [substituteAt_succeeds_iff_parts hNoText, servedThroughout_iff_parts hNoText]
        exact forall₂_congr fun part hMem => ih part hMem

/-! ## The first failure -/

/-- The first text, in the order of the document, that refers to a variable without a value. -/
def FirstLack (env : Environment) (start : String) (j : Json) (e : MissingVariable) : Prop :=
  ∃ path s, At j path (.string s) ∧ Lacks env s e.name ∧ e.path = pathText start path ∧
    ∀ path' s', Before path' path → At j path' (.string s') → Served env s'

theorem firstLack_string_iff {start s : String} {e : MissingVariable} :
    FirstLack env start (.string s) e ↔ Lacks env s e.name ∧ e.path = start := by
  constructor
  · rintro ⟨path, s', hAt, hLacks, hPath, -⟩
    obtain ⟨rfl, hEq⟩ := at_string_iff.1 hAt
    cases hEq
    exact ⟨hLacks, hPath⟩
  · rintro ⟨hLacks, hPath⟩
    exact ⟨[], s, .here _, hLacks, hPath, fun path' s' hLt => nomatch hLt⟩

/-- Where parts stand in order, one of them splits the others into those before and those behind. -/
theorem before_or_eq_or_behind {before after : List (Step × Json)} {part part' : Step × Json}
    (hSorted : (before ++ part :: after).Pairwise fun a b => a.1.Before b.1)
    (hMem : part' ∈ before ++ part :: after) :
    part' ∈ before ∧ part'.1.Before part.1 ∨ part' = part ∨ part.1.Before part'.1 := by
  obtain ⟨-, hBehind, hBefore⟩ := List.pairwise_append.1 hSorted
  rcases List.mem_append.1 hMem with hMem | hMem
  · exact .inl ⟨hMem, hBefore _ hMem _ List.mem_cons_self⟩
  · rcases List.mem_cons.1 hMem with hEq | hMem
    · exact .inr (.inl hEq)
    · exact .inr (.inr ((List.pairwise_cons.1 hBehind).1 _ hMem))

/-- A path through a part before comes first whatever follows; inside one part the paths begin
alike, so that the rest of them decides. -/
theorem firstLack_iff_parts {start : String} {j : Json} {e : MissingVariable}
    (h : ∀ s, j ≠ .string s) (hSorted : (parts j).Pairwise fun a b => a.1.Before b.1) :
    FirstLack env start j e ↔
      ∃ before part after, parts j = before ++ part :: after ∧
        (∀ b ∈ before, ServedThroughout env b.2) ∧
        FirstLack env (part.1.extend start) part.2 e := by
  constructor
  · rintro ⟨path, s, hAt, hLacks, hPath, hFirst⟩
    obtain ⟨step, k, rest, rfl, hMem, hAt⟩ := (at_text_iff_parts h).1 hAt
    obtain ⟨before, after, hSplit⟩ := List.append_of_mem hMem
    refine ⟨before, (step, k), after, hSplit, ?_, rest, s, hAt, hLacks, hPath, ?_⟩
    · intro part hInBefore path' s' hAt'
      have hMem' : part ∈ parts j := hSplit ▸ List.mem_append_left _ hInBefore
      rw [hSplit] at hSorted
      have hStep : part.1.Before step :=
        (List.pairwise_append.1 hSorted).2.2 _ hInBefore _ List.mem_cons_self
      exact hFirst (part.1 :: path') s' (.rel hStep) (.part hMem' hAt')
    · intro path' s' hLt hAt'
      exact hFirst (step :: path') s' (.cons hLt) (.part hMem hAt')
  · rintro ⟨before, ⟨step, k⟩, after, hSplit, hBefore, path, s, hAt, hLacks, hPath, hFirst⟩
    have hMem : (step, k) ∈ parts j := hSplit ▸ List.mem_append_right _ List.mem_cons_self
    refine ⟨step :: path, s, .part hMem hAt, hLacks, hPath, ?_⟩
    intro path' s' hLt hAt'
    obtain ⟨step', k', rest, rfl, hMem', hAt'⟩ := (at_text_iff_parts h).1 hAt'
    rw [hSplit] at hSorted hMem'
    have hPlace := before_or_eq_or_behind hSorted hMem'
    cases hLt with
    | rel hStep =>
        rcases hPlace with ⟨hInBefore, -⟩ | hEq | hBehind
        · exact hBefore _ hInBefore rest s' hAt'
        · cases hEq
          exact absurd hStep (Step.Before.irrefl step)
        · exact absurd hBehind hStep.asymm
    | cons hRest =>
        rcases hPlace with ⟨-, hStep⟩ | hEq | hStep
        · exact absurd hStep (Step.Before.irrefl step)
        · cases hEq
          exact hFirst rest s' hRest hAt'
        · exact absurd hStep (Step.Before.irrefl step)

theorem substituteAt_eq_error_iff {start : String} {j : Json} {e : MissingVariable}
    (hOrdered : Ordered j) : substituteAt env start j = .error e ↔ FirstLack env start j e := by
  induction hOrdered generalizing start with
  | @mk j hSorted _ ih =>
      by_cases hText : ∃ s, j = .string s
      · obtain ⟨s, rfl⟩ := hText
        rw [substituteAt_string_eq_error_iff, firstLack_string_iff]
      · have hNoText : ∀ s, j ≠ .string s := fun s hEq => hText ⟨s, hEq⟩
        rw [substituteAt_eq_error_iff_mapM hNoText, mapM_eq_error_iff,
          firstLack_iff_parts hNoText hSorted]
        refine exists₃_congr fun before part after => and_congr_right fun hSplit => ?_
        have hMem : part ∈ parts j := hSplit ▸ List.mem_append_right _ List.mem_cons_self
        refine and_congr ?_ (ih part hMem)
        exact forall₂_congr fun b _ => substituteAt_succeeds_iff

/-! ## Substitution -/

/-- **What substitution answers.**  It succeeds exactly if every reference in every text has a
value; the result is the document with each text replaced by what its references make of it and
nothing else changed; an error names the first reference without a value, in the order of the
document, and the path of its text. -/
theorem substitute_exact {raw j : Json} (hValue : raw.canonical? = some j) (env : Environment) :
    ((∃ j', substitute env j = .ok j') ↔
      ∀ path s, At j path (.string s) → ∀ name, Refers s name → ¬ Missing env name) ∧
    (∀ j', substitute env j = .ok j' ↔ Replaced env j j') ∧
    ∀ e, substitute env j = .error e ↔ FirstLack env "" j e := by
  refine ⟨substituteAt_succeeds_iff, ?_, ?_⟩
  · intro j'
    exact substituteAt_eq_ok_iff
  · intro e
    exact substituteAt_eq_error_iff (ordered_of_canonical? hValue)

/-- Two texts of this document refer to variables that may be missing; the one that stands first
comes second by the order of the keys. -/
def siteDocument : Json :=
  .object [("tags", .array [.int 5, .string "v-${TAG}"]),
    ("site", .object [("slug", .string "$$${HOME} ${HOME} ${home}"),
      ("logs", .string "${LOG_DIR}/site")])]

def siteValue : Json :=
  .object [("site", .object [("logs", .string "${LOG_DIR}/site"),
      ("slug", .string "$$${HOME} ${HOME} ${home}")]),
    ("tags", .array [.int 5, .string "v-${TAG}"])]

/-- An empty value counts as missing; a value that looks like a reference is left as it is. -/
theorem substitute_exact_siteDocument :
    siteDocument.canonical? = some siteValue ∧
      FirstLack (fun name => if name = "LOG_DIR" then some "" else none) "" siteValue
        ⟨"LOG_DIR", "site.logs"⟩ ∧
      Replaced (fun name => if name = "HOME" then some "${TAG}" else some "1") siteValue
        (.object [("site", .object [("logs", .string "1/site"),
            ("slug", .string "$${HOME} ${TAG} ${home}")]),
          ("tags", .array [.int 5, .string "v-1"])]) := by
  have hValue : siteDocument.canonical? = some siteValue := by rfl
  refine ⟨hValue, ?_, ?_⟩
  · exact ((substitute_exact hValue _).2.2 _).1 (by with_unfolding_all rfl)
  · exact ((substitute_exact hValue _).2.1 _).1 (by with_unfolding_all rfl)

end PaneEngine.Config
