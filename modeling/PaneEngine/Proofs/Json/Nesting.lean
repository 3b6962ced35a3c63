import PaneEngine.Json.Reader
import PaneEngine.Proofs.Json.Tokens

/-!
# A written document is read back

The tokens of a document, taken one by one where a value may stand, leave the
document in the bracket around it.  An array or object inside too many others is
kept as a part without a value; so a document is read back as it is if it nests
as deep as the limit allows, and with a part that has no value if it nests deeper.

## Main definitions

* `Json.depth` — how deep a document nests arrays and objects;
* `Json.cut` — a document with the parts that lie too deep cut out.

## Main results

* `foldlM_tokensOf` — what the tokens of a document do;
* `cut_eq_self`, `isReadable_cut` — what is left after the cut;
* `read?_text` — the text of a document is read back as the document that is cut.
-/

namespace PaneEngine.Json

/-! ## Nesting -/

mutual

/-- How many arrays and objects lie around the innermost part, itself included. -/
def depth : Json → Nat
  | array items => itemsDepth items + 1
  | object members => membersDepth members + 1
  | _ => 0

/-- The greatest depth of an item. -/
def itemsDepth : List Json → Nat
  | [] => 0
  | j :: rest => max (depth j) (itemsDepth rest)

/-- The greatest depth of the value of a member. -/
def membersDepth : List (String × Json) → Nat
  | [] => 0
  | (_, j) :: rest => max (depth j) (membersDepth rest)

end

theorem itemsDepth_le_iff {items : List Json} {n : Nat} :
    itemsDepth items ≤ n ↔ ∀ j ∈ items, j.depth ≤ n := by
  induction items with
  | nil => simp [itemsDepth]
  | cons j rest ih => rw [itemsDepth, Nat.max_le, List.forall_mem_cons, ih]

theorem membersDepth_le_iff {members : List (String × Json)} {n : Nat} :
    membersDepth members ≤ n ↔ ∀ m ∈ members, m.2.depth ≤ n := by
  induction members with
  | nil => simp [membersDepth]
  | cons m rest ih =>
      obtain ⟨k, j⟩ := m
      rw [membersDepth, Nat.max_le, List.forall_mem_cons, ih]

mutual

/-- The document inside `above` brackets, with each array and object that lies too deep cut out; a
part without a value is written as `null`. -/
def cut (above : Nat) : Json → Json
  | array items => limited above (array (cutItems above items))
  | object members => limited above (object (cutMembers above members))
  | unreadable => null
  | j => j

/-- The items of an array inside `above` brackets. -/
def cutItems (above : Nat) : List Json → List Json
  | [] => []
  | j :: rest => cut (above + 1) j :: cutItems above rest

/-- The members of an object inside `above` brackets. -/
def cutMembers (above : Nat) : List (String × Json) → List (String × Json)
  | [] => []
  | (k, j) :: rest => (k, cut (above + 1) j) :: cutMembers above rest

end

/-! ## The tokens of a document one by one -/

open Progress (step finish)

/-- Where a value may stand. -/
def Next.TakesValue (next : Next) : Prop := next = .value ∨ next = .valueOrClose

theorem step_of_takesValue {next : Next} (h : next.TakesValue) (stack : List Open) {t : Token}
    (hOpen : t ≠ .closeBracket) : step (.inside next stack) t = Progress.takeValue stack t := by
  rcases h with rfl | rfl
  · rfl
  · cases t with
    | closeBracket => exact absurd rfl hOpen
    | _ => rfl

mutual

/-- **The tokens of a document** leave the document, cut, in the bracket around it. -/
theorem foldlM_tokensOf : ∀ (j : Json) {next : Next} (stack : List Open), next.TakesValue →
    (tokensOf j).foldlM step (.inside next stack) = some (finish (cut stack.length j) stack)
  | null, _, stack, h => by
      rw [tokensOf, List.foldlM_cons, step_of_takesValue h stack (by simp)]
      rfl
  | bool b, _, stack, h => by
      rw [tokensOf, List.foldlM_cons, step_of_takesValue h stack (by simp)]
      rfl
  | number n, _, stack, h => by
      rw [tokensOf, List.foldlM_cons, step_of_takesValue h stack (by simp)]
      rfl
  | string s, _, stack, h => by
      rw [tokensOf, List.foldlM_cons, step_of_takesValue h stack (by simp)]
      rfl
  | unreadable, _, stack, h => by
      rw [tokensOf, List.foldlM_cons, step_of_takesValue h stack (by simp)]
      rfl
  | array [], _, stack, h => by
      rw [tokensOf, List.foldlM_cons, step_of_takesValue h stack (by simp)]
      rfl
  | array (j :: items), _, stack, h => by
      rw [tokensOf, List.cons_append, List.foldlM_cons, step_of_takesValue h stack (by simp)]
      show (tokensOf j ++ itemTokens items).foldlM step
        (.inside .valueOrClose (.items [] :: stack)) = _
      rw [List.foldlM_append, foldlM_tokensOf j (.items [] :: stack) (.inr rfl)]
      exact foldlM_itemTokens items [cut (stack.length + 1) j] stack
  | object [], _, stack, h => by
      rw [tokensOf, List.foldlM_cons, step_of_takesValue h stack (by simp)]
      rfl
  | object ((k, j) :: members), _, stack, h => by
      rw [tokensOf, List.cons_append, List.foldlM_cons, step_of_takesValue h stack (by simp)]
      show (tokensOf j ++ memberTokens members).foldlM step
        (.inside .value (.members (some []) (some k) :: stack)) = _
      rw [List.foldlM_append,
        foldlM_tokensOf j (.members (some []) (some k) :: stack) (.inl rfl)]
      exact foldlM_memberTokens members [(k, cut (stack.length + 1) j)] stack

theorem foldlM_itemTokens : ∀ (items done : List Json) (stack : List Open),
    (itemTokens items).foldlM step (.inside .commaOrClose (.items done :: stack)) =
      some (finish (limited stack.length
        (array (done.reverse ++ cutItems stack.length items))) stack)
  | [], done, stack => by
      rw [cutItems, List.append_nil]
      rfl
  | j :: items, done, stack => by
      rw [itemTokens, List.cons_append, List.foldlM_cons]
      show (tokensOf j ++ itemTokens items).foldlM step
        (.inside .value (.items done :: stack)) = _
      rw [List.foldlM_append, foldlM_tokensOf j (.items done :: stack) (.inl rfl)]
      refine (foldlM_itemTokens items (cut (stack.length + 1) j :: done) stack).trans ?_
      rw [List.reverse_cons, List.append_assoc, cutItems]
      rfl

theorem foldlM_memberTokens : ∀ (members done : List (String × Json)) (stack : List Open),
    (memberTokens members).foldlM step
        (.inside .commaOrClose (.members (some done) none :: stack)) =
      some (finish (limited stack.length
        (object (done.reverse ++ cutMembers stack.length members))) stack)
  | [], done, stack => by
      rw [cutMembers, List.append_nil]
      rfl
  | (k, j) :: members, done, stack => by
      rw [memberTokens, List.cons_append, List.foldlM_cons]
      show (tokensOf j ++ memberTokens members).foldlM step
        (.inside .value (.members (some done) (some k) :: stack)) = _
      rw [List.foldlM_append,
        foldlM_tokensOf j (.members (some done) (some k) :: stack) (.inl rfl)]
      refine (foldlM_memberTokens members ((k, cut (stack.length + 1) j) :: done) stack).trans ?_
      rw [List.reverse_cons, List.append_assoc, cutMembers]
      rfl

end

/-! ## What is left after the cut -/

theorem isReadable_array (items : List Json) :
    (array items).isReadable = items.all isReadable := by
  have hItems : (canonicalItems? items).isSome = items.all isReadable := by
    induction items with
    | nil => rfl
    | cons j rest ih =>
        rw [List.all_cons, ← ih, canonicalItems?, isReadable]
        cases canonical? j with
        | none => rfl
        | some j' =>
            cases canonicalItems? rest with
            | none => rfl
            | some rest' => rfl
  rw [← hItems, isReadable, canonical?, Option.isSome_map]

theorem isReadable_object (members : List (String × Json)) :
    (object members).isReadable = members.all fun m => m.2.isReadable := by
  have hMembers : (canonicalMembers? members).isSome = members.all fun m => m.2.isReadable := by
    induction members with
    | nil => rfl
    | cons m rest ih =>
        obtain ⟨k, j⟩ := m
        rw [List.all_cons, ← ih, canonicalMembers?, isReadable]
        cases canonical? j with
        | none => rfl
        | some j' =>
            cases canonicalMembers? rest with
            | none => rfl
            | some rest' => rfl
  rw [← hMembers, isReadable, canonical?, Option.isSome_map]

mutual

/-- Nothing is cut out of a document that does not nest too deep. -/
theorem cut_eq_self : ∀ (j : Json) {above : Nat}, j.isReadable = true →
    above + j.depth ≤ depthLimit → cut above j = j
  | null, _, _, _ => rfl
  | bool _, _, _, _ => rfl
  | number _, _, _, _ => rfl
  | string _, _, _, _ => rfl
  | unreadable, _, h, _ => nomatch h
  | array items, above, h, hDepth => by
      rw [isReadable_array] at h
      rw [depth] at hDepth
      rw [cut, limited, if_pos (by omega), cutItems_eq_self items h (by omega)]
  | object members, above, h, hDepth => by
      rw [isReadable_object] at h
      rw [depth] at hDepth
      rw [cut, limited, if_pos (by omega), cutMembers_eq_self members h (by omega)]

theorem cutItems_eq_self : ∀ (items : List Json) {above : Nat}, items.all isReadable = true →
    above + 1 + itemsDepth items ≤ depthLimit → cutItems above items = items
  | [], _, _, _ => rfl
  | j :: rest, above, h, hDepth => by
      rw [List.all_cons, Bool.and_eq_true] at h
      rw [itemsDepth] at hDepth
      rw [cutItems, cut_eq_self j h.1 (by omega), cutItems_eq_self rest h.2 (by omega)]

theorem cutMembers_eq_self : ∀ (members : List (String × Json)) {above : Nat},
    (members.all fun m => m.2.isReadable) = true →
    above + 1 + membersDepth members ≤ depthLimit → cutMembers above members = members
  | [], _, _, _ => rfl
  | (_, j) :: rest, above, h, hDepth => by
      rw [List.all_cons, Bool.and_eq_true] at h
      rw [membersDepth] at hDepth
      rw [cutMembers, cut_eq_self j h.1 (by omega), cutMembers_eq_self rest h.2 (by omega)]

end

mutual

/-- What is left has a value throughout exactly if nothing had to be cut out for its depth. -/
theorem isReadable_cut : ∀ (j : Json) {above : Nat}, above ≤ depthLimit →
    ((cut above j).isReadable = true ↔ above + j.depth ≤ depthLimit)
  | null, _, h => ⟨fun _ => h, fun _ => rfl⟩
  | bool _, _, h => ⟨fun _ => h, fun _ => rfl⟩
  | number _, _, h => ⟨fun _ => h, fun _ => rfl⟩
  | string _, _, h => ⟨fun _ => h, fun _ => rfl⟩
  | unreadable, _, h => ⟨fun _ => h, fun _ => rfl⟩
  | array items, above, h => by
      rw [cut, limited, depth]
      by_cases hAbove : above < depthLimit
      · rw [if_pos hAbove, isReadable_array, all_cutItems items hAbove]
        omega
      · rw [if_neg hAbove]
        exact ⟨fun hNone => (nomatch hNone), fun hDepth => by omega⟩
  | object members, above, h => by
      rw [cut, limited, depth]
      by_cases hAbove : above < depthLimit
      · rw [if_pos hAbove, isReadable_object, all_cutMembers members hAbove]
        omega
      · rw [if_neg hAbove]
        exact ⟨fun hNone => (nomatch hNone), fun hDepth => by omega⟩

theorem all_cutItems : ∀ (items : List Json) {above : Nat}, above < depthLimit →
    ((cutItems above items).all isReadable = true ↔ above + 1 + itemsDepth items ≤ depthLimit)
  | [], _, h => ⟨fun _ => h, fun _ => rfl⟩
  | j :: rest, above, h => by
      rw [cutItems, List.all_cons, Bool.and_eq_true, isReadable_cut j h, all_cutItems rest h,
        itemsDepth]
      omega

theorem all_cutMembers : ∀ (members : List (String × Json)) {above : Nat}, above < depthLimit →
    (((cutMembers above members).all fun m => m.2.isReadable) = true ↔
      above + 1 + membersDepth members ≤ depthLimit)
  | [], _, h => ⟨fun _ => h, fun _ => rfl⟩
  | (_, j) :: rest, above, h => by
      rw [cutMembers, List.all_cons, Bool.and_eq_true, isReadable_cut j h, all_cutMembers rest h,
        membersDepth]
      omega

end

/-! ## Texts -/

/-- **The text of a document is read back** as the document, without the parts that lie too
deep. -/
theorem read?_text {j : Json} (h : ∀ n ∈ j.numbers, n.ReadsBack) :
    read? j.text = some (cut 0 j) := by
  have hTokens : tokens? (chars j ++ []) = (tokens? []).map (tokensOf j ++ ·) :=
    tokens?_chars j h fun _ hNone => nomatch hNone
  rw [List.append_nil, tokens?] at hTokens
  rw [read?, text, String.toList_ofList, hTokens]
  show ofTokens? (tokensOf j ++ []) = _
  rw [List.append_nil, ofTokens?, foldlM_tokensOf j [] (.inl rfl)]
  rfl

/-- A document that does not nest too deep is read back as it is. -/
theorem read?_text_of_depth_le {j : Json} (h : ∀ n ∈ j.numbers, n.ReadsBack)
    (hValue : j.isReadable = true) (hDepth : j.depth ≤ depthLimit) : read? j.text = some j := by
  rw [read?_text h, cut_eq_self j hValue (by omega)]

end PaneEngine.Json
