import PaneEngine.Pane.Compile

/-!
# Forests in reading order

What a compilation lists is a forest: trees that stand one after the other,
every node with a label.  A forest is either empty or a first tree, given by its
label and the forest below it, before further trees; so one induction serves
nodes and sequences of nodes alike.

Numbering a forest in reading order turns the parenthood of nodes into numbers,
and `Forest.rows` lists the nodes flatly with the numbers of their parents.

## Main definitions

* `Forest.listing`, `Forest.heads`, `Forest.families` — all labels in reading order, the labels
  at the top, and every label with those of its children;
* `Forest.number` — the forest with its nodes numbered in reading order;
* `Forest.rows` — the nodes with the numbers of their parents.

## Main results

* `rows_label` — the rows are the nodes in reading order;
* `rows_number` — their numbers run without a gap;
* `rows_parent_lt` — a parent has a smaller number than its children;
* `rows_parent_between` — between a row and its parent no row is at the top;
* `rows_filter_top`, `rows_filter_family` — the rows with a given parent are the children of that
  parent, in order.
-/

namespace PaneEngine.Pane

/-- Trees that stand one after the other. -/
inductive Forest (α : Type) where
  | nil
  /-- A tree with the forest below its root, and the trees behind it. -/
  | tree (label : α) (below behind : Forest α)
deriving DecidableEq

/-- A node in a flat list. -/
structure Row (α : Type) where
  number : Nat
  /-- The number of the parent; a node at the top has none. -/
  parent : Option Nat
  label : α
deriving DecidableEq

namespace Forest

variable {α : Type}

/-- The trees of two forests, one after the other. -/
def append : Forest α → Forest α → Forest α
  | nil, g => g
  | tree a below behind, g => tree a below (behind.append g)

/-- How many nodes there are. -/
def size : Forest α → Nat
  | nil => 0
  | tree _ below behind => 1 + below.size + behind.size

/-- The labels in reading order: a node before what is below it, and that before its siblings. -/
def listing : Forest α → List α
  | nil => []
  | tree a below behind => a :: (below.listing ++ behind.listing)

/-- The labels at the top. -/
def heads : Forest α → List α
  | nil => []
  | tree a _ behind => a :: behind.heads

/-- Every label with those of its children. -/
def families : Forest α → List (α × List α)
  | nil => []
  | tree a below behind => (a, below.heads) :: (below.families ++ behind.families)

/-- The forest with its nodes numbered in reading order. -/
def number (n : Nat) : Forest α → Forest (Nat × α)
  | nil => nil
  | tree a below behind =>
    tree (n, a) (below.number (n + 1)) (behind.number (n + 1 + below.size))

/-- The nodes of a numbered forest in reading order, the top ones under `parent`. -/
def rows (parent : Option Nat) : Forest (Nat × α) → List (Row α)
  | nil => []
  | tree (n, a) below behind => ⟨n, parent, a⟩ :: (below.rows (some n) ++ behind.rows parent)

/-! ## Sizes and appending -/

@[simp] theorem append_nil (f : Forest α) : f.append nil = f := by
  induction f with
  | nil => rfl
  | tree a below behind _ ihBehind => rw [append, ihBehind]

theorem append_assoc (f g h : Forest α) :
    (f.append g).append h = f.append (g.append h) := by
  induction f with
  | nil => rfl
  | tree a below behind _ ihBehind => simp only [append, ihBehind]

@[simp] theorem size_append (f g : Forest α) : (f.append g).size = f.size + g.size := by
  induction f with
  | nil => simp [append, size]
  | tree a below behind _ ihBehind =>
      simp only [append, size, ihBehind]
      omega

@[simp] theorem heads_append (f g : Forest α) : (f.append g).heads = f.heads ++ g.heads := by
  induction f with
  | nil => rfl
  | tree a below behind _ ihBehind => simp only [append, heads, ihBehind, List.cons_append]

@[simp] theorem families_append (f g : Forest α) :
    (f.append g).families = f.families ++ g.families := by
  induction f with
  | nil => rfl
  | tree a below behind _ ihBehind =>
      simp only [append, families, ihBehind, List.cons_append, List.append_assoc]

theorem listing_length (f : Forest α) : f.listing.length = f.size := by
  induction f with
  | nil => rfl
  | tree a below behind ihBelow ihBehind =>
      simp only [listing, size, List.length_cons, List.length_append, ihBelow, ihBehind]
      omega

theorem number_append (f g : Forest α) (n : Nat) :
    (f.append g).number n = (f.number n).append (g.number (n + f.size)) := by
  induction f generalizing n with
  | nil => simp [append, number, size]
  | tree a below behind _ ihBehind =>
      simp only [append, number, size, ihBehind]
      congr 3
      omega

theorem rows_append (p : Option Nat) (f g : Forest (Nat × α)) :
    (f.append g).rows p = f.rows p ++ g.rows p := by
  induction f with
  | nil => rfl
  | tree l below behind _ ihBehind =>
      obtain ⟨n, a⟩ := l
      simp only [append, rows, ihBehind, List.cons_append, List.append_assoc]

/-! ## Rows are the nodes in reading order -/

/-- The rows of a forest are its nodes in reading order. -/
theorem rows_label (p : Option Nat) (f : Forest (Nat × α)) :
    (f.rows p).map (fun r => (r.number, r.label)) = f.listing := by
  induction f generalizing p with
  | nil => rfl
  | tree l below behind ihBelow ihBehind =>
      obtain ⟨n, a⟩ := l
      simp only [rows, listing, List.map_cons, List.map_append, ihBelow, ihBehind]

@[simp] theorem size_number (f : Forest α) (n : Nat) : (f.number n).size = f.size := by
  induction f generalizing n with
  | nil => rfl
  | tree a below behind ihBelow ihBehind => simp only [number, size, ihBelow, ihBehind]

theorem rows_length (p : Option Nat) (f : Forest (Nat × α)) : (f.rows p).length = f.size := by
  rw [← listing_length, ← rows_label p f, List.length_map]

theorem listing_number_fst (f : Forest α) (n : Nat) :
    (f.number n).listing.map (·.1) = List.range' n f.size := by
  induction f generalizing n with
  | nil => rfl
  | tree a below behind ihBelow ihBehind =>
      simp only [number, listing, List.map_cons, List.map_append, ihBelow, ihBehind, size]
      rw [show 1 + below.size + behind.size = (below.size + behind.size) + 1 by omega,
        List.range'_succ, ← List.range'_append_1]

/-- The numbers of the rows run without a gap. -/
theorem rows_number (p : Option Nat) (f : Forest α) (n : Nat) :
    ((f.number n).rows p).map (·.number) = List.range' n f.size := by
  rw [← listing_number_fst, ← rows_label p, List.map_map]
  rfl

/-- A row stands at the place that its number says. -/
theorem number_of_rows_getElem? {p : Option Nat} {f : Forest α} {i : Nat} {r : Row α}
    (h : ((f.number 0).rows p)[i]? = some r) : r.number = i := by
  have hMap := congrArg (fun l => l[i]?) (rows_number p f 0)
  simp only [List.getElem?_map, h, Option.map_some] at hMap
  obtain ⟨hLt, hEq⟩ := List.getElem?_eq_some_iff.1 hMap.symm
  simpa using hEq.symm

/-! ## Parents and children -/

theorem families_label (f : Forest α) : f.families.map (·.1) = f.listing := by
  induction f with
  | nil => rfl
  | tree a below behind ihBelow ihBehind =>
      simp only [families, listing, List.map_cons, List.map_append, ihBelow, ihBehind]

theorem mem_listing_of_heads {f : Forest α} {a : α} (h : a ∈ f.heads) : a ∈ f.listing := by
  induction f with
  | nil => cases h
  | tree b below behind _ ihBehind =>
      rcases List.mem_cons.1 h with rfl | hBehind
      · exact List.mem_cons_self
      · exact List.mem_cons_of_mem _ (List.mem_append_right _ (ihBehind hBehind))

/-- The children of a node are nodes. -/
theorem mem_listing_of_family {f : Forest α} {e : α × List α} (he : e ∈ f.families) {a : α}
    (ha : a ∈ e.2) : a ∈ f.listing := by
  induction f with
  | nil => cases he
  | tree b below behind ihBelow ihBehind =>
      simp only [families, List.mem_cons, List.mem_append] at he
      refine List.mem_cons_of_mem _ (List.mem_append.2 ?_)
      rcases he with rfl | hBelow | hBehind
      · exact .inl (mem_listing_of_heads ha)
      · exact .inl (ihBelow hBelow)
      · exact .inr (ihBehind hBehind)

/-- A node is at the top or a child of a node. -/
theorem mem_heads_or_family {f : Forest α} {a : α} (h : a ∈ f.listing) :
    a ∈ f.heads ∨ ∃ e ∈ f.families, a ∈ e.2 := by
  induction f with
  | nil => cases h
  | tree b below behind ihBelow ihBehind =>
      simp only [listing, List.mem_cons, List.mem_append] at h
      simp only [heads, families]
      rcases h with rfl | hBelow | hBehind
      · exact .inl List.mem_cons_self
      · rcases ihBelow hBelow with hTop | ⟨e, hFamily, hChild⟩
        · exact .inr ⟨(b, below.heads), List.mem_cons_self, hTop⟩
        · exact .inr ⟨e, List.mem_cons_of_mem _ (List.mem_append_left _ hFamily), hChild⟩
      · rcases ihBehind hBehind with hTop | ⟨e, hFamily, hChild⟩
        · exact .inl (List.mem_cons_of_mem _ hTop)
        · exact .inr ⟨e, List.mem_cons_of_mem _ (List.mem_append_right _ hFamily), hChild⟩

theorem heads_number (f : Forest α) (n : Nat) : (f.number n).heads.map (·.2) = f.heads := by
  induction f generalizing n with
  | nil => rfl
  | tree a below behind _ ihBehind => simp only [number, heads, List.map_cons, ihBehind]

/-- Numbering a forest leaves its families as they are. -/
theorem families_number (f : Forest α) (n : Nat) :
    (f.number n).families.map (fun e => (e.1.2, e.2.map (·.2))) = f.families := by
  induction f generalizing n with
  | nil => rfl
  | tree a below behind ihBelow ihBehind =>
      simp only [number, families, List.map_cons, List.map_append, heads_number, ihBelow, ihBehind]

/-- A numbered forest has its numbers in the range that its size gives. -/
theorem family_number_range {f : Forest α} {n : Nat} {e : (Nat × α) × List (Nat × α)}
    (h : e ∈ (f.number n).families) : n ≤ e.1.1 ∧ e.1.1 < n + f.size := by
  have hLabel : e.1 ∈ (f.number n).listing := by
    rw [← families_label]
    exact List.mem_map_of_mem h
  have hNumber : e.1.1 ∈ List.range' n f.size := by
    rw [← listing_number_fst]
    exact List.mem_map_of_mem hLabel
  exact List.mem_range'_1.1 hNumber

theorem rows_number_range {f : Forest α} {n : Nat} {p : Option Nat} {r : Row α}
    (h : r ∈ (f.number n).rows p) : n ≤ r.number ∧ r.number < n + f.size := by
  have hNumber : r.number ∈ List.range' n f.size := by
    rw [← rows_number p]
    exact List.mem_map_of_mem h
  exact List.mem_range'_1.1 hNumber

/-- A row lies at the top, or its parent is a node of the forest with a smaller number. -/
theorem rows_parent_lt {f : Forest α} {n : Nat} {p : Option Nat} {r : Row α}
    (h : r ∈ (f.number n).rows p) :
    r.parent = p ∨ ∃ q, r.parent = some q ∧ n ≤ q ∧ q < r.number := by
  induction f generalizing n p with
  | nil => simp [number, rows] at h
  | tree a below behind ihBelow ihBehind =>
      simp only [number, rows, List.mem_cons, List.mem_append] at h
      rcases h with rfl | hBelow | hBehind
      · exact .inl rfl
      · have hRange := rows_number_range hBelow
        rcases ihBelow hBelow with hTop | ⟨q, hq, hLe, hLt⟩
        · exact .inr ⟨n, hTop, Nat.le_refl n, by omega⟩
        · exact .inr ⟨q, hq, by omega, hLt⟩
      · rcases ihBehind hBehind with hTop | ⟨q, hq, hLe, hLt⟩
        · exact .inl hTop
        · exact .inr ⟨q, hq, by omega, hLt⟩

/-- No row of a forest has a parent that is numbered neither at its top nor in its range. -/
theorem rows_filter_eq_nil {f : Forest α} {n m : Nat} {p : Option Nat} (hTop : p ≠ some m)
    (hOut : m < n ∨ n + f.size ≤ m) :
    ((f.number n).rows p).filter (fun r => r.parent = some m) = [] := by
  refine List.filter_eq_nil_iff.2 ?_
  intro r hMem hEq
  have hParent : r.parent = some m := by simpa using hEq
  have hRange := rows_number_range hMem
  rcases rows_parent_lt hMem with hp | ⟨q, hq, hLe, hLt⟩
  · exact hTop (hp ▸ hParent)
  · have : q = m := by simpa [hParent] using hq.symm
    omega

/-- Below a node no row lies under a parent that is numbered before that node. -/
theorem rows_parent_ne {f : Forest α} {n : Nat} {p : Option Nat} (hp : ∀ q, p = some q → q < n)
    {r : Row α} (h : r ∈ (f.number (n + 1)).rows (some n)) : r.parent ≠ p := by
  intro hEq
  rcases rows_parent_lt h with hTop | ⟨q, hq, hLe, _⟩
  · exact Nat.lt_irrefl n (hp n (hEq ▸ hTop))
  · have := hp q (hEq ▸ hq)
    omega

/-- Between a row and its parent no row is at the top. -/
theorem rows_parent_between {f : Forest α} {n : Nat} {p : Option Nat}
    (hp : ∀ q, p = some q → q < n) {r r' : Row α} (h : r ∈ (f.number n).rows p)
    (h' : r' ∈ (f.number n).rows p) {q : Nat} (hParent : r.parent = some q) (hLow : r.parent ≠ p)
    (hAfter : q < r'.number) (hUpTo : r'.number ≤ r.number) : r'.parent ≠ p := by
  induction f generalizing n with
  | nil => simp [number, rows] at h
  | tree a below behind _ ihBehind =>
      simp only [number, rows, List.mem_cons, List.mem_append] at h h'
      -- The parent of a row below the head is the head or below it too.
      rcases h with rfl | hBelow | hBehind
      · exact absurd rfl hLow
      · have hRange := rows_number_range hBelow
        have hHead : n ≤ q := by
          rcases rows_parent_lt hBelow with hTop | ⟨q', hq, hLe, _⟩
          · have : n = q := by simpa [hParent] using hTop.symm
            omega
          · have : q' = q := by simpa [hParent] using hq.symm
            omega
        rcases h' with rfl | hBelow' | hBehind'
        · exact absurd hAfter (Nat.not_lt.2 hHead)
        · exact rows_parent_ne hp hBelow'
        · have hRange' := rows_number_range hBehind'
          omega
      · have hRange : n + 1 + below.size ≤ q := by
          rcases rows_parent_lt hBehind with hTop | ⟨q', hq, hLe, _⟩
          · exact absurd hTop hLow
          · have : q' = q := by simpa [hParent] using hq.symm
            omega
        rcases h' with rfl | hBelow' | hBehind'
        · have : q < n := hAfter
          omega
        · exact rows_parent_ne hp hBelow'
        · refine ihBehind (fun q hq => ?_) hBehind hBehind'
          have := hp q hq
          omega

/-- The rows directly under the parent of a forest are its top nodes. -/
theorem rows_filter_top (f : Forest α) {n : Nat} {p : Option Nat}
    (hp : ∀ q, p = some q → q < n) :
    (((f.number n).rows p).filter (fun r => r.parent = p)).map (fun r => (r.number, r.label)) =
      (f.number n).heads := by
  induction f generalizing n with
  | nil => rfl
  | tree a below behind _ ihBehind =>
      have hBelow : ((below.number (n + 1)).rows (some n)).filter (fun r => r.parent = p) = [] := by
        refine List.filter_eq_nil_iff.2 ?_
        intro r hMem hEq
        exact rows_parent_ne hp hMem (by simpa using hEq)
      have hBehind := ihBehind (n := n + 1 + below.size) fun q hq => by
        have := hp q hq
        omega
      simp only [number, rows, heads, List.filter_cons, decide_true, if_true, List.filter_append,
        hBelow, List.nil_append, List.map_cons, hBehind]

/-- The rows under a node of the forest are the children of that node. -/
theorem rows_filter_family {f : Forest α} {n : Nat} {p : Option Nat}
    (hp : ∀ q, p = some q → q < n) {e : (Nat × α) × List (Nat × α)}
    (h : e ∈ (f.number n).families) :
    (((f.number n).rows p).filter (fun r => r.parent = some e.1.1)).map
      (fun r => (r.number, r.label)) = e.2 := by
  induction f generalizing n p with
  | nil => simp [number, families] at h
  | tree a below behind ihBelow ihBehind =>
      simp only [number, families, List.mem_cons, List.mem_append] at h
      have hTop : ∀ m, n ≤ m → p ≠ some m := by
        intro m hm hEq
        have := hp m hEq
        omega
      simp only [number, rows, List.filter_cons, List.filter_append]
      rcases h with rfl | hMem | hMem
      · rw [if_neg (by simpa using hTop n (Nat.le_refl n)),
          rows_filter_eq_nil (hTop n (Nat.le_refl n)) (.inl (by omega)), List.append_nil]
        exact rows_filter_top below fun q hq => by
          have : n = q := by simpa using hq
          omega
      · have hRange := family_number_range hMem
        rw [if_neg (by simpa using hTop e.1.1 (by omega)),
          rows_filter_eq_nil (hTop e.1.1 (by omega)) (.inl (by omega)), List.append_nil]
        exact ihBelow (fun q hq => by
          have : n = q := by simpa using hq
          omega) hMem
      · have hRange := family_number_range hMem
        rw [if_neg (by simpa using hTop e.1.1 (by omega)),
          rows_filter_eq_nil (p := some n) (by simp; omega) (.inr (by omega)), List.nil_append]
        exact ihBehind (fun q hq => by
          have := hp q hq
          omega) hMem

end Forest

end PaneEngine.Pane
