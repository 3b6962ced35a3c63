import PaneEngine.Markup.Source

/-!
# Cursors

A cursor stands inside a line and counts columns, since a tab reaches to the
next multiple of four and may be used up in part by the indentation of a
container.

## Main definitions

* `Markup.Cursor` — a place in a line; `takeSpaces`, `quoteMarker?`, `listMarker?`;
* `Markup.Container`, `Markup.continueAll` — the containers that a line continues.
-/

namespace PaneEngine.Markup

/-- A place in a line. -/
structure Cursor where
  /-- The text behind the place. -/
  rest : List Char
  position : Nat
  /-- The number of characters since the last tab, or since the start of the line. -/
  column : Nat
  /-- Columns of a tab that has been passed in part. -/
  spaces : Nat

namespace Cursor

/-- The start of a line. -/
def start (src : Source) (position : Nat) : Cursor := ⟨src.behind position, position, 0, 0⟩

/-- Takes at most `n` columns of spaces and tabs; returns how many there were. -/
def takeFrom (n column position : Nat) : List Char → Nat × Cursor
  | [] => (0, ⟨[], position, column, 0⟩)
  | c :: rest =>
    if n = 0 then (0, ⟨c :: rest, position, column, 0⟩)
    else if c = ' ' then
      let (k, cur) := takeFrom (n - 1) (column + 1) (position + 1) rest
      (k + 1, cur)
    else if c = '\t' then
      let width := 4 - column % 4
      if n ≤ width then (n, ⟨rest, position + 1, 0, width - n⟩)
      else
        let (k, cur) := takeFrom (n - width) 0 (position + 1) rest
        (k + width, cur)
    else (0, ⟨c :: rest, position, column, 0⟩)

/-- Takes at most `n` columns of spaces and tabs; returns how many there were. -/
def takeSpaces (n : Nat) (cur : Cursor) : Nat × Cursor :=
  if n ≤ cur.spaces then (n, { cur with spaces := cur.spaces - n })
  else
    let (k, next) := takeFrom (n - cur.spaces) cur.column cur.position cur.rest
    (cur.spaces + k, next)

theorem length_takeFrom_le (n column position : Nat) (cs : List Char) :
    (takeFrom n column position cs).2.rest.length ≤ cs.length := by
  induction cs generalizing n column position with
  | nil => simp [takeFrom]
  | cons c rest ih =>
    rw [takeFrom]
    split
    · simp
    · split
      · exact Nat.le_succ_of_le (ih ..)
      · split
        · simp only
          split
          · simp
          · exact Nat.le_succ_of_le (ih ..)
        · simp

theorem length_takeSpaces_le (n : Nat) (cur : Cursor) :
    (cur.takeSpaces n).2.rest.length ≤ cur.rest.length := by
  rw [takeSpaces]
  split
  · simp
  · exact length_takeFrom_le ..

/-- Passes `n` characters. -/
def skip (n : Nat) (cur : Cursor) : Cursor :=
  ⟨cur.rest.drop n, cur.position + n, cur.column + n, cur.spaces⟩

/-- Passes all spaces and tabs. -/
def skipSpaces (cur : Cursor) : Cursor :=
  { cur.skip (countWhile (fun c => c = ' ' || c = '\t') cur.rest) with spaces := 0 }

/-- Whether the line ends at the place. -/
def atLineEnd (cur : Cursor) : Bool := (lineEnd? cur.rest).isSome

/-- Passes the marker of a quotation and one space.  A tab that reaches beyond the third column
does not stand in the way of the marker. -/
def quoteMarker? (cur : Cursor) : Option Cursor :=
  let next := (cur.takeSpaces 3).2
  match next.rest with
  | '>' :: _ => some ((next.skip 1).takeSpaces 1).2
  | _ => none

theorem length_of_quoteMarker? {cur next : Cursor} (h : cur.quoteMarker? = some next) :
    next.rest.length < cur.rest.length := by
  have hSpaces := length_takeSpaces_le 3 cur
  simp only [quoteMarker?] at h
  split at h
  · rename_i hRest
    have hMarker := length_takeSpaces_le 1 ((cur.takeSpaces 3).2.skip 1)
    obtain rfl := Option.some.inj h
    simp only [skip, hRest, List.length_cons, List.length_drop] at *
    omega
  · simp at h

end Cursor

/-! ## Thematic breaks -/

/-- The length of the line at the start of a text. -/
def restOfLine (cs : List Char) : List Char := cs.takeWhile fun c => c ≠ '\n' && c ≠ '\r'

/-- The length of a thematic break. -/
def ruleLength? : List Char → Option Nat
  | [] => none
  | c :: rest =>
    let line := restOfLine (c :: rest)
    if (c = '*' || c = '-' || c = '_')
        && line.all (fun d => d = c || d = ' ' || d = '\t') && 3 ≤ line.count c then
      some (line.length + (lineEnd? ((c :: rest).drop line.length)).getD 0)
    else none

/-! ## List markers -/

/-- Whether the character is a bullet. -/
def isBullet (c : Char) : Bool := c = '-' || c = '+' || c = '*'

/-- The marker of a list item: its last character and the indentation of its content. -/
structure ListMarker where
  char : Char
  indent : Nat

namespace Cursor

/-- Passes the blanks behind a marker; four or more belong to the content, all but one.
`width` is the number of columns up to the end of the marker and of the blank behind it. -/
def afterMarker? (char : Char) (width : Cursor → Nat) (cur : Cursor) :
    Option (ListMarker × Cursor) :=
  let (k, cur) := cur.takeSpaces 1
  if k = 1 || cur.atLineEnd then
    if (blankLine? cur.rest).isSome then some (⟨char, width cur⟩, cur)
    else
      let (post, next) := cur.takeSpaces 4
      if post < 4 then some (⟨char, width cur + post⟩, next) else some (⟨char, width cur⟩, cur)
  else none

/-- Passes the marker of a list item.  Content is indented by two columns more than a bullet, even
where the line ends behind it, and by the width of a number with the blank that follows it. -/
def listMarker? (cur : Cursor) : Option (ListMarker × Cursor) :=
  let (indent, cur) := cur.takeSpaces 4
  if indent = 4 then none
  else match cur.rest with
    | [] => none
    | c :: _ =>
      if isBullet c then
        if (ruleLength? cur.rest).isSome then none
        else (cur.skip 1).afterMarker? c fun _ => indent + 2
      else
        let n := countWhile Char.isDigit cur.rest
        match cur.rest.drop n with
        | d :: _ =>
          if 1 ≤ n && n ≤ 9 && (d = '.' || d = ')') then
            (cur.skip (n + 1)).afterMarker? d fun next => indent + (next.position - cur.position)
          else none
        | [] => none

theorem length_of_afterMarker? {char : Char} {width : Cursor → Nat} {cur next : Cursor}
    {marker : ListMarker} (h : cur.afterMarker? char width = some (marker, next)) :
    next.rest.length ≤ cur.rest.length := by
  have hBlank := length_takeSpaces_le 1 cur
  have hMore := length_takeSpaces_le 4 (cur.takeSpaces 1).2
  simp only [afterMarker?] at h
  repeat' split at h
  all_goals simp_all
  all_goals omega

theorem length_of_listMarker? {cur next : Cursor} {marker : ListMarker}
    (h : cur.listMarker? = some (marker, next)) : next.rest.length < cur.rest.length := by
  have hSpaces := length_takeSpaces_le 4 cur
  have hShorter {k : Nat} {c : Char} {width : Cursor → Nat} (hRest : (cur.takeSpaces 4).2.rest ≠ [])
      (hMarker : ((cur.takeSpaces 4).2.skip (k + 1)).afterMarker? c width = some (marker, next)) :
      next.rest.length < cur.rest.length := by
    have := length_of_afterMarker? hMarker
    have := List.length_pos_iff.2 hRest
    simp only [skip, List.length_drop] at *
    omega
  simp only [listMarker?] at h
  split at h
  · simp at h
  · split at h
    · simp at h
    · rename_i hRest
      have hNonempty : (cur.takeSpaces 4).2.rest ≠ [] := by simp [hRest]
      split at h
      · split at h
        · simp at h
        · exact hShorter hNonempty h
      · split at h
        · split at h
          · exact hShorter hNonempty h
          · simp at h
        · simp at h

end Cursor

/-! ## Containers -/

/-- What holds blocks. -/
inductive Container where
  | quote
  | list (marker : Char) (tight : Bool)
  /-- The content of an item is indented by `indent` columns. -/
  | item (indent : Nat)
deriving DecidableEq

/-- Where the content of a line begins that continues the container. -/
def Container.continue? (cur : Cursor) : Container → Option Cursor
  | .quote => cur.quoteMarker?
  | .list .. => some cur
  | .item indent =>
    let (k, next) := cur.takeSpaces indent
    if k = indent || next.atLineEnd then some next else none

/-- Continues containers, outermost first, as far as possible; returns how many are left. -/
def continueAll : List Container → Cursor → Nat × Cursor
  | [], cur => (0, cur)
  | c :: rest, cur =>
    match Container.continue? cur c with
    | some next => continueAll rest next
    | none => (rest.length + 1, cur)

/-- How many characters at the start of a line belong to containers. -/
def containerLength (containers : List Container) (line : List Char) : Nat :=
  (continueAll containers ⟨line, 0, 0, 0⟩).2.position

end PaneEngine.Markup
