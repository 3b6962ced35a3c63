/-!
# References to variables

In the texts of a configuration a dollar sign with a name in braces refers to a
variable of the environment.  A second dollar sign in front takes away that
meaning: what then stands for itself is the reference without it.  A text is
cut into its references, from left to right and without overlap, and the
characters between them.

## Main definitions

* `Config.Piece`, `Config.pieces` — the pieces of a text;
* `Config.Piece.chars` — a piece as written;
* `Config.Environment`, `Config.expand` — the text with its references replaced.
-/

namespace PaneEngine.Config

/-- A character that can start the name of a variable. -/
def isNameStart (c : Char) : Bool := c.isUpper || c = '_'

/-- A character of the name of a variable. -/
def isNameChar (c : Char) : Bool := isNameStart c || c.isDigit

/-- A piece of a text. -/
inductive Piece where
  | char (c : Char)
  /-- A reference, escaped or not. -/
  | reference (escaped : Bool) (name : List Char)
deriving DecidableEq

/-- A name in braces at the start of a text, and the text after it. -/
def bracedName? : List Char → Option (List Char × List Char)
  | '\x7b' :: c :: rest =>
    if isNameStart c then
      match rest.dropWhile isNameChar with
      | '\x7d' :: after => some (c :: rest.takeWhile isNameChar, after)
      | _ => none
    else none
  | _ => none

/-- A reference at the start of a text, and the text after it. -/
def reference? : List Char → Option (Piece × List Char)
  | '$' :: '$' :: rest => (bracedName? rest).map fun r => (.reference true r.1, r.2)
  | '$' :: rest => (bracedName? rest).map fun r => (.reference false r.1, r.2)
  | _ => none

theorem length_lt_of_bracedName? {cs : List Char} {r : List Char × List Char}
    (h : bracedName? cs = some r) : r.2.length < cs.length := by
  unfold bracedName? at h
  split at h
  · next c rest =>
    split at h
    · split at h
      · next after hafter =>
        cases h
        have hle := (List.dropWhile_sublist isNameChar (l := rest)).length_le
        rw [hafter] at hle
        simp only [List.length_cons] at hle ⊢
        omega
      · cases h
    · cases h
  · cases h

theorem length_lt_of_reference? {cs : List Char} {r : Piece × List Char}
    (h : reference? cs = some r) : r.2.length < cs.length := by
  unfold reference? at h
  split at h
  · obtain ⟨n, hn, rfl⟩ := Option.map_eq_some_iff.1 h
    have hlt := length_lt_of_bracedName? hn
    simp only [List.length_cons]
    omega
  · obtain ⟨n, hn, rfl⟩ := Option.map_eq_some_iff.1 h
    have hlt := length_lt_of_bracedName? hn
    simp only [List.length_cons]
    omega
  · cases h

/-- The pieces of a text. -/
def pieces (cs : List Char) : List Piece :=
  match cs with
  | [] => []
  | c :: rest =>
    match _ : reference? (c :: rest) with
    | some (piece, after) => piece :: pieces after
    | none => .char c :: pieces rest
termination_by cs.length
decreasing_by
  · exact length_lt_of_reference? ‹_›
  · exact Nat.lt_succ_self _

namespace Piece

/-- A name in braces. -/
def braced (name : List Char) : List Char := '\x7b' :: name ++ ['\x7d']

/-- A piece as written. -/
def chars : Piece → List Char
  | char c => [c]
  | reference escaped name => (if escaped then ['$', '$'] else ['$']) ++ braced name

end Piece

/-! ## Replacing -/

/-- The variables by name. -/
abbrev Environment := String → Option String

/-- The value of a variable; an empty one counts as missing. -/
def value? (env : Environment) (name : String) : Option String :=
  (env name).filter fun v => !v.isEmpty

/-- What a piece stands for; an error is the name of a missing variable. -/
def Piece.expand (env : Environment) : Piece → Except String (List Char)
  | char c => .ok [c]
  | reference true name => .ok ('$' :: braced name)
  | reference false name =>
    match value? env (String.ofList name) with
    | some v => .ok v.toList
    | none => .error (String.ofList name)

/-- The text with its references replaced; an error is the name of the first missing variable. -/
def expand (env : Environment) (s : String) : Except String String :=
  ((pieces s.toList).mapM (Piece.expand env)).map fun parts => String.ofList parts.flatten

end PaneEngine.Config
