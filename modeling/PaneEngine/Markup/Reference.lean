import PaneEngine.Markup.Character
import PaneEngine.Markup.ReferenceTable

/-!
# Character references and escapes

A reference is `&`, a name of HTML 5 or a number, and `;`.  Zero stands for the
replacement character; a number that is no character is no reference.  In link
destinations, titles and info texts references and backslash escapes are
replaced in one pass.

## Main definitions

* `Markup.reference?` — the reference at the start of a text;
* `Markup.unescape` — replaces references and escapes.
-/

namespace PaneEngine.Markup

/-- The value of a hexadecimal digit. -/
def hexValue? (c : Char) : Option Nat :=
  if c.isDigit then some (c.toNat - '0'.toNat)
  else if 'a' ≤ c && c ≤ 'f' then some (c.toNat - 'a'.toNat + 10)
  else if 'A' ≤ c && c ≤ 'F' then some (c.toNat - 'A'.toNat + 10)
  else none

/-- The value of digits in a base, as far as they are digits. -/
def digitValue (base : Nat) (ds : List Char) : Nat :=
  ds.foldl (fun n c => n * base + (hexValue? c).getD 0) 0

/-- The character of a number. -/
def characterOf? (n : Nat) : Option Char :=
  if n = 0 then some '\ufffd'
  else if h : n.isValidChar then some (Char.ofNatAux n h)
  else none

/-- The characters that a named reference stands for. -/
def namedCharacters? (name : List Char) : Option (List Char) :=
  match name with
  | [] => none
  | c :: _ =>
    let entries := (referenceTable c).flatMap fun line => line.toList.splitOn ','
    (entries.find? fun e => e.takeWhile (· ≠ ' ') = name).map fun e =>
      ((e.drop (name.length + 1)).splitOn '+').map fun ds => Char.ofNat (digitValue 16 ds)

/-- The text of a reference whose `&` has been read, and its length without the `&`. -/
def reference? : List Char → Option (List Char × Nat)
  | '#' :: x :: rest =>
    if x = 'x' || x = 'X' then
      let ds := rest.takeWhile fun c => (hexValue? c).isSome
      numeric (digitValue 16 ds) ds.length (rest.drop ds.length) 2
    else
      let ds := (x :: rest).takeWhile Char.isDigit
      numeric (digitValue 10 ds) ds.length ((x :: rest).drop ds.length) 1
  | cs =>
    let name := cs.takeWhile isAsciiAlphanum
    match cs.drop name.length with
    | ';' :: _ => (namedCharacters? name).map fun v => (v, name.length + 1)
    | _ => none
where
  /-- The reference by number, if there are digits and they are closed. -/
  numeric (value digits : Nat) (rest : List Char) (before : Nat) : Option (List Char × Nat) :=
    match rest with
    | ';' :: _ =>
      if digits = 0 then none
      else (characterOf? value).map fun c => ([c], before + digits + 1)
    | _ => none

/-- Replaces references and escaped punctuation, and drops carriage returns. -/
def unescape : List Char → List Char
  | [] => []
  | '\\' :: c :: rest =>
    if Text.isAsciiPunctuation c then c :: unescape rest else '\\' :: unescape (c :: rest)
  | '&' :: rest =>
    match reference? rest with
    | some (value, n) => value ++ unescape (rest.drop n)
    | none => '&' :: unescape rest
  | c :: rest => if c = '\r' then unescape rest else c :: unescape rest
termination_by cs => cs.length
decreasing_by all_goals (simp only [List.length_cons, List.length_drop]; omega)

end PaneEngine.Markup
