import PaneEngine.Yaml.Scalar

/-!
# Tags

A tag says what kind of value a node has.  It is written in full between angle
brackets, or as a handle, for which a directive gives the beginning of the tag,
with the rest of the tag behind it.

## Main definitions

* `Yaml.TagName`, `Yaml.tagName?` — tags as written;
* `Yaml.TagHandles`, `Yaml.TagName.resolve?` — what they stand for.
-/

namespace PaneEngine.Yaml

/-- A tag as written: a handle, empty for one written in full, and what follows it. -/
structure TagName where
  handle : String
  suffix : String
deriving DecidableEq

/-! ## Parts of tags -/

/-- A character of a tag; some may not stand in a tag with a handle. -/
def isTagChar (inFull : Bool) (c : Char) : Bool :=
  isNameChar c || ";/?:@&=+$.%!~*'()".toList.contains c || (inFull && ",[]".toList.contains c)

/-- How many octets the first octet of a character announces. -/
def octetCount? (octet : Nat) : Option Nat :=
  if octet < 0x80 then some 1
  else if octet / 0x20 = 6 then some 2
  else if octet / 0x10 = 14 then some 3
  else if octet / 0x08 = 30 then some 4
  else none

/-- The octets that are escaped at the start of a text. -/
def escapedOctets? : Nat → List Char → Option (List Nat)
  | 0, _ => some []
  | n + 1, cs =>
    if cs.head? = some '%' then do
      let octet ← hexNumber? 2 (cs.drop 1)
      let more ← escapedOctets? n (cs.drop 3)
      return octet :: more
    else none

/-- The character of octets, or a substitute if they are not its shortest form. -/
def charOfOctets (octets : List Nat) : Char :=
  match String.fromUTF8? (ByteArray.mk (octets.map Nat.toUInt8).toArray) with
  | some s => s.toList.head?.getD '\ufffd'
  | none => '\ufffd'

/-- The character that is escaped in a tag, and the length of its escape. -/
def tagEscape? (cs : List Char) : Option (Char × Nat) := do
  let first ← escapedOctets? 1 cs
  let count ← first.head?.bind octetCount?
  let octets ← escapedOctets? count cs
  if (octets.drop 1).all fun o => o / 0x40 = 2 then return (charOfOctets octets, 3 * count)
  else none

/-- The tag characters at the start of a text, and their length. -/
def tagChars? (inFull : Bool) : Nat → List Char → Option (List Char × Nat)
  | 0, _ => some ([], 0)
  | fuel + 1, cs =>
    match cs with
    | [] => some ([], 0)
    | c :: rest =>
      if !isTagChar inFull c then some ([], 0)
      else do
        let (c, length) ← if c = '%' then tagEscape? (c :: rest) else some (c, 1)
        let (more, n) ← tagChars? inFull fuel ((c :: rest).drop length)
        return (c :: more, length + n)

/-- The tag characters at the start of a text, at least one. -/
def someTagChars? (inFull : Bool) (cs : List Char) : Option (List Char × Nat) :=
  (tagChars? inFull cs.length cs).filter fun r => !r.1.isEmpty

/-- The handle at the start of a text: an exclamation mark and a name, and whether another mark
closes it. -/
def tagHandle? : List Char → Option (List Char × Bool)
  | '!' :: rest =>
    let name := rest.takeWhile isNameChar
    if (rest.drop name.length).head? = some '!' then some ('!' :: name ++ ['!'], true)
    else some ('!' :: name, false)
  | _ => none

/-! ## Reading -/

/-- The tag written in full at the start of a text, and its length. -/
def fullTag? (cs : List Char) : Option (TagName × Nat) := do
  let (suffix, n) ← someTagChars? true (cs.drop 2)
  if (cs.drop (2 + n)).head? = some '>' then return (⟨"", String.ofList suffix⟩, n + 3)
  else none

/-- The tag with a handle at the start of a text, and its length. -/
def shortTag? (cs : List Char) : Option (TagName × Nat) := do
  let (handle, isClosed) ← tagHandle? cs
  let after := cs.drop handle.length
  if isClosed then
    let (suffix, n) ← someTagChars? false after
    return (⟨String.ofList handle, String.ofList suffix⟩, handle.length + n)
  else
    let (more, n) ← tagChars? false after.length after
    let suffix := handle.drop 1 ++ more
    let name := if suffix.isEmpty then ⟨"", "!"⟩ else ⟨"!", String.ofList suffix⟩
    return (name, handle.length + n)

/-- The tag at a place, and the place behind it. -/
def tagName? (inFlow : Bool) (c : Cursor) : Option (TagName × Cursor) := do
  let (name, length) ← if c.rest[1]? = some '<' then fullTag? c.rest else shortTag? c.rest
  let c := c.advance length
  if endsWord c.rest || (inFlow && c.rest.head? = some ',') then return (name, c) else none

/-! ## Meaning -/

/-- The beginnings of tags by handle. -/
abbrev TagHandles := List (String × String)

/-- The handles that need no directive. -/
def standardHandles : TagHandles := [("!", "!"), ("!!", "tag:yaml.org,2002:")]

/-- The whole tag; none if its handle is unknown. -/
def TagName.resolve? (handles : TagHandles) (t : TagName) : Option String :=
  if t.handle.isEmpty then some t.suffix
  else (handles.lookup t.handle).map (· ++ t.suffix)

end PaneEngine.Yaml
