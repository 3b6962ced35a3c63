/-!
# Control characters and beginnings

## Main definitions

* `Text.isControl` — the Unicode property Cc;
* `Text.beginsWith` — whether a text begins with another.
-/

namespace PaneEngine.Text

/-- Whether `c` has the property Cc: U+0000 to U+001F and U+007F to U+009F. -/
def isControl (c : Char) : Bool :=
  c.toNat < 0x20 || (0x7F ≤ c.toNat && c.toNat < 0xA0)

/-- Whether `s` begins with `start`. -/
def beginsWith (s start : String) : Bool := start.toList.isPrefixOf s.toList

end PaneEngine.Text
