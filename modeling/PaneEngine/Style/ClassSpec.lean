import PaneEngine.Style.Responsive

/-!
# Class values

The classes of a tag are one text, several texts that take turns, or styles per
breakpoint in layers.

## Main definitions

* `Style.ClassSpec` — class values;
* `Style.ClassSpec.ofJson?`, `Style.ClassSpec.toJson` — as JSON;
* `Style.ClassSpec.classAt?` — the class of an occurrence.
-/

namespace PaneEngine.Style

/-- The classes of a tag. -/
inductive ClassSpec where
  | scalar (classes : String)
  | alternates (classes : List String)
  | layers (layers : List Responsive)
deriving DecidableEq

namespace ClassSpec

/-- The value of a list of texts; a list of one is that text. -/
def ofTexts : List String → ClassSpec
  | [one] => scalar one
  | several => alternates several

/-- The class value of a document: a text, a list of texts, one layer or a list of layers,
whichever fits first. -/
def ofJson? (j : Json) : Option ClassSpec :=
  ((j.string?.map scalar).or ((j.list? Json.string?).map ofTexts)).or
    (((Responsive.ofJson? j).map fun r => layers [r]).or
      ((j.list? Responsive.ofJson?).map layers))

/-- The document of a class value. -/
def toJson : ClassSpec → Json
  | scalar s => .string s
  | alternates l => .strings l
  | layers l => .array (l.map Responsive.toJson)

/-- The class of the occurrence with that number; alternates take turns. -/
def classAt? (index : Nat) : ClassSpec → Option String
  | scalar s => some s
  | alternates l => l[index % l.length]?
  | layers _ => none

end ClassSpec

end PaneEngine.Style
