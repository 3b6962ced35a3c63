import PaneEngine.Options

/-!
# Styles of an occurrence

The occurrences of certain tags are counted, and each takes its default class
and its overrides by its number.

## Main definitions

* `Style.isTracked` — the tags that are counted;
* `Style.resolve` — the styles of an occurrence;
* `Style.parentClasses` — the classes of the pane itself.
-/

namespace PaneEngine.Style

/-- The tags whose occurrences are counted. -/
def trackedTags : List String := ["p", "h2", "h3", "h4", "code", "img", "ul", "ol", "li"]

/-- Whether the occurrences of a tag are counted. -/
def isTracked (tag : String) : Bool := trackedTags.contains tag

/-- The styles of one occurrence. -/
structure Resolved where
  css : Option String
  overrides : Option Responsive
deriving DecidableEq

namespace Resolved

/-- No styles. -/
def none : Resolved := ⟨.none, .none⟩

/-- The document of styles. -/
def toJson (r : Resolved) : Json :=
  .objectOf [("elementCss", r.css.map .string),
    ("overrideClasses", r.overrides.map Responsive.toJson)]

end Resolved

/-- The styles of the occurrence of a tag with that number. -/
def resolve (o : Options) (tag : String) (index : Nat) : Resolved :=
  { css := (o.classes.get? tag).bind (ClassSpec.classAt? index)
    overrides := ((o.overrides.get? tag).map fun t => t.stylesAt index).filter fun r => !r.isEmpty }

/-- The classes of the pane itself. -/
structure ParentClasses where
  /-- Classes as texts, the outermost first. -/
  css : List String
  layers : List Responsive
deriving DecidableEq

/-- The document of the classes of a pane. -/
def ParentClasses.toJson (p : ParentClasses) : Json :=
  .object [("css", .strings p.css), ("layers", .array (p.layers.map Responsive.toJson))]

/-- The classes of the pane itself. -/
def parentClasses (o : Options) : ParentClasses :=
  match o.parent with
  | none => ⟨[], []⟩
  | some (.scalar s) => ⟨[s], []⟩
  | some (.alternates l) => ⟨l, []⟩
  | some (.layers l) => ⟨[], l⟩

end PaneEngine.Style
