import PaneEngine.Button
import PaneEngine.Json.Reader
import PaneEngine.Style.ClassSpec
import PaneEngine.Style.Override

/-!
# Options

The styles and behaviour that an author gives to one pane.  They are decoded
entry by entry: an entry of the wrong shape is dropped on its own, and its
neighbours still apply, so no document fails as a whole.

## Main definitions

* `Options` — the options of a pane;
* `Options.ofJson`, `Options.read?` — the options of a document and of a text;
* `Options.toJson` — options as JSON.
-/

namespace PaneEngine

/-- The options of a pane. -/
structure Options where
  /-- The overrides of each tag. -/
  overrides : Dict Style.Overrides
  /-- The default classes of each tag. -/
  classes : Dict Style.ClassSpec
  /-- The classes of the pane itself. -/
  parent : Option Style.ClassSpec
  /-- The buttons by the address of their links. -/
  buttons : Dict Button
  artpack : Option Json
  modal : Option Json

namespace Options

/-- No options. -/
def empty : Options := ⟨.empty, .empty, none, .empty, none, none⟩

/-! ## Decoding -/

/-- An entry on its own: none if it is `null` or of the wrong shape. -/
def single {α : Type} (decode : Json → Option α) (j : Json) : Option α :=
  if j.isNull then none else decode j

/-- The entries of a section that can be decoded; none if the section is not an object. -/
def entries {α : Type} (decode : Json → Option α) (j : Option Json) : Dict α :=
  match j.bind Json.dict? with
  | some d => d.filterMap fun _ j => single decode j
  | none => .empty

/-- The overrides of a tag, if its section is an object. -/
def overridesOf? (j : Json) : Option Style.Overrides :=
  match j with
  | .object _ => some (entries Style.Overrides.tuples? (j.get? "override"))
  | _ => none

/-- The options of a document in canonical form. -/
def ofJson (j : Json) : Options :=
  { overrides := entries overridesOf? (j.get? "classNamesPayload")
    classes := entries Style.ClassSpec.ofJson? ((j.get? "classNames").bind (Json.get? "all"))
    parent := (j.get? "classNamesParent").bind (single Style.ClassSpec.ofJson?)
    buttons := entries Button.ofJson? (j.get? "buttons")
    artpack := (j.get? "artpack").bind (single some)
    modal := (j.get? "modal").bind (single some) }

/-- The options of a text; none if it is no document or a part of it has no value. -/
def read? (s : String) : Option Options := ((Json.read? s).bind Json.canonical?).map ofJson

/-! ## Encoding -/

/-- The document of the overrides of a tag. -/
def overridesJson (o : Style.Overrides) : Json :=
  .object [("override", .ofDict (o.map fun _ ts => Style.Overrides.tuplesJson ts))]

/-- The document of options. -/
def toJson (o : Options) : Json :=
  .objectOf [("classNamesPayload", some (.ofDict (o.overrides.map fun _ t => overridesJson t))),
    ("classNames", some (.object [("all", .ofDict (o.classes.map fun _ c => c.toJson))])),
    ("classNamesParent", o.parent.map Style.ClassSpec.toJson),
    ("buttons", some (.ofDict (o.buttons.map fun _ b => b.toJson))),
    ("artpack", o.artpack), ("modal", o.modal)]

end Options

end PaneEngine
