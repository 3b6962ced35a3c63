import PaneEngine.Json.Decode

/-!
# Responsive styles

Styles are given per breakpoint of the viewport; what a breakpoint does not set
it takes over from the next smaller one.

## Main definitions

* `Style.Breakpoint` — mobile, tablet and desktop;
* `Style.Responsive` — properties per breakpoint;
* `Style.Responsive.toJson`, `Style.Responsive.ofJson?` — as JSON.
-/

namespace PaneEngine.Style

/-- A width of the viewport from which styles apply. -/
inductive Breakpoint where
  | mobile
  | tablet
  | desktop
deriving DecidableEq

namespace Breakpoint

/-- All breakpoints, the smallest first. -/
def all : List Breakpoint := [mobile, tablet, desktop]

/-- The breakpoint of a position in a tuple; there is none past desktop. -/
def ofPosition? (n : Nat) : Option Breakpoint := all[n]?

/-- The name of a breakpoint. -/
def name : Breakpoint → String
  | mobile => "mobile"
  | tablet => "tablet"
  | desktop => "desktop"

end Breakpoint

/-- Properties with their values, per breakpoint. -/
structure Responsive where
  mobile : Option (Dict String)
  tablet : Option (Dict String)
  desktop : Option (Dict String)
deriving DecidableEq

namespace Responsive

/-- No styles. -/
def empty : Responsive := ⟨none, none, none⟩

/-- The properties of a breakpoint. -/
def get (r : Responsive) : Breakpoint → Option (Dict String)
  | .mobile => r.mobile
  | .tablet => r.tablet
  | .desktop => r.desktop

/-- The styles with other properties at a breakpoint. -/
def set (r : Responsive) (b : Breakpoint) (properties : Option (Dict String)) : Responsive :=
  match b with
  | .mobile => { r with mobile := properties }
  | .tablet => { r with tablet := properties }
  | .desktop => { r with desktop := properties }

/-- The styles with a property set at a breakpoint. -/
def insert (r : Responsive) (b : Breakpoint) (property value : String) : Responsive :=
  r.set b (some (((r.get b).getD .empty).insert property value))

/-- The value of a property at a breakpoint. -/
def value? (r : Responsive) (b : Breakpoint) (property : String) : Option String :=
  (r.get b).bind fun properties => properties.get? property

/-- Whether no breakpoint has a property. -/
def isEmpty (r : Responsive) : Bool :=
  Breakpoint.all.all fun b => (r.get b).all Dict.isEmpty

/-- The document of properties. -/
def propertiesJson (d : Dict String) : Json := .ofDict (d.map fun _ v => .string v)

/-- The document of styles. -/
def toJson (r : Responsive) : Json :=
  .objectOf (Breakpoint.all.map fun b => (b.name, (r.get b).map propertiesJson))

/-- The styles of a document. -/
def ofJson? (j : Json) : Option Responsive := do
  let fields ← j.record? (Breakpoint.all.map Breakpoint.name)
  let get (b : Breakpoint) : Option (Option (Dict String)) :=
    Json.optional fields b.name (Json.dictOf? Json.string?)
  return ⟨← get .mobile, ← get .tablet, ← get .desktop⟩

end Responsive

end PaneEngine.Style
