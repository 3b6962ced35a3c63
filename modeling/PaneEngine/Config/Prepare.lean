import PaneEngine.Config.Check
import PaneEngine.Config.Substitution

/-!
# Preparing configurations

A configuration is prepared for use by replacing the references in it, filling
in the standard values, and refusing it if anything is wrong.

## Main definitions

* `Config.PrepareError` — why a configuration cannot be used;
* `Config.prepare` — the configuration of a document.
-/

namespace PaneEngine.Config

/-- Why a configuration cannot be used. -/
inductive PrepareError where
  | missing (reference : MissingVariable)
  /-- A value has the wrong type. -/
  | shape
  | fault (f : Fault)
deriving DecidableEq

/-- The configuration of a document in canonical form, ready for use. -/
def prepare (env : Environment) (j : Json) : Except PrepareError Config := do
  let j ← (substitute env j).mapError .missing
  match ofJson? j with
  | none => throw .shape
  | some c =>
    let c := c.withDefaults
    match c.faults with
    | [] => return c
    | f :: _ => throw (.fault f)

end PaneEngine.Config
