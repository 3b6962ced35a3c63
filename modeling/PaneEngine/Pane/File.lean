import PaneEngine.Json.Decode

/-!
# Files

## Main definitions

* `Pane.File` — an uploaded image that content refers to by its file name;
* `Pane.defaultFallbackAlt` — the description of an image that has none.
-/

namespace PaneEngine.Pane

/-- An uploaded image. -/
structure File where
  id : String
  filename : String
  src : String
  altDescription : Option String
  srcSet : Option String
deriving DecidableEq

/-- The file of a document. -/
def File.ofJson? (j : Json) : Option File := do
  let fields ← j.record? ["id", "filename", "src", "altDescription", "srcSet"]
  return {
    id := ← Json.required fields "id" Json.string?
    filename := ← Json.required fields "filename" Json.string?
    src := ← Json.required fields "src" Json.string?
    altDescription := ← Json.optional fields "altDescription" Json.string?
    srcSet := ← Json.optional fields "srcSet" Json.string? }

/-- The description of a known image that has neither one in the content nor one of its own. -/
def defaultFallbackAlt : String := "Image description could not be found. We apologize"

end PaneEngine.Pane
