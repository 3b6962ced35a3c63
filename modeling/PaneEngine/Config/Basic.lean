import PaneEngine.Json.Decode
import PaneEngine.Pane.File
import PaneEngine.Reveal.Driver

/-!
# Configuration

All settings of a site are optional; each has a value of its own where it is
not set.  The accessors give the value that applies, and `withDefaults` fills the
standard values in, section by section.

## Main definitions

* `Config` — the settings;
* `Config.homeSlug`, `Config.settleMs`, … — the values that apply;
* `Config.withDefaults` — the settings with all standard values filled in;
* `Config.ofJson?`, `Config.toJson` — settings as JSON.
-/

namespace PaneEngine

/-- Settings of the site as a whole. -/
structure Config.Site where
  homeSlug : Option String
deriving DecidableEq

/-- Settings of the compilation of content. -/
structure Config.Compilation where
  fallbackAlt : Option String
  containerId : Option String
deriving DecidableEq

/-- Settings of the visibility of panes, in milliseconds. -/
structure Config.Visibility where
  settleMs : Option Nat
  scrollDelayMs : Option Nat
deriving DecidableEq

/-- Settings of the log. -/
structure Config.Logging where
  level : Option String
  dir : Option String
  json : Option Bool
deriving DecidableEq

/-- The settings of a site. -/
structure Config where
  site : Option Config.Site
  compilation : Option Config.Compilation
  visibility : Option Config.Visibility
  logging : Option Config.Logging
deriving DecidableEq

namespace Config

/-- No settings. -/
def empty : Config := ⟨none, none, none, none⟩

/-! ## Standard values -/

/-- The page at the root. -/
def standardHomeSlug : String := "hello"

/-- The parent of the blocks at the top. -/
def standardContainerId : String := "markdown"

/-- The level of the log. -/
def standardLevel : String := "info"

/-! ## The values that apply -/

/-- The page at the root. -/
def homeSlug (c : Config) : String := (c.site.bind Site.homeSlug).getD standardHomeSlug

/-- The description of known images that have none. -/
def fallbackAlt (c : Config) : String :=
  (c.compilation.bind Compilation.fallbackAlt).getD Pane.defaultFallbackAlt

/-- The parent of the blocks at the top. -/
def containerId (c : Config) : String :=
  (c.compilation.bind Compilation.containerId).getD standardContainerId

/-- How long after the loading of a page nothing is scrolled. -/
def settleMs (c : Config) : Nat :=
  (c.visibility.bind Visibility.settleMs).getD Reveal.Timing.standard.settle

/-- How long after the appearance of a pane it is scrolled to. -/
def scrollDelayMs (c : Config) : Nat :=
  (c.visibility.bind Visibility.scrollDelayMs).getD Reveal.Timing.standard.scrollDelay

/-- The level of the log. -/
def logLevel (c : Config) : String := (c.logging.bind Logging.level).getD standardLevel

/-- The directory of the log files. -/
def logDir (c : Config) : Option String := c.logging.bind Logging.dir

/-- Whether the log is written as JSON. -/
def logJson (c : Config) : Bool := (c.logging.bind Logging.json).getD false

/-- The delays that apply. -/
def timing (c : Config) : Reveal.Timing := ⟨c.settleMs, c.scrollDelayMs⟩

/-! ## Filling in -/

/-- The settings of the site, the page at the root filled in. -/
def Site.withDefaults (s : Site) : Site := ⟨some (s.homeSlug.getD standardHomeSlug)⟩

/-- The settings of the compilation with all standard values filled in. -/
def Compilation.withDefaults (s : Compilation) : Compilation :=
  ⟨some (s.fallbackAlt.getD Pane.defaultFallbackAlt),
    some (s.containerId.getD standardContainerId)⟩

/-- The settings of the visibility with all standard values filled in. -/
def Visibility.withDefaults (s : Visibility) : Visibility :=
  ⟨some (s.settleMs.getD Reveal.Timing.standard.settle),
    some (s.scrollDelayMs.getD Reveal.Timing.standard.scrollDelay)⟩

/-- The settings of the log with standard values filled in; the directory has none. -/
def Logging.withDefaults (s : Logging) : Logging :=
  { s with level := some (s.level.getD standardLevel), json := some (s.json.getD false) }

/-- The settings with every section there and all standard values filled in. -/
def withDefaults (c : Config) : Config :=
  { site := some (c.site.getD ⟨none⟩).withDefaults
    compilation := some (c.compilation.getD ⟨none, none⟩).withDefaults
    visibility := some (c.visibility.getD ⟨none, none⟩).withDefaults
    logging := some (c.logging.getD ⟨none, none, none⟩).withDefaults }

/-! ## JSON -/

/-- The settings of the site of a document. -/
def Site.ofJson? (j : Json) : Option Site := do
  let fields ← j.record? ["homeSlug"]
  return ⟨← Json.optional fields "homeSlug" Json.string?⟩

/-- The settings of the compilation of a document. -/
def Compilation.ofJson? (j : Json) : Option Compilation := do
  let fields ← j.record? ["fallbackAlt", "containerId"]
  return ⟨← Json.optional fields "fallbackAlt" Json.string?,
    ← Json.optional fields "containerId" Json.string?⟩

/-- The settings of the visibility of a document. -/
def Visibility.ofJson? (j : Json) : Option Visibility := do
  let fields ← j.record? ["settleMs", "scrollDelayMs"]
  return ⟨← Json.optional fields "settleMs" (Json.natBelow? 64),
    ← Json.optional fields "scrollDelayMs" (Json.natBelow? 64)⟩

/-- The settings of the log of a document. -/
def Logging.ofJson? (j : Json) : Option Logging := do
  let fields ← j.record? ["level", "dir", "json"]
  return ⟨← Json.optional fields "level" Json.string?, ← Json.optional fields "dir" Json.string?,
    ← Json.optional fields "json" Json.bool?⟩

/-- The settings of a document. -/
def ofJson? (j : Json) : Option Config := do
  let fields ← j.record? ["site", "compile", "visibility", "logging"]
  return {
    site := ← Json.optional fields "site" Site.ofJson?
    compilation := ← Json.optional fields "compile" Compilation.ofJson?
    visibility := ← Json.optional fields "visibility" Visibility.ofJson?
    logging := ← Json.optional fields "logging" Logging.ofJson? }

/-- The document of the settings of the site. -/
def Site.toJson (s : Site) : Json := .objectOf [("homeSlug", s.homeSlug.map .string)]

/-- The document of the settings of the compilation. -/
def Compilation.toJson (s : Compilation) : Json :=
  .objectOf [("fallbackAlt", s.fallbackAlt.map .string), ("containerId", s.containerId.map .string)]

/-- The document of the settings of the visibility. -/
def Visibility.toJson (s : Visibility) : Json :=
  .objectOf [("settleMs", s.settleMs.map Json.nat), ("scrollDelayMs", s.scrollDelayMs.map Json.nat)]

/-- The document of the settings of the log. -/
def Logging.toJson (s : Logging) : Json :=
  .objectOf [("level", s.level.map .string), ("dir", s.dir.map .string), ("json", s.json.map .bool)]

/-- The document of settings. -/
def toJson (c : Config) : Json :=
  .objectOf [("site", c.site.map Site.toJson), ("compile", c.compilation.map Compilation.toJson),
    ("visibility", c.visibility.map Visibility.toJson), ("logging", c.logging.map Logging.toJson)]

end Config

end PaneEngine
