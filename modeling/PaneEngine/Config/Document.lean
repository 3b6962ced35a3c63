import PaneEngine.Config.Prepare
import PaneEngine.Yaml.Printer

/-!
# Configuration files

## Main definitions

* `Config.document?` — the document of a configuration file;
* `Config.print` — the settings as a configuration file.
-/

namespace PaneEngine.Config

/-- The document of a configuration without settings. -/
def emptyDocument : Json := .object []

/-- The document of a configuration file; one without content has no settings. -/
def document? (text : String) : Option Json :=
  (Yaml.read? text).map fun j => if j.isNull then emptyDocument else j

/-- The settings that are set, by key. -/
def settings (all : List (String × Option Yaml.Setting)) : Yaml.Section :=
  all.filterMap fun (key, v) => v.map fun v => (key, v)

/-- The settings by section. -/
def sections (c : Config) : List (String × Yaml.Section) :=
  [("site", c.site.map fun s => settings [("homeSlug", s.homeSlug.map .text)]),
    ("compile", c.compilation.map fun s =>
      settings
        [("fallbackAlt", s.fallbackAlt.map .text), ("containerId", s.containerId.map .text)]),
    ("visibility", c.visibility.map fun s =>
      settings [("settleMs", s.settleMs.map .number),
        ("scrollDelayMs", s.scrollDelayMs.map .number)]),
    ("logging", c.logging.map fun s =>
      settings [("level", s.level.map .text), ("dir", s.dir.map .text),
        ("json", s.json.map .truth)])].filterMap fun (key, settings?) =>
    settings?.map fun s => (key, s)

/-- The settings as a configuration file. -/
def print (c : Config) : String := Yaml.print c.sections

end PaneEngine.Config
