import PaneEngine.Config.Basic
import PaneEngine.Text.Blank

/-!
# Checking configurations

Settings that cannot work are faults; settings that work but are hardly meant
are doubts.  Both are judged by the values that apply, so standard values never
change them.

## Main definitions

* `Config.Fault`, `Config.Doubt` — what can be wrong, with path and wording;
* `Config.faults`, `Config.doubts` — what is wrong with settings.
-/

namespace PaneEngine.Config

/-- A setting that cannot work. -/
inductive Fault where
  | emptyHomeSlug
  | invalidHomeSlug (slug : String)
  | emptyContainerId
  | unknownLevel (level : String)
deriving DecidableEq

/-- A setting that works but is hardly meant. -/
inductive Doubt where
  | emptyFallbackAlt
  | longSettle (ms : Nat)
  | delayBeyondSettle
deriving DecidableEq

/-- The names of the log levels. -/
def levels : List String := ["trace", "debug", "info", "warn", "error"]

/-- The longest time to settle, in milliseconds, that is not doubted. -/
def longestSettle : Nat := 60000

/-! ## Wording -/

/-- The wording for a path and a message. -/
def issueText (path message : String) : String :=
  "Config validation error at '" ++ path ++ "': " ++ message

namespace Fault

/-- The path of the setting. -/
def path : Fault → String
  | emptyHomeSlug | invalidHomeSlug _ => "site.homeSlug"
  | emptyContainerId => "compile.containerId"
  | unknownLevel _ => "logging.level"

/-- What is wrong. -/
def message : Fault → String
  | emptyHomeSlug => "homeSlug cannot be empty"
  | invalidHomeSlug slug => "'" ++ slug ++ "' is not a valid slug"
  | emptyContainerId => "containerId cannot be empty"
  | unknownLevel level =>
    "Unknown log level '" ++ level ++ "'. Use one of " ++ ", ".intercalate levels

/-- The whole wording. -/
def text (f : Fault) : String := issueText f.path f.message

end Fault

namespace Doubt

/-- The path of the setting. -/
def path : Doubt → String
  | emptyFallbackAlt => "compile.fallbackAlt"
  | longSettle _ => "visibility.settleMs"
  | delayBeyondSettle => "visibility.scrollDelayMs"

/-- What is doubtful. -/
def message : Doubt → String
  | emptyFallbackAlt => "Empty fallback alt leaves images without a description"
  | longSettle ms =>
    "settleMs " ++ toString ms ++ " is over a minute; revealed panes will rarely scroll"
  | delayBeyondSettle => "scrollDelayMs is longer than settleMs"

/-- The whole wording. -/
def text (d : Doubt) : String := issueText d.path d.message

end Doubt

/-! ## Checking -/

/-- Whether a level is a directive with targets of its own, which is not checked. -/
def isDirective (level : String) : Bool := level.toList.any fun c => c = '=' || c = ','

/-- Whether a level is known; capitals do not matter. -/
def isLevel (level : String) : Bool := levels.contains (level.map Char.toLower)

/-- What is wrong with the page at the root. -/
def homeSlugFaults (slug : String) : List Fault :=
  if Text.isBlankText slug then [.emptyHomeSlug]
  else if slug.toList.any fun c => c = '/' || Text.isBlank c then [.invalidHomeSlug slug]
  else []

/-- What is wrong with the log level. -/
def levelFaults (level : String) : List Fault :=
  if isDirective level || isLevel level then [] else [.unknownLevel level]

/-- What is wrong with settings. -/
def faults (c : Config) : List Fault :=
  homeSlugFaults c.homeSlug ++
    (if Text.isBlankText c.containerId then [.emptyContainerId] else []) ++
    levelFaults c.logLevel

/-- What is doubtful about settings. -/
def doubts (c : Config) : List Doubt :=
  (if Text.isBlankText c.fallbackAlt then [.emptyFallbackAlt] else []) ++
    (if longestSettle < c.settleMs then [.longSettle c.settleMs] else []) ++
    (if c.settleMs < c.scrollDelayMs && 0 < c.settleMs then [.delayBeyondSettle] else [])

/-- Whether nothing is wrong with settings. -/
def isValid (c : Config) : Bool := c.faults.isEmpty

end PaneEngine.Config
