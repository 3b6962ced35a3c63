import PaneEngine.Config.Document
import PaneEngine.Proofs.Results

/-!
# Standard values

A standard value comes into play in two places: an accessor falls back to it
where a setting is not there, and `withDefaults` writes it there.  Both choose
for every setting between what is set and the same standard value, whether the
setting or its whole section is missing, so it makes no difference to anything
that is read through the accessors whether the settings have been filled in.

## Main definitions

* `Field` — the settings, whatever section they are in;
* `Field.set?`, `Field.standard?`, `Field.applying?` — what is set, the standard value and the
  value that applies.

## Main results

* `Field.applying?_eq`, `Field.set?_withDefaults` — both places choose alike;
* `faults_congr`, `doubts_congr` — settings are judged by the values that apply;
* `prepare_eq_ok_iff` — the settings that are prepared;
* `defaults_agree` — standard values change nothing that applies.
-/

namespace PaneEngine.Config

/-! ## Settings one by one -/

/-- A setting. -/
inductive Field where
  | homeSlug
  | fallbackAlt
  | containerId
  | settleMs
  | scrollDelayMs
  | logLevel
  | logDir
  | logJson
deriving DecidableEq

namespace Field

/-- What is set. -/
def set? (c : Config) : Field → Option Yaml.Setting
  | homeSlug => (c.site.bind Site.homeSlug).map .text
  | fallbackAlt => (c.compilation.bind Compilation.fallbackAlt).map .text
  | containerId => (c.compilation.bind Compilation.containerId).map .text
  | settleMs => (c.visibility.bind Visibility.settleMs).map .number
  | scrollDelayMs => (c.visibility.bind Visibility.scrollDelayMs).map .number
  | logLevel => (c.logging.bind Logging.level).map .text
  | logDir => (c.logging.bind Logging.dir).map .text
  | logJson => (c.logging.bind Logging.json).map .truth

/-- The standard value; the directory of the log has none. -/
def standard? : Field → Option Yaml.Setting
  | homeSlug => some (.text "hello")
  | fallbackAlt => some (.text "Image description could not be found. We apologize")
  | containerId => some (.text "markdown")
  | settleMs => some (.number 5000)
  | scrollDelayMs => some (.number 50)
  | logLevel => some (.text "info")
  | logDir => none
  | logJson => some (.truth false)

/-- The value that applies, as the accessor gives it. -/
def applying? (c : Config) : Field → Option Yaml.Setting
  | homeSlug => some (.text c.homeSlug)
  | fallbackAlt => some (.text c.fallbackAlt)
  | containerId => some (.text c.containerId)
  | settleMs => some (.number c.settleMs)
  | scrollDelayMs => some (.number c.scrollDelayMs)
  | logLevel => some (.text c.logLevel)
  | logDir => c.logDir.map .text
  | logJson => some (.truth c.logJson)

end Field

section

variable {α β σ : Type} (write : α → β)

theorem some_getD_eq (o : Option α) (standard : α) :
    some (write (o.getD standard)) = (o.map write).or (some (write standard)) := by
  cases o <;> rfl

variable (get : σ → Option α) {blank : σ}

/-- A missing section is like one in which nothing is set. -/
theorem get_getD (h : get blank = none) (whole : Option σ) :
    get (whole.getD blank) = whole.bind get := by
  cases whole with
  | none => exact h
  | some s => rfl

theorem some_get_getD_eq (h : get blank = none) (whole : Option σ) (standard : α) :
    some (write ((get (whole.getD blank)).getD standard)) =
      ((whole.bind get).map write).or (some (write standard)) := by
  rw [get_getD get h]
  exact some_getD_eq write _ standard

end

namespace Field

/-- **The accessors**: what is set applies, else the standard value. -/
theorem applying?_eq (c : Config) (f : Field) : f.applying? c = (f.set? c).or f.standard? := by
  cases f with
  | logDir => exact Option.or_none.symm
  | homeSlug | fallbackAlt | containerId | settleMs | scrollDelayMs | logLevel | logJson =>
      exact some_getD_eq _ _ _

/-- **Filling in**: what is set stays, else the standard value is set. -/
theorem set?_withDefaults (c : Config) (f : Field) :
    f.set? c.withDefaults = (f.set? c).or f.standard? := by
  cases f with
  | homeSlug => exact some_get_getD_eq _ Site.homeSlug rfl _ _
  | fallbackAlt => exact some_get_getD_eq _ Compilation.fallbackAlt rfl _ _
  | containerId => exact some_get_getD_eq _ Compilation.containerId rfl _ _
  | settleMs => exact some_get_getD_eq _ Visibility.settleMs rfl _ _
  | scrollDelayMs => exact some_get_getD_eq _ Visibility.scrollDelayMs rfl _ _
  | logLevel => exact some_get_getD_eq _ Logging.level rfl _ _
  | logJson => exact some_get_getD_eq _ Logging.json rfl _ _
  | logDir =>
      have hDir : (c.logging.getD ⟨none, none, none⟩).dir = c.logging.bind Logging.dir :=
        get_getD Logging.dir rfl c.logging
      calc logDir.set? c.withDefaults
          = ((c.logging.getD ⟨none, none, none⟩).dir).map .text := rfl
        _ = logDir.set? c := by rw [hDir, set?]
        _ = (logDir.set? c).or logDir.standard? := Option.or_none.symm

/-- Filling in the standard values changes no value that applies. -/
theorem applying?_withDefaults (c : Config) (f : Field) :
    f.applying? c.withDefaults = f.applying? c := by
  rw [applying?_eq, applying?_eq, set?_withDefaults, Option.or_assoc, Option.or_self]

end Field

/-- Nothing is left to fill in. -/
theorem withDefaults_withDefaults (c : Config) : c.withDefaults.withDefaults = c.withDefaults := rfl

/-! ## Checking -/

section

variable {c d : Config} (h : ∀ f : Field, f.applying? c = f.applying? d)

include h

/-- Settings are judged by the values that apply. -/
theorem faults_congr : c.faults = d.faults := by
  have hHome : c.homeSlug = d.homeSlug := by simpa [Field.applying?] using h .homeSlug
  have hContainer : c.containerId = d.containerId := by
    simpa [Field.applying?] using h .containerId
  have hLevel : c.logLevel = d.logLevel := by simpa [Field.applying?] using h .logLevel
  rw [faults, faults, hHome, hContainer, hLevel]

theorem doubts_congr : c.doubts = d.doubts := by
  have hAlt : c.fallbackAlt = d.fallbackAlt := by simpa [Field.applying?] using h .fallbackAlt
  have hSettle : c.settleMs = d.settleMs := by simpa [Field.applying?] using h .settleMs
  have hDelay : c.scrollDelayMs = d.scrollDelayMs := by
    simpa [Field.applying?] using h .scrollDelayMs
  rw [doubts, doubts, hAlt, hSettle, hDelay]

end

/-! ## Preparing -/

/-- The settings that are prepared: those of the document with its references replaced, the standard
values filled in, if nothing is wrong with them. -/
theorem prepare_eq_ok_iff {env : Environment} {j : Json} {prepared : Config} :
    prepare env j = .ok prepared ↔
      ∃ j' c, substitute env j = .ok j' ∧ ofJson? j' = some c ∧ c.withDefaults.faults = [] ∧
        c.withDefaults = prepared := by
  rw [prepare, bind_eq_ok_iff]
  constructor
  · rintro ⟨j', hMapped, h⟩
    refine ⟨j', ?_⟩
    cases hDecode : ofJson? j' with
    | none =>
        rw [hDecode] at h
        cases h
    | some c =>
        simp only [hDecode] at h
        cases hFaults : c.withDefaults.faults with
        | nil =>
            simp only [hFaults] at h
            cases h
            exact ⟨c, mapError_eq_ok_iff.1 hMapped, rfl, hFaults, rfl⟩
        | cons f fs =>
            simp only [hFaults] at h
            cases h
  · rintro ⟨j', c, hReplaced, hDecode, hFaults, rfl⟩
    refine ⟨j', mapError_eq_ok_iff.2 hReplaced, ?_⟩
    simp only [hDecode, hFaults]
    rfl

/-- **Standard values change nothing that applies.**  Filling them in keeps everything that is set,
is done once and for all, and changes no value that applies, so that the same is wrong with the
settings and the same is doubtful about them as before, in the same order.  Prepared settings have
nothing left to fill in and nothing wrong with them, and what applies is what applies by the
document with its references replaced. -/
theorem defaults_agree :
    (∀ c : Config,
      (∀ (f : Field) (v : Yaml.Setting), f.set? c = some v → f.set? c.withDefaults = some v) ∧
      c.withDefaults.withDefaults = c.withDefaults ∧
      (∀ f : Field, f.applying? c.withDefaults = f.applying? c) ∧
      c.withDefaults.faults = c.faults ∧ c.withDefaults.doubts = c.doubts) ∧
    ∀ (env : Environment) (j : Json) (prepared : Config), prepare env j = .ok prepared →
      prepared.withDefaults = prepared ∧ prepared.faults = [] ∧
      ∃ j' c, substitute env j = .ok j' ∧ ofJson? j' = some c ∧
        ∀ f : Field, f.applying? prepared = f.applying? c := by
  constructor
  · intro c
    have hApplying : ∀ f : Field, f.applying? c.withDefaults = f.applying? c :=
      Field.applying?_withDefaults c
    refine ⟨?_, withDefaults_withDefaults c, hApplying, faults_congr hApplying,
      doubts_congr hApplying⟩
    intro f v hSet
    rw [Field.set?_withDefaults, hSet, Option.some_or]
  · intro env j prepared hPrepared
    obtain ⟨j', c, hReplaced, hDecode, hFaults, rfl⟩ := prepare_eq_ok_iff.1 hPrepared
    exact ⟨withDefaults_withDefaults c, hFaults, j', c, hReplaced, hDecode,
      Field.applying?_withDefaults c⟩

/-- A document with a reference, a section in part and a setting that has no standard value. -/
def quietSite : Json :=
  .object [("logging", .object [("dir", .string "logs"), ("level", .null)]),
    ("site", .object [("homeSlug", .string "${HOME}")]),
    ("visibility", .object [("settleMs", .int 0)])]

theorem defaults_agree_quietSite :
    let env : Environment := fun name => if name = "HOME" then some "welcome" else none
    let decoded : Config :=
      { site := some ⟨some "welcome"⟩
        compilation := none
        visibility := some ⟨some 0, none⟩
        logging := some ⟨none, some "logs", none⟩ }
    let prepared : Config :=
      { site := some ⟨some "welcome"⟩
        compilation := some ⟨some Pane.defaultFallbackAlt, some "markdown"⟩
        visibility := some ⟨some 0, some 50⟩
        logging := some ⟨some "info", some "logs", some false⟩ }
    (Field.settleMs.set? decoded = some (.number 0) ∧
      Field.settleMs.set? decoded.withDefaults = some (.number 0)) ∧
    prepare env quietSite = .ok prepared ∧ prepared.withDefaults = prepared ∧
      prepared.faults = [] ∧
      ∃ j' c, substitute env quietSite = .ok j' ∧ ofJson? j' = some c ∧
        ∀ f : Field, f.applying? prepared = f.applying? c := by
  intro env decoded prepared
  have hPrepared : prepare env quietSite = .ok prepared := by with_unfolding_all rfl
  exact ⟨⟨rfl, (defaults_agree.1 decoded).1 .settleMs (.number 0) rfl⟩, hPrepared,
    defaults_agree.2 env quietSite prepared hPrepared⟩

end PaneEngine.Config
