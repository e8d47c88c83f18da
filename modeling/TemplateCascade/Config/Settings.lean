import TemplateCascade.Config.Basic
import TemplateCascade.Toml.Document

namespace TemplateCascade

/-!
# Settings in a document

Every setting has a key of its own in the document, those of the locale in a table of their own.
Settings that are left out keep their defaults, and keys that are no settings are passed over.  The
settings of the locale may also be given as a list in their order, and a choice as a table with
nothing under the name of the choice.
-/

namespace Config

open Toml (Entries Entry)

/-- The text of an entry. -/
def textOf? : Entry → Option String
  | .text content => some content
  | _ => none

/-- The truth value of an entry. -/
def truthOf? : Entry → Option Bool
  | .truth value => some value
  | _ => none

/-- The natural number of an entry. -/
def naturalOf? : Entry → Option Nat
  | .integer (.ofNat number) => some number
  | _ => none

/-- The policy of a name. -/
def policyNamed? : String → Option FailurePolicy
  | "keep_last_good" => some .keepLastGood
  | "invalidate" => some .invalidate
  | _ => none

/-- Whether an entry is a list or table with nothing in it. -/
def isVacant : Entry → Bool
  | .list items => items.isEmpty
  | .table _ entries => entries.isEmpty
  | _ => false

/-- The policy an entry chooses. -/
def policyOf? : Entry → Option FailurePolicy
  | .text name => policyNamed? name
  | .table _ [(name, content)] => if isVacant content then policyNamed? name else none
  | _ => none

/-- Set one setting of a locale. -/
def setLocale? (locale : Render.Locale) (key : String) (entry : Entry) : Option Render.Locale :=
  match key with
  | "thousands_separator" => (textOf? entry).map fun text => { locale with thousandsSeparator := text }
  | "decimal_point" => (textOf? entry).map fun text => { locale with decimalPoint := text }
  | "date_format" => (textOf? entry).map fun text => { locale with dateFormat := text }
  | "time_format" => (textOf? entry).map fun text => { locale with timeFormat := text }
  | "datetime_format" => (textOf? entry).map fun text => { locale with dateTimeFormat := text }
  | _ => some locale

/-- The settings of a locale in their order. -/
def localeKeys : List String :=
  ["thousands_separator", "decimal_point", "date_format", "time_format", "datetime_format"]

/-- The locale that an entry gives.  A moment gives none of the settings. -/
def localeOf? : Entry → Option Render.Locale
  | .table _ entries =>
      entries.foldlM (fun locale (key, entry) => setLocale? locale key entry) {}
  | .list items | .tables items =>
      (localeKeys.zip items).foldlM (fun locale (key, entry) => setLocale? locale key entry) {}
  | .moment => some {}
  | _ => none

/-- Set one setting. -/
def set? (config : Config) (key : String) (entry : Entry) : Option Config :=
  match key with
  | "failure_policy" => (policyOf? entry).map fun policy => { config with failurePolicy := policy }
  | "parallel" => (truthOf? entry).map fun truth => { config with parallel := truth }
  | "parallel_threshold" =>
      (naturalOf? entry).map fun number => { config with parallelThreshold := number }
  | "validate_on_save" => (truthOf? entry).map fun truth => { config with validateOnSave := truth }
  | "locale" => (localeOf? entry).map fun locale => { config with locale := locale }
  | _ => some config

/-- The settings of a table. -/
def ofEntries? (entries : Entries) : Option Config :=
  entries.foldlM (fun config (key, entry) => config.set? key entry) {}

/-- The configuration of a document. -/
def ofDocument (source : String) : Except ConfigError Config := do
  match (Toml.parse? source).bind ofEntries? with
  | none => .error .malformed
  | some config =>
      config.validate
      pure config

end Config

end TemplateCascade
