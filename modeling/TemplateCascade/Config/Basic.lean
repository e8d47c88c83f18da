import TemplateCascade.Render.Locale

namespace TemplateCascade

/-!
# Configuration

The settings of an engine.  All of them have defaults, and an engine is not opened with settings that
cannot work.
-/

/-- What becomes of an artifact that cannot be built again. -/
inductive FailurePolicy where
  /-- It stays in use with the code of the last build, marked as stale. -/
  | keepLastGood
  /-- It is taken out of use. -/
  | invalidate
deriving DecidableEq, Repr

/-- The settings of an engine. -/
structure Config where
  failurePolicy : FailurePolicy := .keepLastGood
  /-- Whether many artifacts may be built at the same time. -/
  parallel : Bool := true
  /-- The number of artifacts that counts as many. -/
  parallelThreshold : Nat := 32
  /-- Whether the source of a template is compiled for validation before it is stored. -/
  validateOnSave : Bool := true
  locale : Render.Locale := {}
deriving DecidableEq, Repr

/-- The setting that is at fault, and what is wrong with it. -/
inductive ConfigFault where
  | parallelThreshold
  | decimalPoint
  | locale (error : Render.RenderError)
deriving DecidableEq, Repr

/-- Why there is no configuration. -/
inductive ConfigError where
  /-- The source is not a document of settings, or a setting is of the wrong kind. -/
  | malformed
  | invalid (fault : ConfigFault)
deriving DecidableEq, Repr

def ConfigFault.message : ConfigFault → String
  | .parallelThreshold => "invalid value for 'parallel_threshold': must be at least 1"
  | .decimalPoint => "invalid value for 'locale.decimal_point': must not be empty"
  | .locale error => "invalid value for 'locale': " ++ error.message

def ConfigError.message : ConfigError → String
  | .malformed => "invalid configuration"
  | .invalid fault => fault.message

namespace Config

instance : Inhabited Config := ⟨{}⟩

/-- Check that the settings can work. -/
def validate (config : Config) : Except ConfigError Unit :=
  if config.parallelThreshold = 0 then .error (.invalid .parallelThreshold)
  else if config.locale.decimalPoint.isEmpty then .error (.invalid .decimalPoint)
  else config.locale.validate.mapError fun error => .invalid (.locale error)

/-- Whether so many artifacts are built at the same time.  What comes of it is the same either way. -/
def runsParallel (config : Config) (targets : Nat) : Bool :=
  config.parallel && config.parallelThreshold ≤ targets

end Config

end TemplateCascade
