import ZincBind.Emit.Options
import ZincBind.Settings.CratePath
import ZincBind.Settings.LogLevel
import ZincBind.Text.Blank

/-!
# ZincBind.Settings.Basic

The settings of a run and the rules they have to meet. Of several faults the first in field order
is reported.
-/

namespace ZincBind

/-- The settings of a run. -/
structure Settings where
  /-- What the generated code takes from the user. -/
  options : Options
  /-- The name of the lowest log level that appears. -/
  logLevel : Bytes
deriving DecidableEq, Repr

/-- A setting that breaks its rule. -/
inductive SettingFault where
  /-- The crate is no module path. -/
  | crate (value : Bytes)
  /-- The derive attribute does not stand between `#[` and `]`. -/
  | derive (value : Bytes)
  /-- The model parameter is blank. -/
  | modelParam
  /-- The log level has no such name. -/
  | logLevel (value : Bytes)
deriving DecidableEq, Repr

/-- The fault in words. -/
def SettingFault.message : SettingFault → Bytes
  | .crate value => utf8 "crate " ++ value.quoted ++ utf8 " is not a Rust module path"
  | .derive value => utf8 "derive " ++ value.quoted ++ utf8 " is not an attribute"
  | .modelParam => utf8 "model_param must not be empty"
  | .logLevel value => LogLevel.unrecognized value

namespace Settings

/-- The settings used when nothing is said. -/
def standard : Settings where
  options := Options.standard
  logLevel := utf8 "info"

/-- The log level, if the name is one. -/
def level? (s : Settings) : Option LogLevel := LogLevel.parse? s.logLevel

/-- The threshold for log entries: `verbose` lowers it to `debug`, but not before the name has
been read. -/
def threshold? (s : Settings) (verbose : Bool) : Option LogLevel :=
  s.level?.map fun l => if verbose then .debug else l

/-- Whether a text is an attribute. -/
def isAttribute (bs : Bytes) : Bool := (utf8 "#[").isPrefixOf bs && (utf8 "]").isSuffixOf bs

/-- Check every field, names of log levels being read in a given way. -/
def validateBy (s : Settings) (readLevel : Bytes → Option LogLevel) : Except SettingFault Unit :=
  if !CratePath.isValid s.options.crate then .error (.crate s.options.crate)
  else if !isAttribute s.options.derive then .error (.derive s.options.derive)
  else if s.options.modelParam.isBlank then .error .modelParam
  else if (readLevel s.logLevel).isNone then .error (.logLevel s.logLevel)
  else .ok ()

/-- Check every field. -/
def validate (s : Settings) : Except SettingFault Unit := s.validateBy LogLevel.parse?

end Settings

end ZincBind
