import ZincBind.Text.Casing
import ZincBind.Text.Quoted

/-!
# ZincBind.Settings.LogLevel

Log levels from the chattiest to the gravest, and the names they go by.
-/

namespace ZincBind

/-- How grave a log entry is. -/
inductive LogLevel where
  | debug
  | info
  | warn
  | error
  | dpanic
  | panic
  | fatal
deriving DecidableEq, Repr

namespace LogLevel

/-- All levels, lowest first. -/
def all : List LogLevel := [.debug, .info, .warn, .error, .dpanic, .panic, .fatal]

/-- The position of a level, with `info` at zero. -/
def rank : LogLevel → Int
  | .debug => -1
  | .info => 0
  | .warn => 1
  | .error => 2
  | .dpanic => 3
  | .panic => 4
  | .fatal => 5

/-- The name of a level. -/
def name : LogLevel → String
  | .debug => "debug"
  | .info => "info"
  | .warn => "warn"
  | .error => "error"
  | .dpanic => "dpanic"
  | .panic => "panic"
  | .fatal => "fatal"

/-- Whether entries of level `l` appear when the threshold is `threshold`. -/
def enables (threshold l : LogLevel) : Bool := threshold.rank ≤ l.rank

/-- The level a text names exactly. No text at all is `info`, and `warning` is `warn`. -/
def ofName? (text : Bytes) : Option LogLevel :=
  if text = [] then some .info
  else if text = utf8 "warning" then some .warn
  else all.find? fun l => utf8 l.name == text

/-- The level a text names as written or, failing that, in lower case. -/
def parse? (text : Bytes) : Option LogLevel := ofName? text <|> ofName? text.toLower

/-- What is said of a text that names no level. -/
def unrecognized (text : Bytes) : Bytes := utf8 "unrecognized level: " ++ text.quoted

end LogLevel

end ZincBind
