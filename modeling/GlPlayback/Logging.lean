import GlPlayback.Json.Basic
import GlPlayback.Text.AsciiCase
import GlPlayback.Viewer.Config

/-!
What is logged, and how. Presets fit the usual occasions, and a filter or another format may be
put in on top.
-/
namespace GlPlayback

inductive LogLevel where
  | error
  | warn
  | info
  | debug
  | trace
  deriving DecidableEq, Repr

namespace LogLevel

def all : List LogLevel :=
  [error, warn, info, debug, trace]

def name : LogLevel → String
  | error => "ERROR"
  | warn => "WARN"
  | info => "INFO"
  | debug => "DEBUG"
  | trace => "TRACE"

def ofName? (name : String) : Option LogLevel :=
  all.find? fun level => Text.sameLetters level.name name

def rank (level : LogLevel) : Nat :=
  all.idxOf level

end LogLevel

inductive LogFormat where
  | pretty
  | compact
  | json
  deriving DecidableEq, Repr

/-- The format of a name, whose letters may be large or small. -/
def LogFormat.ofName (name : String) : Except ConfigError LogFormat :=
  let name := Text.lowerAscii name
  if name = "pretty" then .ok pretty
  else if name = "compact" then .ok compact
  else if name = "json" then .ok json
  else .error (.unknownLogFormat name)

structure LogConfig where
  level : LogLevel := .info
  format : LogFormat := .pretty
  showsLocation : Bool := false
  showsThread : Bool := false
  showsSpans : Bool := false
  /-- Levels by module, in place of the one level. -/
  filter : Option String := none
  deriving DecidableEq, Repr

namespace LogConfig

def debug : LogConfig :=
  { level := .debug, showsLocation := true, showsSpans := true }

def trace : LogConfig :=
  { level := .trace, showsLocation := true, showsThread := true, showsSpans := true }

def quiet : LogConfig :=
  { level := .warn, format := .compact }

def withFilter (c : LogConfig) (filter : String) : LogConfig :=
  { c with filter := some filter }

def withFormat (c : LogConfig) (format : LogFormat) : LogConfig :=
  { c with format }

/-- The line that is logged for a message, unless its level is not asked for. -/
def line? (c : LogConfig) (level : LogLevel) (message : String) : Option String :=
  if c.level.rank < level.rank then none
  else match c.format with
    | .pretty | .compact => some (level.name ++ " " ++ message)
    | .json => some (Json.object [("level", .string level.name),
        ("message", .string message)]).render

end LogConfig

end GlPlayback
