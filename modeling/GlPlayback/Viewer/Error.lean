import GlPlayback.Command.Error
import GlPlayback.Viewer.Config

/-!
Why a viewer turns a request down. Only trouble with the registry is fatal: commands would hit
the wrong resources from then on.
-/
namespace GlPlayback

inductive ViewerError where
  | registration (cause : RegistryError)
  /-- An earlier registration was out of order. -/
  | outOfSync
  /-- A batch with a payload reference that leads nowhere. -/
  | rejected (cause : CommandError)
  | config (cause : ConfigError)
  /-- A config's text is not JSON, or not that of a config. -/
  | unreadable
  /-- A file is not there. -/
  | missing
  deriving DecidableEq, Repr

namespace ViewerError

def category : ViewerError → String
  | registration _ | outOfSync => "registry"
  | rejected _ => "command"
  | config _ => "config"
  | unreadable => "json"
  | missing => "io"

def isFatal : ViewerError → Bool
  | registration _ | outOfSync => true
  | _ => false

def message : ViewerError → String
  | registration _ => "Registry error: resource registry"
  | outOfSync =>
      "Registry error: registry is out of sync; no further resources are accepted"
  | rejected _ => "Command error: command rejected"
  | config cause => "Config error: " ++ cause.message
  | unreadable => "JSON error: not a config"
  | missing => "IO error: no such file"

/-- The text of the error behind this one. -/
def source? : ViewerError → Option String
  | registration cause => some cause.message
  | rejected cause => some cause.message
  | _ => none

end ViewerError

namespace ViewerConfig

/-- The config of a text; it has to be a valid one. -/
def read (text : String) : Except ViewerError ViewerConfig :=
  match (Json.read? text).bind ofJson? with
  | none => .error .unreadable
  | some config => (config.validate.map fun _ => config).mapError .config

end ViewerConfig

end GlPlayback
