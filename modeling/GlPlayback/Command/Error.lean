import GlPlayback.Command.BufferTarget
import GlPlayback.Command.Element
import GlPlayback.Gl.Error
import GlPlayback.Resource.Registry

/-!
Why a single command fails. A failing command is skipped, and those behind it still run.
-/
namespace GlPlayback

inductive CommandError where
  | unknownToken (family token : String)
  | registry (cause : RegistryError)
  | element (cause : ElementError)
  | missingPayload
  | payloadIndex (index count : Nat)
  | payloadType (expected : String) (found : ElementType)
  | unsupportedShape (shape : List Nat)
  | capabilityMask (bits : UInt32)
  | unresolvedAttribute (name : String)
  | unresolvedBlock (name : String)
  | unresolvedMember (block member : String)
  | textureUnit (unit : UInt32)
  | noBoundProgram
  | noBoundBuffer (target : BufferTarget)
  /-- The context made no object of this kind. -/
  | createFailed (kind : String)
  | unsupported
  /-- The context refused one of the command's calls. -/
  | gl (cause : GlError)
  deriving DecidableEq, Repr

namespace CommandError

def commaSeparated : List Nat → String
  | [] => ""
  | [n] => toString n
  | n :: rest => toString n ++ ", " ++ commaSeparated rest

def message : CommandError → String
  | unknownToken family token => "unknown " ++ family ++ " token '" ++ token ++ "'"
  | registry cause => cause.message
  | element cause => cause.message
  | missingPayload => "command requires a payload"
  | payloadIndex index count =>
      "payload index " ++ toString index ++ " out of range for " ++ toString count ++ " payloads"
  | payloadType expected found => "expected a " ++ expected ++ " payload, got " ++ found.name
  | unsupportedShape shape => "unsupported payload shape [" ++ commaSeparated shape ++ "]"
  | capabilityMask bits =>
      "capability mask 0x" ++ String.ofList (Nat.toDigits 16 bits.toNat) ++ " has unknown bits"
  | unresolvedAttribute name => "attribute '" ++ name ++ "' is not active in the bound program"
  | unresolvedBlock name => "uniform block '" ++ name ++ "' not found"
  | unresolvedMember block member =>
      "member '" ++ member ++ "' not found in uniform block '" ++ block ++ "'"
  | textureUnit unit => "texture unit " ++ toString unit ++ " is out of range"
  | noBoundProgram => "no program is bound"
  | noBoundBuffer target => "no buffer is bound to " ++ target.name
  | createFailed kind => "context refused to create a " ++ kind
  | unsupported => "unsupported command"
  | gl cause => "context reported: " ++ cause.message

end CommandError

end GlPlayback
