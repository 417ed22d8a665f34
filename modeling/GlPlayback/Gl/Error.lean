/-!
The errors that a context reports. A context keeps the first one until it is asked.
-/
namespace GlPlayback

inductive GlError where
  | invalidEnum
  | invalidValue
  | invalidOperation
  | invalidFramebufferOperation
  | outOfMemory
  | contextLost
  deriving DecidableEq, Repr

namespace GlError

def message : GlError → String
  | invalidEnum => "Invalid enum"
  | invalidValue => "Invalid value"
  | invalidOperation => "Invalid operation"
  | invalidFramebufferOperation => "Invalid framebuffer operation"
  | outOfMemory => "Out of memory"
  | contextLost => "Context lost"

def code : GlError → UInt32
  | invalidEnum => 0x0500
  | invalidValue => 0x0501
  | invalidOperation => 0x0502
  | invalidFramebufferOperation => 0x0506
  | outOfMemory => 0x0505
  | contextLost => 0x9242

/-- The error behind a code, zero being none. Codes of no other error mean a lost context. -/
def ofCode? (code : UInt32) : Option GlError :=
  if code = 0 then none
  else if code = 0x0500 then some invalidEnum
  else if code = 0x0501 then some invalidValue
  else if code = 0x0502 then some invalidOperation
  else if code = 0x0506 then some invalidFramebufferOperation
  else if code = 0x0505 then some outOfMemory
  else some contextLost

/-- What a context answers when it is asked for its error. -/
def flagCode : Option GlError → UInt32
  | none => 0
  | some e => e.code

end GlError

end GlPlayback
