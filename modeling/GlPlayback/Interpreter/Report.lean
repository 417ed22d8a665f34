import GlPlayback.Command.Error

/-!
What became of a list of commands.
-/
namespace GlPlayback

structure Failure where
  index : Nat
  command : String
  error : CommandError
  deriving DecidableEq, Repr

structure Report where
  executed : Nat := 0
  failures : List Failure := []
  deriving DecidableEq, Repr

namespace Report

def isClean (r : Report) : Bool :=
  r.failures.isEmpty

/-- The report of two lists run one after the other. -/
def merge (r later : Report) : Report :=
  ⟨r.executed + later.executed, r.failures ++ later.failures⟩

end Report

end GlPlayback
