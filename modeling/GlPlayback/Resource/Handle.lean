/-!
Handles name resources by the order of their registration.
-/
namespace GlPlayback

structure Handle where
  index : Nat
  deriving DecidableEq, Repr

namespace Handle

def text (h : Handle) : String :=
  "#" ++ toString h.index

instance : LT Handle :=
  ⟨fun a b => a.index < b.index⟩

instance : DecidableRel ((· < ·) : Handle → Handle → Prop) :=
  fun a b => inferInstanceAs (Decidable (a.index < b.index))

end Handle

end GlPlayback
