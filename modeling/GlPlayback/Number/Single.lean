import GlPlayback.Number.Double

/-!
Single-precision numbers by their bits. They travel through buffers and uniforms untouched, so
that even the bits of a NaN arrive; arithmetic goes by way of the floating-point value.
-/
namespace GlPlayback

structure Single where
  bits : UInt32
  deriving DecidableEq, Repr, Inhabited

namespace Single

def ofFloat32 (x : Float32) : Single :=
  ⟨x.toBits⟩

def toFloat32 (x : Single) : Float32 :=
  Float32.ofBits x.bits

/-- The nearest single, ties to even; what is too big becomes infinite. A NaN keeps its sign and
the upper part of its payload. -/
def ofDouble (x : Double) : Single :=
  if x.isNaN then
    let sign := (x.bits >>> 32).toUInt32 &&& 0x80000000
    let payload := (x.bits >>> 29).toUInt32 &&& 0x003FFFFF
    ⟨sign ||| 0x7FC00000 ||| payload⟩
  else ofFloat32 x.toFloat.toFloat32

def ofInt (n : Int) : Single :=
  let magnitude := n.natAbs.toUInt64.toFloat32
  ofFloat32 (if n < 0 then -magnitude else magnitude)

def zero : Single := ⟨0⟩

def one : Single := ⟨0x3F800000⟩

/-- Whether the first number is greater; a NaN never is. -/
def isGreater (x y : Single) : Bool :=
  x.toFloat32 > y.toFloat32

/-- The nearest number from zero to one. A NaN and a negative zero stay. -/
def toUnit (x : Single) : Single :=
  if x.toFloat32 < 0 then zero
  else if x.toFloat32 > 1 then one
  else x

end Single

end GlPlayback
