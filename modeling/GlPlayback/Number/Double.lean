/-!
Double-precision numbers by their bits. An operation with a NaN among its operands hands on the
first of them, sign and payload included; one that has no value for other operands answers with
one NaN that is always the same.
-/
namespace GlPlayback

structure Double where
  bits : UInt64
  deriving DecidableEq, Repr, Inhabited

namespace Double

def ofFloat (x : Float) : Double :=
  ⟨x.toBits⟩

def toFloat (x : Double) : Float :=
  .ofBits x.bits

instance (n : Nat) : OfNat Double n :=
  ⟨ofFloat (.ofNat n)⟩

instance : OfScientific Double :=
  ⟨fun digits isNegative exponent => ofFloat (.ofScientific digits isNegative exponent)⟩

def ofUInt32 (n : UInt32) : Double :=
  ofFloat n.toFloat

def ofUInt64 (n : UInt64) : Double :=
  ofFloat n.toFloat

/-- The bits below the sign. They are in the order of the magnitudes, with the NaNs on top. -/
def magnitude (x : Double) : UInt64 :=
  x.bits &&& 0x7FFFFFFFFFFFFFFF

def isNaN (x : Double) : Bool :=
  x.magnitude > 0x7FF0000000000000

def isInfinite (x : Double) : Bool :=
  x.magnitude = 0x7FF0000000000000

/-- The NaN that an operand becomes when it is handed on. -/
def quiet (x : Double) : Double :=
  ⟨x.bits ||| 0x0008000000000000⟩

/-- The NaN of an operation that has no value. -/
def invalid : Double :=
  ⟨0xFFF8000000000000⟩

def ofResult (x : Float) : Double :=
  if x.isNaN then invalid else ofFloat x

def unary (operation : Float → Float) (x : Double) : Double :=
  if x.isNaN then x.quiet else ofResult (operation x.toFloat)

def binary (operation : Float → Float → Float) (x y : Double) : Double :=
  if x.isNaN then x.quiet
  else if y.isNaN then y.quiet
  else ofResult (operation x.toFloat y.toFloat)

instance : Add Double :=
  ⟨binary (· + ·)⟩

instance : Sub Double :=
  ⟨binary (· - ·)⟩

instance : Mul Double :=
  ⟨binary (· * ·)⟩

instance : Div Double :=
  ⟨binary (· / ·)⟩

/-- The number with the other sign, also of a NaN. -/
instance : Neg Double :=
  ⟨fun x => ⟨x.bits ^^^ 0x8000000000000000⟩⟩

def abs (x : Double) : Double :=
  ⟨x.magnitude⟩

def sin : Double → Double :=
  unary Float.sin

def cos : Double → Double :=
  unary Float.cos

def tan : Double → Double :=
  unary Float.tan

/-- Whether the first number is below the second; a NaN is below nothing. -/
def isBelow (x y : Double) : Bool :=
  x.toFloat < y.toFloat

/-- Whether the first number is at most the second; a NaN never is. -/
def isAtMost (x y : Double) : Bool :=
  x.toFloat ≤ y.toFloat

def isZero (x : Double) : Bool :=
  x.magnitude = 0

end Double

end GlPlayback
