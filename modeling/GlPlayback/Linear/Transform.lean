import GlPlayback.Linear.Matrix4

/-!
Shifts, scalings, rotations and projections as matrices.
-/
namespace GlPlayback.Matrix4

section Exact

variable {α : Type} [Scalar α]

open Scalar

def shift (v : Vec3 α) : Matrix4 α :=
  ofRows #v[one, zero, zero, v.x] #v[zero, one, zero, v.y] #v[zero, zero, one, v.z]
    #v[zero, zero, zero, one]

def scaling (v : Vec3 α) : Matrix4 α :=
  ofRows #v[v.x, zero, zero, zero] #v[zero, v.y, zero, zero] #v[zero, zero, v.z, zero]
    #v[zero, zero, zero, one]

/-- The rotation about the first axis by an angle with this sine and cosine. -/
def turnX (sin cos : α) : Matrix4 α :=
  ofRows #v[one, zero, zero, zero] #v[zero, cos, -sin, zero] #v[zero, sin, cos, zero]
    #v[zero, zero, zero, one]

def turnY (sin cos : α) : Matrix4 α :=
  ofRows #v[cos, zero, sin, zero] #v[zero, one, zero, zero] #v[-sin, zero, cos, zero]
    #v[zero, zero, zero, one]

def turnZ (sin cos : α) : Matrix4 α :=
  ofRows #v[cos, -sin, zero, zero] #v[sin, cos, zero, zero] #v[zero, zero, one, zero]
    #v[zero, zero, zero, one]

/-- Where a camera stands that is turned about its own first axis, then about the second. -/
def placement (position : Vec3 α) (yawSin yawCos pitchSin pitchCos : α) : Matrix4 α :=
  shift position * turnY yawSin yawCos * turnX pitchSin pitchCos

end Exact

def radians (degrees : Double) : Double :=
  degrees * (3.14159265358979323846264338327950288 / 180.0)

def rotationX (angle : Double) : Matrix4 Double :=
  turnX angle.sin angle.cos

def rotationY (angle : Double) : Matrix4 Double :=
  turnY angle.sin angle.cos

def rotationZ (angle : Double) : Matrix4 Double :=
  turnZ angle.sin angle.cos

/-- The perspective view through the rectangle from `left` to `right` and `bottom` to `top`. -/
def frustum (left right bottom top near far : Double) : Matrix4 Double :=
  ofRows
    #v[2.0 * near / (right - left), 0, (right + left) / (right - left), 0]
    #v[0, 2.0 * near / (top - bottom), (top + bottom) / (top - bottom), 0]
    #v[0, 0, -(far + near) / (far - near), -2.0 * far * near / (far - near)]
    #v[0, 0, -1.0, 0]

def perspective (degrees aspect near far : Double) : Matrix4 Double :=
  let top := near * (radians degrees / 2.0).tan
  let right := top * aspect
  frustum (-right) right (-top) top near far

/-- The parallel view of a box with these half edges. -/
def orthographic (halfWidth halfHeight near far : Double) : Matrix4 Double :=
  ofRows
    #v[1.0 / halfWidth, 0, 0, 0]
    #v[0, 1.0 / halfHeight, 0, 0]
    #v[0, 0, -2.0 / (far - near), -(far + near) / (far - near)]
    #v[0, 0, 0, 1.0]

def isNear (m n : Matrix4 Double) (epsilon : Double) : Bool :=
  (m.toList.zip n.toList).all fun (a, b) => (a - b).abs.isAtMost epsilon

end GlPlayback.Matrix4
