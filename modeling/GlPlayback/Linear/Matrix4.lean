import GlPlayback.Number.Double

/-!
Vectors of three and matrices of four by four numbers. Points are columns, and a shift sits
in the last column. The numbers may be doubles, which run, or anything else with the operations
of a `Scalar`, so that one definition serves both for running and for exact arithmetic.
-/
namespace GlPlayback

/-- Numbers that a matrix may hold, with what an elimination asks of them. -/
class Scalar (α : Type) extends Add α, Sub α, Neg α, Mul α, Div α where
  zero : α
  one : α
  /-- Whether the first magnitude is at most the second. -/
  atMost : α → α → Bool
  /-- Whether the magnitude is below `10^-12`. -/
  isTiny : α → Bool
  isZero : α → Bool

instance : Scalar Double where
  zero := 0
  one := 1
  atMost x y := x.magnitude ≤ y.magnitude
  isTiny x := x.abs.isBelow 1e-12
  isZero := Double.isZero

/-- Magnitudes of fractions, exactly. -/
instance : Scalar Rat where
  zero := 0
  one := 1
  atMost x y := x.abs ≤ y.abs
  isTiny x := x.abs < 1 / 1000000000000
  isZero x := x == 0

/-- What a numeral that indexes a row or a column rests on, under one name. -/
instance neZeroFour : @NeZero Nat Zero.ofOfNat0 4 :=
  ⟨by decide⟩

structure Vec3 (α : Type) where
  x : α
  y : α
  z : α
  deriving Repr, DecidableEq

namespace Vec3

variable {α : Type} [Scalar α]

def add (a b : Vec3 α) : Vec3 α :=
  ⟨a.x + b.x, a.y + b.y, a.z + b.z⟩

def sub (a b : Vec3 α) : Vec3 α :=
  ⟨a.x - b.x, a.y - b.y, a.z - b.z⟩

def scale (a : Vec3 α) (s : α) : Vec3 α :=
  ⟨a.x * s, a.y * s, a.z * s⟩

def toList (a : Vec3 α) : List α :=
  [a.x, a.y, a.z]

end Vec3

structure Matrix4 (α : Type) where
  rows : Vector (Vector α 4) 4
  deriving DecidableEq

namespace Matrix4

variable {α : Type}

def at4 (m : Matrix4 α) (row col : Fin 4) : α :=
  m.rows[row][col]

def ofFn (entry : Fin 4 → Fin 4 → α) : Matrix4 α :=
  ⟨Vector.ofFn fun row => Vector.ofFn fun col => entry row col⟩

@[simp] theorem at4_ofFn (entry : Fin 4 → Fin 4 → α) (row col : Fin 4) :
    (ofFn entry).at4 row col = entry row col := by
  simp [at4, ofFn]

theorem ext_at4 {m n : Matrix4 α} (h : ∀ row col, m.at4 row col = n.at4 row col) : m = n := by
  obtain ⟨m⟩ := m
  obtain ⟨n⟩ := n
  congr
  ext i hi j hj
  exact h ⟨i, hi⟩ ⟨j, hj⟩

def ofRows (a b c d : Vector α 4) : Matrix4 α :=
  ⟨#v[a, b, c, d]⟩

def toList (m : Matrix4 α) : List α :=
  m.rows.toList.flatMap Vector.toList

/-- The entry `col` places behind the first one of a row, counted row by row. A column beyond the
row's end goes on into the next rows. -/
def entry? (m : Matrix4 α) (row col : UInt64) : Option α :=
  m.toList[(row * 4 + col).toNat]?

def transpose (m : Matrix4 α) : Matrix4 α :=
  ofFn fun row col => m.at4 col row

variable [Scalar α]

open Scalar

def identity : Matrix4 α :=
  ofFn fun row col => if row = col then one else zero

/-- The matrix product; the four products of an entry are added from left to right. -/
def mul (m n : Matrix4 α) : Matrix4 α :=
  ofFn fun row col =>
    m.at4 row 0 * n.at4 0 col + m.at4 row 1 * n.at4 1 col + m.at4 row 2 * n.at4 2 col +
      m.at4 row 3 * n.at4 3 col

instance : Mul (Matrix4 α) :=
  ⟨mul⟩

def column (m : Matrix4 α) (col : Fin 4) : Vec3 α :=
  ⟨m.at4 0 col, m.at4 1 col, m.at4 2 col⟩

end Matrix4

end GlPlayback
