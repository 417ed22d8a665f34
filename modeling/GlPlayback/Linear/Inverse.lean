import GlPlayback.Linear.Matrix4

/-!
The inverse of a matrix by elimination. The same row operations turn the matrix into the identity
and the identity into the inverse.
-/
namespace GlPlayback.Matrix4

variable {α : Type} [Scalar α]

open Scalar

/-- The row, from the diagonal down, whose entry in the column is largest; of equals the last. -/
def pivotRow (m : Matrix4 α) (col : Fin 4) : Fin 4 :=
  ((List.finRange 4).filter (col < ·)).foldl
    (fun best row => if atMost (m.at4 best col) (m.at4 row col) then row else best) col

def swapRows (m : Matrix4 α) (a b : Fin 4) : Matrix4 α :=
  ofFn fun row col => m.at4 (if row = a then b else if row = b then a else row) col

def divideRow (m : Matrix4 α) (target : Fin 4) (divisor : α) : Matrix4 α :=
  ofFn fun row col => if row = target then m.at4 row col / divisor else m.at4 row col

/-- Takes from every other row its own multiple of one row; a multiple of zero is left out. -/
def subtractRow (m : Matrix4 α) (source : Fin 4) (factor : Fin 4 → α) : Matrix4 α :=
  ofFn fun row col =>
    if row = source || isZero (factor row) then m.at4 row col
    else m.at4 row col - factor row * m.at4 source col

/-- Clears a column of the first matrix but for a one on the diagonal, and does the same to the
rows of the second. A column whose pivot is tiny cannot be cleared. -/
def clearColumn (col : Fin 4) (pair : Matrix4 α × Matrix4 α) :
    Option (Matrix4 α × Matrix4 α) :=
  let pivot := pair.1.pivotRow col
  if isTiny (pair.1.at4 pivot col) then none
  else
    let left := pair.1.swapRows pivot col
    let right := pair.2.swapRows pivot col
    let divisor := left.at4 col col
    let left := left.divideRow col divisor
    let right := right.divideRow col divisor
    let factor := fun row => left.at4 row col
    some (left.subtractRow col factor, right.subtractRow col factor)

/-- The inverse, unless a pivot vanishes. -/
def inverse? (m : Matrix4 α) : Option (Matrix4 α) := do
  let pair ← clearColumn 0 (m, identity)
  let pair ← clearColumn 1 pair
  let pair ← clearColumn 2 pair
  let pair ← clearColumn 3 pair
  return pair.2

end GlPlayback.Matrix4
