import GlPlayback.Linear.Inverse
import GlPlayback.Viewer.Camera
import Mathlib.LinearAlgebra.Matrix.NonsingularInverse
import Mathlib.Tactic.Linarith

/-!
Inverses of matrices of fractions. Clearing a column changes every vector that the two matrices of
the pair give in one and the same way, so the first stays the second times the matrix that is
inverted. The elimination stops only at a matrix that takes some vector to nearly nothing; a camera
is none of these, for it turns and shifts.
-/
namespace GlPlayback.Matrix4

open Equiv Matrix

def toMatrix (m : Matrix4 ℚ) : Matrix (Fin 4) (Fin 4) ℚ :=
  Matrix.of m.at4

variable {m n : Matrix4 ℚ} {col : Fin 4} {pair next : Matrix4 ℚ × Matrix4 ℚ}

theorem toMatrix_injective : Function.Injective toMatrix := by
  intro m n h
  exact ext_at4 fun row col => congrFun (congrFun h row) col

@[simp] theorem toMatrix_identity : (identity : Matrix4 ℚ).toMatrix = 1 := by
  ext row col
  exact at4_ofFn _ row col

@[simp] theorem toMatrix_mul (m n : Matrix4 ℚ) : (m * n).toMatrix = m.toMatrix * n.toMatrix := by
  ext row col
  rw [Matrix.mul_apply, Fin.sum_univ_four]
  exact at4_ofFn _ row col

section Rows

variable (m : Matrix4 ℚ) (v : Fin 4 → ℚ)

theorem at4_swapRows (a b row col : Fin 4) :
    (m.swapRows a b).at4 row col = m.at4 (swap a b row) col := by
  rw [swap_apply_def]
  exact at4_ofFn _ row col

theorem at4_divideRow (target : Fin 4) (divisor : ℚ) (row col : Fin 4) :
    (m.divideRow target divisor).at4 row col =
      if row = target then m.at4 row col / divisor else m.at4 row col :=
  at4_ofFn _ row col

/-- A row with a factor of zero is passed over, and taking nothing from it is the same. -/
theorem at4_subtractRow (source : Fin 4) (factor : Fin 4 → ℚ) (row col : Fin 4) :
    (m.subtractRow source factor).at4 row col =
      if row = source then m.at4 row col
      else m.at4 row col - factor row * m.at4 source col := by
  refine (at4_ofFn _ row col).trans ?_
  by_cases hzero : factor row = 0
  · simp [hzero, Scalar.isZero]
  · simp [hzero, Scalar.isZero]

theorem swapRows_mulVec (a b : Fin 4) :
    (m.swapRows a b).toMatrix *ᵥ v = (m.toMatrix *ᵥ v) ∘ swap a b := by
  funext row
  have hrow : (m.swapRows a b).toMatrix row = m.toMatrix (swap a b row) :=
    funext (at4_swapRows m a b row)
  rw [Function.comp_apply, Matrix.mulVec, Matrix.mulVec, hrow]

theorem divideRow_mulVec (target : Fin 4) (divisor : ℚ) (row : Fin 4) :
    ((m.divideRow target divisor).toMatrix *ᵥ v) row =
      if row = target then (m.toMatrix *ᵥ v) row / divisor else (m.toMatrix *ᵥ v) row := by
  have hrow : (m.divideRow target divisor).toMatrix row =
      if row = target then divisor⁻¹ • m.toMatrix row else m.toMatrix row := by
    funext col
    refine (at4_divideRow m target divisor row col).trans ?_
    split
    · exact div_eq_inv_mul _ _
    · rfl
  rw [Matrix.mulVec, hrow]
  split
  · rw [smul_dotProduct, smul_eq_mul, div_eq_inv_mul]
    rfl
  · rfl

theorem subtractRow_mulVec (source : Fin 4) (factor : Fin 4 → ℚ) (row : Fin 4) :
    ((m.subtractRow source factor).toMatrix *ᵥ v) row =
      if row = source then (m.toMatrix *ᵥ v) row
      else (m.toMatrix *ᵥ v) row - factor row * (m.toMatrix *ᵥ v) source := by
  have hrow : (m.subtractRow source factor).toMatrix row =
      if row = source then m.toMatrix row
      else m.toMatrix row - factor row • m.toMatrix source := by
    funext col
    refine (at4_subtractRow m source factor row col).trans ?_
    split
    · rfl
    · rfl
  rw [Matrix.mulVec, hrow]
  split
  · rfl
  · rw [sub_dotProduct, smul_dotProduct]
    rfl

end Rows

/-- What clearing a column, with its pivot found in some row, makes of a vector. -/
def sweep (pivot col : Fin 4) (column v : Fin 4 → ℚ) : Fin 4 → ℚ := fun row =>
  if row = col then v pivot / column pivot
  else v (swap pivot col row) - column (swap pivot col row) * (v pivot / column pivot)

section Sweep

variable {pivot : Fin 4} {column : Fin 4 → ℚ}

theorem sweep_self (h : column pivot ≠ 0) : sweep pivot col column column = Pi.single col 1 := by
  funext row
  by_cases hrow : row = col
  · simp [sweep, hrow, div_self h]
  · simp [sweep, hrow, div_self h]

/-- A vector with nothing where the pivot goes only has its entries moved. -/
theorem sweep_comp_swap {w : Fin 4 → ℚ} (h : w col = 0) :
    sweep pivot col column (w ∘ swap pivot col) = w := by
  funext row
  by_cases hrow : row = col
  · simp [sweep, hrow, h]
  · simp [sweep, hrow, h]

theorem sweep_single {j : Fin 4} (hcol : j ≠ col) (hpivot : j ≠ pivot) :
    sweep pivot col column (Pi.single j 1) = Pi.single j 1 := by
  have hswap : (Pi.single j 1 : Fin 4 → ℚ) ∘ swap pivot col = Pi.single j 1 := by
    funext row
    simp only [Function.comp_apply, Pi.single_apply, swap_apply_eq_iff,
      swap_apply_of_ne_of_ne hpivot hcol]
  have hzero : (Pi.single j 1 : Fin 4 → ℚ) col = 0 := Pi.single_eq_of_ne hcol.symm 1
  exact (congrArg _ hswap.symm).trans (sweep_comp_swap hzero)

theorem sweep_injective (h : column pivot ≠ 0) :
    Function.Injective (sweep pivot col column) := by
  intro v w heq
  have hpivot : v pivot = w pivot := by
    have hcol := congrFun heq col
    simp only [sweep, if_true] at hcol
    exact (div_left_inj' h).mp hcol
  funext row
  by_cases hrow : row = pivot
  · rw [hrow, hpivot]
  · have hswap : swap pivot col row ≠ col := by
      rw [Ne, swap_apply_eq_iff, swap_apply_right]
      exact hrow
    have hother := congrFun heq (swap pivot col row)
    simpa only [sweep, if_neg hswap, swap_apply_self, hpivot, sub_left_inj] using hother

end Sweep

section Magnitudes

variable {x y : ℚ}

theorem ratAbs_eq_abs (x : ℚ) : x.abs = |x| := by
  rw [Rat.abs]
  split <;> rename_i hx
  · exact (abs_of_nonneg hx).symm
  · exact (abs_of_neg (not_le.mp hx)).symm

theorem atMost_iff : Scalar.atMost x y = true ↔ |x| ≤ |y| := by
  rw [← ratAbs_eq_abs, ← ratAbs_eq_abs]
  exact decide_eq_true_iff

theorem isTiny_iff : Scalar.isTiny x = true ↔ |x| < 1 / 1000000000000 := by
  rw [← ratAbs_eq_abs]
  exact decide_eq_true_iff

end Magnitudes

/-- A scan ends at the row it starts with or at one it meets, and no entry is larger. -/
theorem foldl_atMost (m : Matrix4 ℚ) (col best : Fin 4) (rows : List (Fin 4)) :
    let found := rows.foldl
      (fun best row => if Scalar.atMost (m.at4 best col) (m.at4 row col) then row else best) best
    (found = best ∨ found ∈ rows) ∧ |m.at4 best col| ≤ |m.at4 found col| ∧
      ∀ row ∈ rows, |m.at4 row col| ≤ |m.at4 found col| := by
  induction rows generalizing best with
  | nil => exact ⟨.inl rfl, le_rfl, nofun⟩
  | cons first rows ih =>
    simp only [List.foldl_cons]
    split <;> rename_i hfirst
    · obtain ⟨hmem, hbest, hrows⟩ := ih first
      exact ⟨.inr (List.mem_cons.mpr hmem), (atMost_iff.mp hfirst).trans hbest,
        List.forall_mem_cons.mpr ⟨hbest, hrows⟩⟩
    · obtain ⟨hmem, hbest, hrows⟩ := ih best
      have hless : |m.at4 first col| ≤ |m.at4 best col| :=
        (not_le.mp (mt atMost_iff.mpr hfirst)).le
      exact ⟨hmem.imp_right (List.mem_cons_of_mem _), hbest,
        List.forall_mem_cons.mpr ⟨hless.trans hbest, hrows⟩⟩

theorem le_pivotRow (m : Matrix4 ℚ) (col : Fin 4) : col ≤ m.pivotRow col := by
  obtain hself | hmem := (foldl_atMost m col col ((List.finRange 4).filter (col < ·))).1
  · exact hself.ge
  · exact (of_decide_eq_true (List.mem_filter.mp hmem).2).le

theorem abs_le_pivotRow (m : Matrix4 ℚ) {row : Fin 4} (h : col ≤ row) :
    |m.at4 row col| ≤ |m.at4 (m.pivotRow col) col| := by
  obtain ⟨-, hself, hlater⟩ := foldl_atMost m col col ((List.finRange 4).filter (col < ·))
  obtain rfl | hlt := h.eq_or_lt
  · exact hself
  · exact hlater row (List.mem_filter.mpr ⟨List.mem_finRange row, decide_eq_true hlt⟩)

/-- The row operations that clear a column of one matrix, done to any. -/
theorem swept_mulVec (l m : Matrix4 ℚ) (pivot col : Fin 4) (v : Fin 4 → ℚ) :
    let divisor := (l.swapRows pivot col).at4 col col
    let factor := fun row => ((l.swapRows pivot col).divideRow col divisor).at4 row col
    (((m.swapRows pivot col).divideRow col divisor).subtractRow col factor).toMatrix *ᵥ v =
      sweep pivot col (l.toMatrix.col col) (m.toMatrix *ᵥ v) := by
  have hdivisor : (l.swapRows pivot col).at4 col col = l.at4 pivot col := by
    rw [at4_swapRows, swap_apply_right]
  have hsource : (((m.swapRows pivot col).divideRow col (l.at4 pivot col)).toMatrix *ᵥ v) col =
      (m.toMatrix *ᵥ v) pivot / l.at4 pivot col := by
    rw [divideRow_mulVec, if_pos rfl, swapRows_mulVec, Function.comp_apply, swap_apply_right]
  funext row
  rw [subtractRow_mulVec, hdivisor, hsource, sweep]
  by_cases hrow : row = col
  · rw [if_pos hrow, if_pos hrow, hrow, hsource]
    rfl
  · rw [if_neg hrow, if_neg hrow, divideRow_mulVec, if_neg hrow, swapRows_mulVec,
      at4_divideRow, if_neg hrow, at4_swapRows]
    rfl

/-- Both matrices of the pair are swept alike, with the pivot taken from the first. -/
structure Swept (pivot col : Fin 4) (pair next : Matrix4 ℚ × Matrix4 ℚ) : Prop where
  le_pivot : col ≤ pivot
  pivot_ne_zero : pair.1.toMatrix.col col pivot ≠ 0
  left_mulVec : ∀ v, next.1.toMatrix *ᵥ v =
    sweep pivot col (pair.1.toMatrix.col col) (pair.1.toMatrix *ᵥ v)
  right_mulVec : ∀ v, next.2.toMatrix *ᵥ v =
    sweep pivot col (pair.1.toMatrix.col col) (pair.2.toMatrix *ᵥ v)

/-- A column is cleared, or none of its entries from the diagonal down is sizable. -/
theorem clearColumn_cases (col : Fin 4) (pair : Matrix4 ℚ × Matrix4 ℚ) :
    (∃ next pivot, clearColumn col pair = some next ∧ Swept pivot col pair next) ∨
      clearColumn col pair = none ∧
        ∀ row, col ≤ row → |pair.1.at4 row col| < 1 / 1000000000000 := by
  rw [clearColumn]
  split <;> rename_i htiny
  · refine .inr ⟨rfl, fun row hrow => ?_⟩
    exact (abs_le_pivotRow pair.1 hrow).trans_lt (isTiny_iff.mp htiny)
  · have hne : pair.1.at4 (pair.1.pivotRow col) col ≠ 0 := by
      intro hzero
      rw [hzero, isTiny_iff, abs_zero] at htiny
      exact htiny (by norm_num)
    exact .inl ⟨_, pair.1.pivotRow col, rfl, le_pivotRow pair.1 col, hne,
      swept_mulVec pair.1 pair.1 _ col, swept_mulVec pair.1 pair.2 _ col⟩

/-- The matrix takes a vector that ends in a one, or in a one and zeros, to nearly nothing. -/
def Crushes (m : Matrix4 ℚ) : Prop :=
  ∃ (k : Fin 4) (v : Fin 4 → ℚ), v k = 1 ∧ (∀ j, k < j → v j = 0) ∧
    (m.toMatrix *ᵥ v) ⬝ᵥ (m.toMatrix *ᵥ v) < 4 * (1 / 1000000000000) ^ 2

/-- What the columns before `col` being cleared says of the pair, for the inverse of `m`. -/
structure Reduces (m : Matrix4 ℚ) (col : Nat) (pair : Matrix4 ℚ × Matrix4 ℚ) : Prop where
  quotient : ∀ v, pair.1.toMatrix *ᵥ v = pair.2.toMatrix *ᵥ (m.toMatrix *ᵥ v)
  cleared : ∀ j : Fin 4, j < col → pair.1.toMatrix *ᵥ Pi.single j 1 = Pi.single j 1
  injective : Function.Injective (pair.2.toMatrix *ᵥ ·)
  /-- The rows that have not yet held a pivot have only been moved. -/
  moved : ∀ w : Fin 4 → ℚ, (∀ row : Fin 4, row < col → w row = 0) →
    ∃ v, pair.2.toMatrix *ᵥ v = w ∧ v ⬝ᵥ v = w ⬝ᵥ w

theorem reduces_start (m : Matrix4 ℚ) : Reduces m 0 (m, identity) where
  quotient v := by rw [toMatrix_identity, one_mulVec]
  cleared j h := absurd h (Nat.not_lt_zero _)
  injective v w h := by simpa using h
  moved w _ := ⟨w, by rw [toMatrix_identity, one_mulVec], rfl⟩

theorem Reduces.swept {pivot : Fin 4} (h : Reduces m col pair)
    (hswept : Swept pivot col pair next) : Reduces m (col + 1) next where
  quotient v := by rw [hswept.left_mulVec, hswept.right_mulVec, h.quotient]
  cleared j hj := by
    rw [hswept.left_mulVec]
    obtain hlt | heq := Nat.lt_succ_iff_lt_or_eq.mp hj
    · rw [h.cleared j hlt, sweep_single (Fin.ne_of_lt hlt)
        (Fin.ne_of_lt (hlt.trans_le hswept.le_pivot))]
    · rw [Fin.ext heq, mulVec_single_one, sweep_self hswept.pivot_ne_zero]
  injective v w heq := by
    simp only [hswept.right_mulVec] at heq
    exact h.injective (sweep_injective hswept.pivot_ne_zero heq)
  moved w hw := by
    have hcol : w col = 0 := hw col (Nat.lt_succ_self col)
    -- the pivot lies below the rows of the cleared columns, so they stay where they are
    have hstill (row : Fin 4) (hrow : row < col) : (w ∘ swap pivot col) row = 0 := by
      rw [Function.comp_apply, swap_apply_of_ne_of_ne
        (Fin.ne_of_lt (hrow.trans_le hswept.le_pivot)) (Fin.ne_of_lt hrow)]
      exact hw row (Nat.lt_succ_of_lt hrow)
    obtain ⟨v, hv, hlength⟩ := h.moved (w ∘ swap pivot col) hstill
    refine ⟨v, ?_, ?_⟩
    · rw [hswept.right_mulVec, hv, sweep_comp_swap hcol]
    · rw [hlength, comp_equiv_dotProduct_comp_equiv]

/-- The cleared columns keep a vector that has entries in their rows only. -/
theorem Reduces.mulVec_eq_self (h : Reduces m col pair) {u : Fin 4 → ℚ}
    (hu : ∀ row, col ≤ row → u row = 0) : pair.1.toMatrix *ᵥ u = u := by
  funext row
  have hterm (j : Fin 4) : pair.1.toMatrix row j * u j = (1 : Matrix _ _ ℚ) row j * u j := by
    by_cases hj : j < col
    · have hcleared := h.cleared j hj
      rw [mulVec_single_one] at hcleared
      rw [one_apply, ← Pi.single_apply, ← hcleared]
      rfl
    · rw [hu j (not_lt.mp hj), mul_zero, mul_zero]
  calc (pair.1.toMatrix *ᵥ u) row
      = ∑ j, pair.1.toMatrix row j * u j := rfl
    _ = ∑ j, (1 : Matrix _ _ ℚ) row j * u j := Finset.sum_congr rfl fun j _ => hterm j
    _ = ((1 : Matrix _ _ ℚ) *ᵥ u) row := rfl
    _ = u row := by rw [one_mulVec]

theorem dotProduct_self_lt {w : Fin 4 → ℚ} {bound : ℚ} (h : ∀ row, |w row| < bound) :
    w ⬝ᵥ w < 4 * bound ^ 2 := by
  have hsquare (row : Fin 4) : w row * w row < bound ^ 2 := by
    rw [← pow_two, ← sq_abs]
    exact pow_lt_pow_left₀ (h row) (abs_nonneg _) two_ne_zero
  rw [dotProduct, Fin.sum_univ_four]
  linarith [hsquare 0, hsquare 1, hsquare 2, hsquare 3]

/-- What is crushed is the unit of the column at hand, less the cleared columns' part in it. -/
theorem Reduces.crushes (h : Reduces m col pair)
    (htiny : ∀ row, col ≤ row → |pair.1.at4 row col| < 1 / 1000000000000) : m.Crushes := by
  let u : Fin 4 → ℚ := fun row => if row < col then pair.1.at4 row col else 0
  let w : Fin 4 → ℚ := fun row => if row < col then 0 else pair.1.at4 row col
  have hu (row : Fin 4) (hrow : col ≤ row) : u row = 0 := if_neg (not_lt.mpr hrow)
  have hleft : pair.1.toMatrix *ᵥ (Pi.single col 1 - u) = w := by
    rw [mulVec_sub, mulVec_single_one, h.mulVec_eq_self hu]
    funext row
    by_cases hrow : row < col
    · simp [u, w, hrow, toMatrix]
    · simp [u, w, hrow, toMatrix]
  obtain ⟨v, hv, hlength⟩ := h.moved w fun row hrow => if_pos hrow
  have himage : v = m.toMatrix *ᵥ (Pi.single col 1 - u) := by
    apply h.injective
    simp only [hv, ← hleft, h.quotient]
  refine ⟨col, Pi.single col 1 - u, ?_, ?_, ?_⟩
  · rw [Pi.sub_apply, Pi.single_eq_same, hu col le_rfl, sub_zero]
  · intro j hj
    rw [Pi.sub_apply, Pi.single_eq_of_ne hj.ne', hu j hj.le, sub_zero]
  · rw [← himage, hlength]
    apply dotProduct_self_lt
    intro row
    by_cases hrow : row < col
    · simp [w, hrow]
    · simpa [w, hrow] using htiny row (not_lt.mp hrow)

theorem Reduces.mul_eq_one (h : Reduces m 4 pair) : pair.2.toMatrix * m.toMatrix = 1 := by
  refine Matrix.ext_of_mulVec_single fun j => ?_
  rw [← mulVec_mulVec, ← h.quotient, h.cleared j j.isLt, one_mulVec]

/-- What an elimination of `m` may come to: a left inverse, or nothing if `m` crushes a vector. -/
def IsOutcome (m : Matrix4 ℚ) : Option (Matrix4 ℚ) → Prop
  | some n => n.toMatrix * m.toMatrix = 1
  | none => m.Crushes

theorem Reduces.isOutcome_bind (h : Reduces m col pair)
    {rest : Matrix4 ℚ × Matrix4 ℚ → Option (Matrix4 ℚ)}
    (hrest : ∀ next, Reduces m (col + 1) next → m.IsOutcome (rest next)) :
    m.IsOutcome (clearColumn col pair >>= rest) := by
  obtain ⟨next, pivot, hsome, hswept⟩ | ⟨hnone, htiny⟩ := clearColumn_cases col pair
  · rw [hsome]
    exact hrest next (h.swept hswept)
  · rw [hnone]
    exact h.crushes htiny

theorem isOutcome_inverse? (m : Matrix4 ℚ) : m.IsOutcome m.inverse? :=
  Reduces.isOutcome_bind (reduces_start m) fun _ h₁ =>
    Reduces.isOutcome_bind h₁ fun _ h₂ =>
      Reduces.isOutcome_bind h₂ fun _ h₃ =>
        Reduces.isOutcome_bind h₃ fun _ h₄ => h₄.mul_eq_one

theorem mul_eq_identity_iff : m * n = identity ↔ m.toMatrix * n.toMatrix = 1 := by
  rw [← toMatrix_mul, ← toMatrix_identity, toMatrix_injective.eq_iff]

theorem inverse?_mul (h : m.inverse? = some n) : n.toMatrix * m.toMatrix = 1 := by
  have houtcome := isOutcome_inverse? m
  rwa [h] at houtcome

theorem inverse?_isSome (h : ¬m.Crushes) : m.inverse?.isSome := by
  have houtcome := isOutcome_inverse? m
  cases hinverse : m.inverse? with
  | none =>
    rw [hinverse] at houtcome
    exact absurd houtcome h
  | some _ => rfl

section Camera

variable {sin cos : ℚ}

theorem toMatrix_transpose (m : Matrix4 ℚ) : m.transpose.toMatrix = m.toMatrixᵀ := by
  ext row col
  exact at4_ofFn _ row col

theorem toMatrix_turnX (sin cos : ℚ) : (turnX sin cos).toMatrix =
    !![1, 0, 0, 0; 0, cos, -sin, 0; 0, sin, cos, 0; 0, 0, 0, 1] := by
  ext row col
  fin_cases row <;> fin_cases col <;> rfl

theorem toMatrix_turnY (sin cos : ℚ) : (turnY sin cos).toMatrix =
    !![cos, 0, sin, 0; 0, 1, 0, 0; -sin, 0, cos, 0; 0, 0, 0, 1] := by
  ext row col
  fin_cases row <;> fin_cases col <;> rfl

theorem toMatrix_shift (v : Vec3 ℚ) : (shift v).toMatrix =
    !![1, 0, 0, v.x; 0, 1, 0, v.y; 0, 0, 1, v.z; 0, 0, 0, 1] := by
  ext row col
  fin_cases row <;> fin_cases col <;> rfl

theorem turnX_orthogonal (h : sin ^ 2 + cos ^ 2 = 1) :
    (turnX sin cos).toMatrixᵀ * (turnX sin cos).toMatrix = 1 := by
  rw [toMatrix_turnX]
  ext row col
  fin_cases row <;> fin_cases col <;>
    simp [Matrix.mul_apply, Fin.sum_univ_four] <;> linarith

theorem turnY_orthogonal (h : sin ^ 2 + cos ^ 2 = 1) :
    (turnY sin cos).toMatrixᵀ * (turnY sin cos).toMatrix = 1 := by
  rw [toMatrix_turnY]
  ext row col
  fin_cases row <;> fin_cases col <;>
    simp [Matrix.mul_apply, Fin.sum_univ_four] <;> linarith

theorem shift_back (v : Vec3 ℚ) :
    (shift ⟨-v.x, -v.y, -v.z⟩).toMatrix * (shift v).toMatrix = 1 := by
  rw [toMatrix_shift, toMatrix_shift]
  ext row col
  fin_cases row <;> fin_cases col <;> simp [Matrix.mul_apply, Fin.sum_univ_four]

theorem dotProduct_mulVec_self {a : Matrix (Fin 4) (Fin 4) ℚ} (h : aᵀ * a = 1) (v : Fin 4 → ℚ) :
    (a *ᵥ v) ⬝ᵥ (a *ᵥ v) = v ⬝ᵥ v := by
  rw [dotProduct_mulVec, vecMul_mulVec, h, vecMul_one]

theorem turnX_mulVec_last (sin cos : ℚ) (v : Fin 4 → ℚ) :
    ((turnX sin cos).toMatrix *ᵥ v) 3 = v 3 := by
  simp [toMatrix_turnX, Matrix.mulVec, dotProduct, Fin.sum_univ_four]

theorem turnY_mulVec_last (sin cos : ℚ) (v : Fin 4 → ℚ) :
    ((turnY sin cos).toMatrix *ᵥ v) 3 = v 3 := by
  simp [toMatrix_turnY, Matrix.mulVec, dotProduct, Fin.sum_univ_four]

theorem shift_mulVec_last (p : Vec3 ℚ) (v : Fin 4 → ℚ) :
    ((shift p).toMatrix *ᵥ v) 3 = v 3 := by
  simp [toMatrix_shift, Matrix.mulVec, dotProduct, Fin.sum_univ_four]

theorem shift_mulVec_of_last {v : Fin 4 → ℚ} (p : Vec3 ℚ) (h : v 3 = 0) :
    (shift p).toMatrix *ᵥ v = v := by
  funext row
  rw [toMatrix_shift]
  fin_cases row <;> simp [Matrix.mulVec, dotProduct, Fin.sum_univ_four, h]

theorem toMatrix_placement (position : Vec3 ℚ) (yawSin yawCos pitchSin pitchCos : ℚ) :
    (placement position yawSin yawCos pitchSin pitchCos).toMatrix =
      (shift position).toMatrix * (turnY yawSin yawCos).toMatrix *
        (turnX pitchSin pitchCos).toMatrix := by
  rw [placement, toMatrix_mul, toMatrix_mul]

variable {yawSin yawCos pitchSin pitchCos : ℚ}

theorem sq_le_dotProduct_self (v : Fin 4 → ℚ) (k : Fin 4) : v k ^ 2 ≤ v ⬝ᵥ v := by
  have hsum (i : Fin 4) (_ : i ∈ Finset.univ) : 0 ≤ v i * v i := mul_self_nonneg (v i)
  rw [pow_two]
  exact Finset.single_le_sum hsum (Finset.mem_univ k)

/-- A vector with nothing in its last entry is only turned; any other keeps that entry. -/
theorem not_crushes_placement (position : Vec3 ℚ) (hyaw : yawSin ^ 2 + yawCos ^ 2 = 1)
    (hpitch : pitchSin ^ 2 + pitchCos ^ 2 = 1) :
    ¬(placement position yawSin yawCos pitchSin pitchCos).Crushes := by
  rintro ⟨k, v, hone, hzero, hsmall⟩
  obtain ⟨turned, hturned⟩ : ∃ w, w =
      (turnY yawSin yawCos).toMatrix *ᵥ ((turnX pitchSin pitchCos).toMatrix *ᵥ v) := ⟨_, rfl⟩
  have hlast : turned 3 = v 3 := by
    rw [hturned, turnY_mulVec_last, turnX_mulVec_last]
  have hlength : turned ⬝ᵥ turned = v ⬝ᵥ v := by
    rw [hturned, dotProduct_mulVec_self (turnY_orthogonal hyaw),
      dotProduct_mulVec_self (turnX_orthogonal hpitch)]
  rw [toMatrix_placement, ← mulVec_mulVec, ← mulVec_mulVec, ← hturned] at hsmall
  have hlarge : v k ^ 2 ≤ ((shift position).toMatrix *ᵥ turned) ⬝ᵥ
      ((shift position).toMatrix *ᵥ turned) := by
    obtain hdirection | rfl := (Fin.le_last k).lt_or_eq
    · rw [shift_mulVec_of_last position (hlast.trans (hzero 3 hdirection)), hlength]
      exact sq_le_dotProduct_self v k
    · refine (congrArg (· ^ 2) ?_).trans_le (sq_le_dotProduct_self _ 3)
      rw [shift_mulVec_last, hlast]
      rfl
  rw [hone] at hlarge
  linarith

/-- The turns are undone by their transposes, and the shift by the opposite one. -/
theorem placement_undone (position : Vec3 ℚ) (hyaw : yawSin ^ 2 + yawCos ^ 2 = 1)
    (hpitch : pitchSin ^ 2 + pitchCos ^ 2 = 1) :
    ((turnX pitchSin pitchCos).transpose * (turnY yawSin yawCos).transpose *
        shift ⟨-position.x, -position.y, -position.z⟩).toMatrix *
      (placement position yawSin yawCos pitchSin pitchCos).toMatrix = 1 := by
  let x := (turnX pitchSin pitchCos).toMatrix
  let y := (turnY yawSin yawCos).toMatrix
  let there := (shift position).toMatrix
  let back := (shift ⟨-position.x, -position.y, -position.z⟩).toMatrix
  rw [toMatrix_placement, toMatrix_mul, toMatrix_mul, toMatrix_transpose, toMatrix_transpose]
  calc xᵀ * yᵀ * back * (there * y * x)
      = xᵀ * (yᵀ * ((back * there) * (y * x))) := by simp only [Matrix.mul_assoc]
    _ = xᵀ * ((yᵀ * y) * x) := by rw [shift_back, Matrix.one_mul, Matrix.mul_assoc]
    _ = xᵀ * x := by rw [turnY_orthogonal hyaw, Matrix.one_mul]
    _ = 1 := turnX_orthogonal hpitch

/-- On fractions, what `inverse?` gives is an inverse on either side, and it gives one for every
camera that the sines and cosines of two angles turn: the turns and the shift undone. The matrices
of `update` are the same expressions on doubles, so that its identity stands for no camera. -/
theorem inverse?_correct :
    (∀ m n : Matrix4 ℚ, m.inverse? = some n → m * n = identity ∧ n * m = identity) ∧
    (∀ (position : Vec3 ℚ) (yawSin yawCos pitchSin pitchCos : ℚ),
      yawSin ^ 2 + yawCos ^ 2 = 1 → pitchSin ^ 2 + pitchCos ^ 2 = 1 →
      (placement position yawSin yawCos pitchSin pitchCos).inverse? =
        some ((turnX pitchSin pitchCos).transpose * (turnY yawSin yawCos).transpose *
          shift ⟨-position.x, -position.y, -position.z⟩)) ∧
    ∀ c : Camera,
      c.update.camera = placement c.position (radians c.yaw).sin (radians c.yaw).cos
        (radians c.pitch).sin (radians c.pitch).cos ∧
      c.update.view = c.update.camera.inverse?.getD identity := by
  refine ⟨fun m n h => ?_, fun position yawSin yawCos pitchSin pitchCos hyaw hpitch => ?_,
    fun c => ⟨rfl, rfl⟩⟩
  · have hleft := inverse?_mul h
    exact ⟨mul_eq_identity_iff.mpr (mul_eq_one_comm.mp hleft), mul_eq_identity_iff.mpr hleft⟩
  · have hsome := inverse?_isSome (not_crushes_placement position hyaw hpitch)
    obtain ⟨n, hn⟩ := Option.isSome_iff_exists.mp hsome
    have hundone := placement_undone position hyaw hpitch
    have hunique := left_inv_eq_right_inv (inverse?_mul hn) (mul_eq_one_comm.mp hundone)
    rw [hn, toMatrix_injective hunique]

/-- No column of the first matrix has its pivot on the diagonal from the start. -/
theorem inverse?_correct_swapping :
    let m : Matrix4 ℚ := ofRows #v[0, 2, 1, 0] #v[1, 0, 0, 3] #v[0, 0, 0, 4] #v[0, 0, 1 / 2, 0]
    let n : Matrix4 ℚ :=
      ofRows #v[0, 1, -3 / 4, 0] #v[1 / 2, 0, 0, -1] #v[0, 0, 0, 2] #v[0, 0, 1 / 4, 0]
    let position : Vec3 ℚ := ⟨10, -2, 7⟩
    (m * n = identity ∧ n * m = identity) ∧
      (placement position (3 / 5) (4 / 5) (-5 / 13) (12 / 13)).inverse? =
        some ((turnX (-5 / 13 : ℚ) (12 / 13)).transpose * (turnY (3 / 5 : ℚ) (4 / 5)).transpose *
          shift ⟨-position.x, -position.y, -position.z⟩) :=
  ⟨inverse?_correct.1 _ _ (by decide +kernel),
    inverse?_correct.2.1 _ (3 / 5) (4 / 5) (-5 / 13) (12 / 13) (by norm_num) (by norm_num)⟩

end Camera

end GlPlayback.Matrix4
