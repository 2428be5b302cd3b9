import Mathlib.LinearAlgebra.Matrix.Block
import CellFormula.Proofs.ExactInverse

/-!
# Determinants in exact arithmetic

On rational numbers the elimination that computes determinants makes no rounding errors, and then
what it computes is the determinant, for matrices of every size. If a pivot counts as zero on the
way it answers zero instead, whatever the determinant is.

## What an elimination keeps

An elimination that only goes downwards leaves a triangular matrix behind, whose determinant is the
product of its diagonal. On the way there every exchange of rows changes the sign, and nothing else
changes anything. So the number that is computed, times the determinant of what is left of the
matrix, is the determinant of the original times the diagonal so far: that is the invariant
`Lowers`. It speaks of no signs, because the number carries them.

## Two eliminations with the same pivots

The elimination that computes inverses divides the row of each pivot by it and clears the column
above the pivot too. None of that is ever looked at again when a pivot is chosen: from the current
row and column on, the two eliminations have made the same of the matrix (`AgreeFrom`). So they
choose the same pivots and stop at the same ones.

## Main definitions

* `Matrix.echelon`, `Matrix.echelonPivot` — what elimination has come to, and the pivot that it
  finds there
* `Matrix.AgreeFrom` — two matrices that agree in what is left of them
* `Matrix.Lowers` — the state of an elimination before a column

## Main results

* `Matrix.agreeFrom_working`, `Matrix.echelonPivot_eq` — the same pivots
* `Matrix.det_pivoted`, `Matrix.det_clearBelow` — what the steps do to the determinant
* `Matrix.Lowers.pivoted`, `Matrix.Lowers.clear`, `Matrix.Lowers.run` — what they keep
* `Matrix.determinant_is_exact` — what is computed
-/

namespace CellFormula

namespace Matrix

open PivotNumber (atMost magnitude)

/-! ### Rounds -/

section

variable {α : Type} [PivotNumber α] {a b m : Matrix α} {i j k p n : Nat} {limit det : α}

/-- What the elimination for the determinant has made of the matrix before column `k`. -/
def echelon (a : Matrix α) : Nat → Matrix α
  | 0 => a
  | k + 1 => ((a.echelon k).pivoted k).clearBelow k

/-- The pivot that it finds in column `k`. -/
def echelonPivot (a : Matrix α) (k : Nat) : α :=
  (a.echelon k).entry ((a.echelon k).pivotRow k) k

/-- The product of the pivots, with its sign changed if column `k` makes rows change places. -/
def turned (m : Matrix α) (k : Nat) (det : α) : α := if m.pivotRow k = k then det else -det

/-- One round of the elimination. -/
theorem determinantFrom_echelon (a : Matrix α) (k : Nat) (columns : List Nat) (det : α) :
    determinantFrom limit (k :: columns) (a.echelon k) det
      = if atMost (magnitude (a.echelonPivot k)) limit then 0
        else determinantFrom limit columns (a.echelon (k + 1))
          ((a.echelon k).turned k det * a.echelonPivot k) := by
  rw [determinantFrom, echelon, pivoted, turned, echelonPivot]
  split
  · rfl
  · split <;> rfl

theorem rows_pivoted : (m.pivoted k).rows = m.rows := by
  unfold pivoted
  split <;> rfl

theorem cols_pivoted : (m.pivoted k).cols = m.cols := by
  unfold pivoted
  split <;> rfl

theorem exchanged_self (k i : Nat) : exchanged k k i = i := by
  unfold exchanged
  split <;> omega

/-- An exchange of row `k` with a row further down brings no row above row `k`. -/
theorem le_exchanged (hj : j ≤ k) (hkp : k ≤ p) (hi : j ≤ i) : j ≤ exchanged k p i := by
  unfold exchanged
  split
  · omega
  · split <;> omega

theorem entry_pivoted (hi : i < m.rows) (hj : j < m.cols) :
    (m.pivoted k).entry i j = m.entry (exchanged k (m.pivotRow k) i) j := by
  unfold pivoted
  split
  · next hsame => rw [hsame, exchanged_self]
  · exact entry_exchangeRows hi hj

/-! ### What is left of two matrices -/

/-- The matrices have `n` rows and columns, and they agree from row and column `k` on. -/
structure AgreeFrom (a b : Matrix α) (n k : Nat) : Prop where
  rows : a.rows = n
  cols : a.cols = n
  rows' : b.rows = n
  cols' : b.cols = n
  entry : ∀ i, k ≤ i → i < n → ∀ j, k ≤ j → j < n → a.entry i j = b.entry i j

namespace AgreeFrom

/-- **Pivots are chosen by what is left of the matrix.** -/
theorem pivotRow_eq (h : AgreeFrom a b n k) (hk : k < n) : a.pivotRow k = b.pivotRow k := by
  rw [pivotRow, pivotRow, h.rows, h.rows']
  exact searchPivot_congr hk fun i hki hi => h.entry i hki hi k le_rfl hk

theorem pivoted (h : AgreeFrom a b n k) (hk : k < n) :
    AgreeFrom (a.pivoted k) (b.pivoted k) n k where
  rows := rows_pivoted.trans h.rows
  cols := cols_pivoted.trans h.cols
  rows' := rows_pivoted.trans h.rows'
  cols' := cols_pivoted.trans h.cols'
  entry i hki hi j hkj hj := by
    obtain ⟨hkp, hp⟩ := pivotRow_bounds (h.rows'.symm ▸ hk : k < b.rows)
    rw [h.rows'] at hp
    rw [entry_pivoted (h.rows.symm ▸ hi) (h.cols.symm ▸ hj),
      entry_pivoted (h.rows'.symm ▸ hi) (h.cols'.symm ▸ hj), h.pivotRow_eq hk]
    exact h.entry _ (le_exchanged le_rfl hkp hki) (exchanged_lt hk hp hi) j hkj hj

end AgreeFrom

end

variable {a b m : Matrix ℚ} {i j k n : Nat} {limit det : ℚ}

/-! ### The same pivots -/

/-- One entry after column `k` has been cleared below the diagonal. A zero factor makes no
exception. -/
theorem entry_clearBelow (hi : i < m.rows) (hj : j < m.cols) :
    (m.clearBelow k).entry i j
      = if k < i ∧ k ≤ j then m.entry i j - m.entry i k / m.entry k k * m.entry k j
        else m.entry i j := by
  rw [clearBelow, entry_tabulate _ hi hj, clearedBelow]
  by_cases hzero : m.entry i k / m.entry k k = 0
  · simp [hzero]
  · have hfactor : PivotNumber.isZero (m.entry i k / m.entry k k) = false := decide_eq_false hzero
    simp only [hfactor, and_true]

/-- A cleared column is the same from the next row and column on, whether its row has been divided
by the pivot or not. -/
theorem AgreeFrom.clear (h : AgreeFrom a b n k) (hk : k < n) :
    AgreeFrom (a.clearBelow k) (clearColumn b b k) n (k + 1) where
  rows := h.rows
  cols := h.cols
  rows' := h.rows'
  cols' := h.cols'
  entry i hki hi j hkj hj := by
    have hne : i ≠ k := by omega
    rw [entry_clearBelow (h.rows.symm ▸ hi) (h.cols.symm ▸ hj), if_pos ⟨hki, by omega⟩,
      entry_clearColumn (h.rows'.symm ▸ hi) (h.cols'.symm ▸ hj), if_neg hne,
      h.entry i (by omega) hi j (by omega) hj, h.entry i (by omega) hi k le_rfl hk,
      h.entry k le_rfl hk k le_rfl hk, h.entry k le_rfl hk j (by omega) hj]
    ring

/-- **The two eliminations make the same of what is left of the matrix.** -/
theorem agreeFrom_working (hrows : a.rows = n) (hcols : a.cols = n) (hk : k ≤ n) :
    AgreeFrom (a.echelon k) (a.working k) n k := by
  induction k with
  | zero => exact ⟨hrows, hcols, hrows, hcols, fun _ _ _ _ _ _ => rfl⟩
  | succ k ih => exact ((ih (by omega)).pivoted (by omega)).clear (by omega)

/-- **They find the same pivots.** -/
theorem echelonPivot_eq (hrows : a.rows = n) (hcols : a.cols = n) (hk : k < n) :
    a.echelonPivot k = a.pivot k := by
  have hagree := agreeFrom_working hrows hcols hk.le
  obtain ⟨hkp, hp⟩ := pivotRow_bounds (hagree.rows'.symm ▸ hk : k < (a.working k).rows)
  rw [hagree.rows'] at hp
  rw [echelonPivot, hagree.pivotRow_eq hk]
  exact hagree.entry _ hkp hp k le_rfl hk

/-! ### What the steps do to the determinant -/

/-- Two rows that change places change the sign. -/
theorem det_pivoted (hrows : m.rows = n) (hcols : m.cols = n) (hk : k < n) :
    m.turned k det * ((m.pivoted k).table n n).det = det * (m.table n n).det := by
  obtain ⟨-, hp⟩ := pivotRow_bounds (hrows.symm ▸ hk : k < m.rows)
  rw [hrows] at hp
  rw [turned, pivoted]
  split
  · rfl
  · next hother =>
    have hne : (⟨k, hk⟩ : Fin n) ≠ ⟨m.pivotRow k, hp⟩ := fun h => hother (Fin.mk.inj h).symm
    rw [table_exchangeRows hrows hcols ⟨k, hk⟩ ⟨m.pivotRow k, hp⟩, Matrix.det_permute,
      Equiv.Perm.sign_swap hne]
    push_cast
    ring

/-- Multiples of a row that are taken from others leave the determinant as it is. Columns that are
done with stay, and for them that row has nothing to take. -/
theorem det_clearBelow (hrows : m.rows = n) (hcols : m.cols = n) (hk : k < n)
    (hdone : ∀ j < k, m.entry k j = 0) :
    ((m.clearBelow k).table n n).det = (m.table n n).det := by
  refine Matrix.det_eq_of_forall_row_eq_smul_add_const
    (fun i => if k < i then -(m.entry i k / m.entry k k) else 0) ⟨k, hk⟩ (if_neg (lt_irrefl k))
    fun i j => ?_
  rw [table_apply, entry_clearBelow (hrows.symm ▸ i.isLt) (hcols.symm ▸ j.isLt)]
  simp only [table_apply]
  by_cases hi : k < i
  · by_cases hj : k ≤ j
    · rw [if_pos ⟨hi, hj⟩, if_pos hi]
      ring
    · rw [if_neg fun h => hj h.2, hdone j (not_le.mp hj), mul_zero, add_zero]
  · rw [if_neg fun h => hi h.1, if_neg hi, zero_mul, add_zero]

/-! ### Elimination, column by column -/

/-- The columns before `k` are done with: there the working matrix `m` is triangular and has no
zeros on its diagonal. And what `det` is short of the determinant of `a` is the part of the
determinant of `m` that is not on the diagonal so far. -/
structure Lowers (a : Matrix ℚ) (n k : Nat) (m : Matrix ℚ) (det : ℚ) : Prop where
  rows : m.rows = n
  cols : m.cols = n
  volume : det * (m.table n n).det = (a.table n n).det * ∏ j ∈ Finset.range k, m.entry j j
  ne_zero : det ≠ 0
  diagonal : ∀ j < k, m.entry j j ≠ 0
  cleared : ∀ j < k, ∀ i < n, j < i → m.entry i j = 0

/-- Before the first column the product of the pivots is one. -/
theorem lowers_self (hrows : a.rows = n) (hcols : a.cols = n) : Lowers a n 0 a 1 where
  rows := hrows
  cols := hcols
  volume := by rw [Finset.prod_range_zero, one_mul, mul_one]
  ne_zero := one_ne_zero
  diagonal _ hj := absurd hj (Nat.not_lt_zero _)
  cleared _ hj := absurd hj (Nat.not_lt_zero _)

namespace Lowers

theorem pivoted (h : Lowers a n k m det) (hk : k < n) :
    Lowers a n k (m.pivoted k) (m.turned k det) := by
  obtain ⟨hkp, hp⟩ := pivotRow_bounds (h.rows.symm ▸ hk : k < m.rows)
  rw [h.rows] at hp
  have hrow : ∀ i < n, ∀ j < k,
      (m.pivoted k).entry i j = m.entry (exchanged k (m.pivotRow k) i) j := fun i hi j hj =>
    entry_pivoted (h.rows.symm ▸ hi) (by rw [h.cols]; omega)
  have hdiagonal : ∀ j < k, (m.pivoted k).entry j j = m.entry j j := fun j hj => by
    rw [hrow j (by omega) j hj, (exchanged_eq_iff hj hkp).mpr rfl]
  refine ⟨rows_pivoted.trans h.rows, cols_pivoted.trans h.cols, ?_, ?_, ?_, ?_⟩
  · rw [det_pivoted h.rows h.cols hk, h.volume]
    refine congrArg _ (Finset.prod_congr rfl fun j hj => ?_)
    exact (hdiagonal j (Finset.mem_range.mp hj)).symm
  · unfold turned
    split
    · exact h.ne_zero
    · exact neg_ne_zero.mpr h.ne_zero
  · intro j hj
    rw [hdiagonal j hj]
    exact h.diagonal j hj
  · intro j hj i hi hji
    rw [hrow i hi j hj]
    exact h.cleared j hj _ (exchanged_lt hk hp hi) (le_exchanged hj hkp hji)

theorem clear (h : Lowers a n k m det) (hk : k < n) (hpivot : m.entry k k ≠ 0) :
    Lowers a n (k + 1) (m.clearBelow k) (det * m.entry k k) := by
  have hentry : ∀ i < n, ∀ j < n, (m.clearBelow k).entry i j
      = if k < i ∧ k ≤ j then m.entry i j - m.entry i k / m.entry k k * m.entry k j
        else m.entry i j := fun i hi j hj =>
    entry_clearBelow (h.rows.symm ▸ hi) (h.cols.symm ▸ hj)
  have hdiagonal : ∀ j < k + 1, (m.clearBelow k).entry j j = m.entry j j := fun j hj => by
    rw [hentry j (by omega) j (by omega), if_neg (by omega)]
  refine ⟨h.rows, h.cols, ?_, mul_ne_zero h.ne_zero hpivot, ?_, ?_⟩
  · rw [det_clearBelow h.rows h.cols hk fun j hj => h.cleared j hj k hk hj,
      Finset.prod_congr rfl fun j hj => hdiagonal j (Finset.mem_range.mp hj),
      Finset.prod_range_succ, ← mul_assoc, ← h.volume]
    ring
  · intro j hj
    rw [hdiagonal j hj]
    obtain rfl | hjk : j = k ∨ j < k := by omega
    · exact hpivot
    · exact h.diagonal j hjk
  · intro j hj i hi hji
    rw [hentry i hi j (by omega)]
    obtain rfl | hjk : j = k ∨ j < k := by omega
    · rw [if_pos ⟨hji, le_rfl⟩, div_mul_cancel₀ _ hpivot, sub_self]
    · rw [if_neg (by omega)]
      exact h.cleared j hjk i hi hji

/-- A round of the elimination keeps the invariant, if its pivot is not zero. -/
theorem step (h : Lowers a n k (a.echelon k) det) (hk : k < n) (hpivot : a.echelonPivot k ≠ 0) :
    Lowers a n (k + 1) (a.echelon (k + 1)) ((a.echelon k).turned k det * a.echelonPivot k) := by
  have hdiagonal : ((a.echelon k).pivoted k).entry k k = a.echelonPivot k := by
    rw [entry_pivoted (h.rows.symm ▸ hk) (h.cols.symm ▸ hk), exchanged, if_pos rfl]
    rfl
  have hnext := (h.pivoted hk).clear hk (hdiagonal.symm ▸ hpivot)
  rwa [hdiagonal] at hnext

/-- **A run that meets no small pivot** gets behind the last column. The induction is on the columns
that are left. -/
theorem run {count : Nat} (h : Lowers a n k (a.echelon k) det) (hn : k + count = n)
    (hpivots : ∀ j, k ≤ j → j < n → a.tolerance < |a.echelonPivot j|) :
    Lowers a n n (a.echelon n)
      (determinantFrom a.tolerance (List.range' k count) (a.echelon k) det) := by
  induction count generalizing k det with
  | zero =>
    obtain rfl : k = n := hn
    exact h
  | succ count ih =>
    have hk : k < n := by omega
    have hlarge := hpivots k le_rfl hk
    have hpivot : a.echelonPivot k ≠ 0 :=
      abs_pos.mp (a.zero_le_tolerance.trans_lt hlarge)
    have hgoes : ¬ atMost (magnitude (a.echelonPivot k)) a.tolerance = true := by
      rw [magnitude_eq_abs]
      exact fun hsmall => absurd (of_decide_eq_true hsmall) (not_le.mpr hlarge)
    rw [List.range'_succ, determinantFrom_echelon, if_neg hgoes]
    exact ih (h.step hk hpivot) (by omega) fun j hj => hpivots j (by omega)

/-- Behind the last column the matrix is triangular: its determinant cancels with the diagonal. -/
theorem eq_det (h : Lowers a n n m det) : det = (a.table n n).det := by
  have htriangular : (m.table n n).IsUpperTriangular := fun i j hji =>
    h.cleared j j.isLt i i.isLt hji
  have hdet : (m.table n n).det = ∏ j ∈ Finset.range n, m.entry j j := by
    rw [Matrix.det_of_isUpperTriangular htriangular, Finset.prod_range]
    rfl
  have hne : (∏ j ∈ Finset.range n, m.entry j j) ≠ 0 :=
    Finset.prod_ne_zero_iff.mpr fun j hj => h.diagonal j (Finset.mem_range.mp hj)
  have hvolume := h.volume
  rw [hdet] at hvolume
  exact mul_right_cancel₀ hne hvolume

end Lowers

/-- A run that meets a small pivot answers zero. -/
theorem determinantFrom_eq_zero {count : Nat}
    (hsmall : ∃ j, k ≤ j ∧ j < k + count ∧ |a.echelonPivot j| ≤ a.tolerance) :
    determinantFrom a.tolerance (List.range' k count) (a.echelon k) det = 0 := by
  induction count generalizing k det with
  | zero => omega
  | succ count ih =>
    rw [List.range'_succ, determinantFrom_echelon, magnitude_eq_abs]
    split
    · rfl
    · next hlarge =>
      obtain ⟨j, hkj, hj, hsmallj⟩ := hsmall
      have hne : j ≠ k := by
        rintro rfl
        exact hlarge (decide_eq_true hsmallj)
      exact ih ⟨j, by omega, by omega, hsmallj⟩

/-! ### Determinants -/

/-- **A computed determinant is the determinant**, and it is not zero, if every pivot exceeds the
tolerance. -/
theorem determinant_of_pivots (hsquare : a.rows = a.cols)
    (hpivots : ∀ k < a.rows, a.tolerance < |a.echelonPivot k|) :
    a.determinant = .ok (a.table a.rows a.rows).det ∧ (a.table a.rows a.rows).det ≠ 0 := by
  have hlast := (lowers_self (a := a) rfl hsquare.symm).run (Nat.zero_add _) fun j _ => hpivots j
  have hdet := hlast.eq_det
  refine ⟨?_, hdet ▸ hlast.ne_zero⟩
  rw [determinant_eq_determinantFrom hsquare, List.range_eq_range', ← hdet]
  rfl

theorem determinant_of_small_pivot (hsquare : a.rows = a.cols)
    (hsmall : ∃ k < a.rows, |a.echelonPivot k| ≤ a.tolerance) : a.determinant = .ok 0 := by
  obtain ⟨k, hk, hsmallk⟩ := hsmall
  rw [determinant_eq_determinantFrom hsquare, List.range_eq_range']
  exact congrArg Except.ok (determinantFrom_eq_zero ⟨k, Nat.zero_le k, by omega, hsmallk⟩)

/-- **Determinants are exact, and agree with inverses on what is singular.** A square matrix whose
pivots all exceed the tolerance gets its determinant; if one of them does not, it gets zero. The
pivots are those of the elimination for the inverse, and the computed determinant is zero for those
matrices that count as singular there, and for no others. -/
theorem determinant_is_exact (a : Matrix ℚ) (hsquare : a.rows = a.cols) :
    ((∀ k < a.rows, a.tolerance < |a.echelonPivot k|) →
      a.determinant = .ok (a.table a.rows a.rows).det) ∧
    ((∃ k < a.rows, |a.echelonPivot k| ≤ a.tolerance) → a.determinant = .ok 0) ∧
    (∀ k < a.rows, a.echelonPivot k = a.pivot k) ∧
    (a.determinant = .ok 0 ↔ a.inverse = .error .singular) := by
  have hsame : ∀ k < a.rows, a.echelonPivot k = a.pivot k := fun k =>
    echelonPivot_eq rfl hsquare.symm
  refine ⟨fun hpivots => (determinant_of_pivots hsquare hpivots).1,
    determinant_of_small_pivot hsquare, hsame, ?_⟩
  have hsingular : a.inverse = .error .singular ↔
      ∃ k < a.rows, |a.echelonPivot k| ≤ a.tolerance := by
    rw [inverse_eq_singular_iff hsquare]
    refine exists_congr fun k => and_congr_right fun hk => ?_
    rw [hasPivot_iff, not_lt, hsame k hk]
  rw [hsingular]
  refine ⟨fun hzero => ?_, determinant_of_small_pivot hsquare⟩
  by_contra hnone
  have hpivots : ∀ k < a.rows, a.tolerance < |a.echelonPivot k| := fun k hk =>
    not_le.mp fun hsmall => hnone ⟨k, hk, hsmall⟩
  obtain ⟨hdet, hne⟩ := determinant_of_pivots hsquare hpivots
  rw [hdet] at hzero
  exact hne (Except.ok.inj hzero)

/-- Three rows, the first two of which have to change places. -/
theorem determinant_is_exact_exchange :
    let a : Matrix ℚ := ⟨3, 3, #[0, 1, 2, 1, 0, 3, 4, -3, 8]⟩
    a.rows = a.cols ∧ (∀ k < a.rows, a.tolerance < |a.echelonPivot k|) ∧
      a.determinant = .ok (a.table 3 3).det ∧ a.determinant = .ok (-2) := by
  intro a
  have hpivots : ∀ k < a.rows, a.tolerance < |a.echelonPivot k| := by decide +kernel
  exact ⟨rfl, hpivots, (determinant_is_exact a rfl).1 hpivots, by decide +kernel⟩

end Matrix

end CellFormula
