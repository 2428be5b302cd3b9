import Mathlib.LinearAlgebra.Matrix.NonsingularInverse
import CellFormula.Proofs.MatrixEntries

/-!
# Inverses in exact arithmetic

On rational numbers the elimination that computes inverses makes no rounding errors, and then what
it computes is an inverse, for matrices of every size and whatever rows have to change places.

## Two matrices, one product

An elimination works on two matrices at once: on the one that is to be inverted, until nothing but
ones on the diagonal is left of it, and on the unit matrix. Both kinds of steps, exchanging two rows
and clearing a column, multiply both matrices by the same table from the left. So the second matrix
is the product of all steps so far, and it takes the original to the first one. That, and the
columns that are done with, is the invariant `Reduces`.

## Pivots

A pivot that does not count as zero is not zero, because the bound is not negative. The converse
fails: an invertible matrix whose pivots differ too much in size counts as singular.

## Main definitions

* `Matrix.working`, `Matrix.pivot` — what elimination has come to, and the pivot that it finds there
* `Matrix.Reduces` — the state of an elimination before a column
* `Matrix.HasInverse` — inverse on both sides

## Main results

* `Matrix.exists_inverse_iff`, `Matrix.inverse_eq_singular_iff` — elimination ends where a pivot
  counts as zero
* `Matrix.table_exchangeRows`, `Matrix.table_clearColumn` — steps as products
* `Matrix.Reduces.exchange`, `Matrix.Reduces.clear`, `Matrix.Reduces.run` — what they keep
* `Matrix.computed_inverse_inverts` — what is computed
-/

namespace CellFormula

namespace Matrix

open PivotNumber (atMost larger magnitude negligibleShare)

/-! ### Rounds -/

section

variable {α : Type} [PivotNumber α] {a b m inv : Matrix α} {k n : Nat} {limit : α}

/-- The matrix with the pivot of the column on the diagonal. -/
def pivoted (m : Matrix α) (k : Nat) : Matrix α :=
  if m.pivotRow k = k then m else m.exchangeRows k (m.pivotRow k)

/-- What elimination has made of the matrix before it comes to column `k`. -/
def working (a : Matrix α) : Nat → Matrix α
  | 0 => a
  | k + 1 => clearColumn ((a.working k).pivoted k) ((a.working k).pivoted k) k

/-- The pivot of column `k`. -/
def pivot (a : Matrix α) (k : Nat) : α := (a.working k).entry ((a.working k).pivotRow k) k

/-- The pivot of column `k` does not count as zero. -/
def HasPivot (a : Matrix α) (k : Nat) : Prop := ¬ atMost (magnitude (a.pivot k)) a.tolerance = true

/-- **Elimination ends where a pivot counts as zero, and nowhere else.** -/
theorem exists_inverseFrom_iff {count : Nat} (k : Nat) (inv : Matrix α) :
    (∃ b, inverseFrom a.tolerance (List.range' k count) (a.working k) inv = .ok b) ↔
      ∀ j, k ≤ j → j < k + count → a.HasPivot j := by
  induction count generalizing k inv with
  | zero => exact ⟨fun _ j hj hj' => absurd hj (Nat.not_le.mpr hj'), fun _ => ⟨inv, rfl⟩⟩
  | succ count ih =>
    have hfirst : (∀ j, k ≤ j → j < k + (count + 1) → a.HasPivot j) ↔
        a.HasPivot k ∧ ∀ j, k + 1 ≤ j → j < k + 1 + count → a.HasPivot j := by
      refine ⟨fun h => ⟨h k le_rfl (by omega), fun j hj hj' => h j (by omega) (by omega)⟩, ?_⟩
      rintro ⟨hk, h⟩ j hj hj'
      obtain rfl | hlt : k = j ∨ k + 1 ≤ j := by omega
      · exact hk
      · exact h j hlt (by omega)
    have hnext := ih (k + 1)
    rw [working, pivoted] at hnext
    rw [List.range'_succ, inverseFrom, hfirst]
    by_cases hzero : atMost (magnitude (a.pivot k)) a.tolerance = true
    · have herror : ¬ a.HasPivot k := fun h => h hzero
      simp only [pivot] at hzero
      simp only [hzero, if_true, herror, false_and, iff_false]
      rintro ⟨b, hb⟩
      cases hb
    · have hpivot : a.HasPivot k := hzero
      simp only [pivot] at hzero
      simp only [if_neg hzero, hpivot, true_and]
      split
      · next hsame =>
        rw [if_pos hsame] at hnext
        exact hnext _
      · next hother =>
        rw [if_neg hother] at hnext
        exact hnext _

/-- The only failure of an elimination is a pivot that counts as zero. -/
theorem eq_singular_of_inverseFrom {e : MatrixError} {columns : List Nat}
    (h : inverseFrom limit columns m inv = .error e) : e = .singular := by
  induction columns generalizing m inv with
  | nil => cases h
  | cons k columns ih =>
    rw [inverseFrom] at h
    simp only at h
    split at h
    · cases h
      rfl
    · split at h
      · exact ih h
      · exact ih h

theorem identity_eq_ok (hn : 0 < n) :
    (identity n : Except MatrixError (Matrix α))
      = .ok (tabulate n n fun i j => if i = j then 1 else 0) :=
  if_neg (by omega)

/-- A square matrix gets an inverse, or it counts as singular. -/
theorem inverse_eq_ok_or_singular (hn : 0 < a.rows) (hsquare : a.rows = a.cols) :
    (∃ b, a.inverse = .ok b) ∨ a.inverse = .error .singular := by
  cases h : a.inverse with
  | ok b => exact .inl ⟨b, rfl⟩
  | error e =>
    rw [inverse_eq_inverseFrom hsquare, identity_eq_ok hn] at h
    exact .inr (congrArg Except.error (eq_singular_of_inverseFrom h))

/-- It gets one if no pivot counts as zero. -/
theorem exists_inverse_iff (hn : 0 < a.rows) (hsquare : a.rows = a.cols) :
    (∃ b, a.inverse = .ok b) ↔ ∀ k < a.rows, a.HasPivot k := by
  rw [inverse_eq_inverseFrom hsquare, identity_eq_ok hn, List.range_eq_range']
  refine (exists_inverseFrom_iff 0 _).trans ?_
  simp only [Nat.zero_le, forall_const, Nat.zero_add]

/-- **A square matrix counts as singular where a pivot counts as zero**, and for no other reason. -/
theorem inverse_eq_singular_iff (hsquare : a.rows = a.cols) :
    a.inverse = .error .singular ↔ ∃ k < a.rows, ¬ a.HasPivot k := by
  obtain hzero | hn := Nat.eq_zero_or_pos a.rows
  · -- Without rows there is no unit matrix to begin with.
    have hempty : a.inverse = .error .empty := by
      rw [inverse, if_pos hsquare, identity, generate, if_pos (.inl hzero)]
      rfl
    simp [hempty, hzero]
  · have hfound := exists_inverse_iff hn hsquare
    rcases inverse_eq_ok_or_singular hn hsquare with ⟨b, hb⟩ | hsingular
    · simpa [hb] using hfound
    · simpa [hsingular] using hfound

end

variable {a b m inv source : Matrix ℚ} {i j k p q n : Nat} {limit : ℚ}

/-! ### Steps as products -/

/-- Exchanging rows exchanges the rows of the table. -/
theorem table_exchangeRows {rows cols : Nat} (hrows : m.rows = rows) (hcols : m.cols = cols)
    (p q : Fin rows) :
    (m.exchangeRows p q).table rows cols = (m.table rows cols).submatrix (Equiv.swap p q) id := by
  subst hrows hcols
  ext i j
  rw [table_apply, entry_exchangeRows i.isLt j.isLt]
  show _ = m.entry (Equiv.swap p q i) j
  rw [exchanged, Equiv.swap_apply_def]
  simp only [Fin.ext_iff]
  split
  · rfl
  · split <;> rfl

/-- One entry after column `k` of the source has been cleared. A zero factor makes no exception. -/
theorem entry_clearColumn (hi : i < m.rows) (hj : j < m.cols) :
    (clearColumn source m k).entry i j
      = if i = k then m.entry k j / source.entry k k
        else m.entry i j - source.entry i k * (m.entry k j / source.entry k k) := by
  rw [clearColumn, entry_tabulate _ hi hj, clearedElsewhere]
  split
  · rfl
  · split
    · next hzero =>
      have h0 : source.entry i k = 0 := of_decide_eq_true hzero
      rw [h0, zero_mul, sub_zero]
    · rfl

/-- What the step that clears a column of the source multiplies by: the row of the pivot is divided
by it, and a multiple of that row is taken from each other row. -/
def columnStep (source : Matrix ℚ) (k : Fin n) :=
  Matrix.of fun (i l : Fin n) =>
    if i = k then if l = k then 1 / source.entry k k else 0
    else (if l = i then 1 else 0) - if l = k then source.entry i k / source.entry k k else 0

/-- Clearing a column of the source multiplies by the step for that column. -/
theorem table_clearColumn {cols : Nat} (hrows : m.rows = n) (hcols : m.cols = cols) (k : Fin n) :
    (clearColumn source m k).table n cols = source.columnStep k * m.table n cols := by
  subst hrows hcols
  ext i j
  rw [table_apply, entry_clearColumn i.isLt j.isLt, Matrix.mul_apply]
  simp only [columnStep, Matrix.of_apply, table_apply, Fin.val_inj]
  by_cases hi : i = k
  · simp only [if_pos hi, ite_mul, zero_mul, Finset.sum_ite_eq', Finset.mem_univ, if_true]
    ring
  · simp only [if_neg hi, sub_mul, ite_mul, one_mul, zero_mul, Finset.sum_sub_distrib,
      Finset.sum_ite_eq', Finset.mem_univ, if_true]
    ring

/-! ### Pivots that do not count as zero -/

theorem zero_le_tolerance (m : Matrix ℚ) : 0 ≤ m.tolerance := by
  have hsize : (0 : ℚ) ≤ m.cells.foldl (fun size x => larger size (magnitude x)) 0 := by
    rw [← Array.foldl_toList]
    refine List.foldlRecOn (motive := fun size : ℚ => 0 ≤ size) _ _ le_rfl fun size hsize x _ => ?_
    show 0 ≤ ite (size ≤ magnitude x) (magnitude x) size
    split
    · next hle => exact hsize.trans hle
    · exact hsize
  exact mul_nonneg hsize (by norm_num [negligibleShare])

theorem magnitude_eq_abs (x : ℚ) : magnitude x = |x| := by
  show (if 0 ≤ x then x else -x) = |x|
  split
  · next hx => exact (abs_of_nonneg hx).symm
  · next hx => exact (abs_of_neg (not_le.mp hx)).symm

theorem hasPivot_iff : a.HasPivot k ↔ a.tolerance < |a.pivot k| := by
  rw [HasPivot, magnitude_eq_abs, ← not_le]
  exact not_congr decide_eq_true_iff

theorem ne_zero_of_not_atMost {x : ℚ} (hlimit : 0 ≤ limit)
    (h : ¬ atMost (magnitude x) limit = true) : x ≠ 0 := by
  rintro rfl
  exact h (decide_eq_true hlimit)

/-! ### Elimination, column by column -/

/-- The columns before `k` are done with: there the working matrix `m` has ones on the diagonal and
zeros elsewhere. And `inv` is the product of all steps so far, so it takes the table of `a` to that
of `m`. -/
structure Reduces (a : Matrix ℚ) (n k : Nat) (m inv : Matrix ℚ) : Prop where
  rows : m.rows = n
  cols : m.cols = n
  invRows : inv.rows = n
  invCols : inv.cols = n
  wellFormed : inv.WellFormed
  applied : inv.table n n * a.table n n = m.table n n
  cleared : ∀ i < n, ∀ j < k, m.entry i j = if i = j then 1 else 0

/-- An exchange with a row further down leaves the columns alone that are done with. -/
theorem exchanged_eq_iff (hj : j < k) (hp : k ≤ p) : exchanged k p i = j ↔ i = j := by
  unfold exchanged
  split
  · omega
  · split
    · omega
    · exact Iff.rfl

namespace Reduces

theorem exchange (h : Reduces a n k m inv) (hk : k < n) (hkp : k ≤ p) (hp : p < n) :
    Reduces a n k (m.exchangeRows k p) (inv.exchangeRows k p) where
  rows := h.rows
  cols := h.cols
  invRows := h.invRows
  invCols := h.invCols
  wellFormed := wellFormed_tabulate _ h.wellFormed.1 h.wellFormed.2.1
  applied := by
    rw [table_exchangeRows h.rows h.cols ⟨k, hk⟩ ⟨p, hp⟩,
      table_exchangeRows h.invRows h.invCols ⟨k, hk⟩ ⟨p, hp⟩, ← h.applied]
    rfl
  cleared i hi j hj := by
    have hj' : j < m.cols := by rw [h.cols]; omega
    rw [entry_exchangeRows (h.rows.symm ▸ hi) hj', h.cleared _ (exchanged_lt hk hp hi) j hj]
    simp only [exchanged_eq_iff hj hkp]

theorem clear (h : Reduces a n k m inv) (hk : k < n) (hpivot : m.entry k k ≠ 0) :
    Reduces a n (k + 1) (clearColumn m m k) (clearColumn m inv k) where
  rows := h.rows
  cols := h.cols
  invRows := h.invRows
  invCols := h.invCols
  wellFormed := wellFormed_tabulate _ h.wellFormed.1 h.wellFormed.2.1
  applied := by
    rw [table_clearColumn h.rows h.cols ⟨k, hk⟩, table_clearColumn h.invRows h.invCols ⟨k, hk⟩,
      Matrix.mul_assoc, h.applied]
  cleared i hi j hj := by
    have hj' : j < m.cols := by rw [h.cols]; omega
    rw [entry_clearColumn (h.rows.symm ▸ hi) hj']
    obtain rfl | hjk : j = k ∨ j < k := by omega
    · rw [div_self hpivot, mul_one, sub_self]
    · -- The row of the pivot is zero in the columns that are done with.
      have hzero : m.entry k j = 0 := by rw [h.cleared k hk j hjk, if_neg (by omega)]
      rw [hzero, zero_div, mul_zero, sub_zero, h.cleared i hi j hjk]
      split
      · rw [if_neg (by omega)]
      · rfl

/-- **A run that does not stop** gets behind the last column. The induction is on the columns that
are left, and each round is at most an exchange, and one clearing. -/
theorem run (hlimit : 0 ≤ limit) {count : Nat} (h : Reduces a n k m inv) (hn : k + count = n)
    (hrun : inverseFrom limit (List.range' k count) m inv = .ok b) :
    ∃ m', Reduces a n n m' b := by
  induction count generalizing k m inv with
  | zero =>
    cases hrun
    exact ⟨m, hn ▸ h⟩
  | succ count ih =>
    have hk : k < n := by omega
    obtain ⟨hkp, hp⟩ := pivotRow_bounds (h.rows.symm ▸ hk : k < m.rows)
    rw [h.rows] at hp
    rw [List.range'_succ, inverseFrom] at hrun
    simp only at hrun
    split at hrun
    · cases hrun
    · next hlarge =>
      have hpivot : m.entry (m.pivotRow k) k ≠ 0 := ne_zero_of_not_atMost hlimit hlarge
      split at hrun
      · next hsame =>
        rw [hsame] at hpivot
        exact ih (h.clear hk hpivot) (by omega) hrun
      · have hdiagonal : (m.exchangeRows k (m.pivotRow k)).entry k k ≠ 0 := by
          rw [entry_exchangeRows (h.rows.symm ▸ hk) (h.cols.symm ▸ hk), exchanged, if_pos rfl]
          exact hpivot
        exact ih ((h.exchange hk hkp hp).clear hk hdiagonal) (by omega) hrun

end Reduces

/-- The unit matrix is made of ones on the diagonal and zeros elsewhere. -/
theorem table_unit (n : Nat) :
    (tabulate n n fun i j => if i = j then (1 : ℚ) else 0).table n n = 1 := by
  ext i j
  rw [table_apply, entry_tabulate _ i.isLt j.isLt, Matrix.one_apply]
  simp only [Fin.ext_iff]

/-- Before the first column nothing is done, by no steps. -/
theorem reduces_self (ha : a.rows = n) (ha' : a.cols = n) (hn : 0 < n) :
    Reduces a n 0 a (tabulate n n fun i j => if i = j then 1 else 0) where
  rows := ha
  cols := ha'
  invRows := rfl
  invCols := rfl
  wellFormed := wellFormed_tabulate _ hn hn
  applied := (congrArg (· * a.table n n) (table_unit n)).trans (one_mul _)
  cleared _ _ j hj := absurd hj (Nat.not_lt_zero j)

/-- Behind the last column the working matrix is the unit matrix. -/
theorem Reduces.table_mul_table (h : Reduces a n n m inv) :
    inv.table n n * a.table n n = 1 := by
  rw [h.applied]
  ext i j
  rw [table_apply, h.cleared i i.isLt j j.isLt, Matrix.one_apply]
  simp only [Fin.ext_iff]

/-! ### Inverses -/

/-- The second matrix is the inverse of the first one, which has `n` rows and columns: as tables,
and for the product that is computed. -/
structure HasInverse (a b : Matrix ℚ) (n : Nat) : Prop where
  wellFormed : b.WellFormed
  rows : b.rows = n
  cols : b.cols = n
  table_mul : a.table n n * b.table n n = 1
  mul_table : b.table n n * a.table n n = 1
  multiply_right : a.multiply b = identity n
  multiply_left : b.multiply a = identity n

/-- Where the product of the tables is one, the unit matrix is computed. -/
theorem multiply_eq_identity (hn : 0 < n) (ha : a.rows = n) (ha' : a.cols = n) (hb : b.rows = n)
    (hb' : b.cols = n) (h : a.table n n * b.table n n = 1) : a.multiply b = identity n := by
  rw [multiply_eq_tabulate (ha'.trans hb.symm) (ha.symm ▸ hn) (hb'.symm ▸ hn), identity_eq_ok hn,
    ha, hb']
  refine congrArg Except.ok (tabulate_congr fun i hi j hj => ?_)
  have hentry := congrFun (congrFun h ⟨i, hi⟩) ⟨j, hj⟩
  rw [table_mul_apply ha', Matrix.one_apply] at hentry
  simpa only [Fin.mk.injEq] using hentry

theorem hasInverse_of_inverse (hn : 0 < n) (ha : a.rows = n) (ha' : a.cols = n)
    (h : a.inverse = .ok b) : a.HasInverse b n := by
  rw [inverse_eq_inverseFrom (ha.trans ha'.symm), ha, identity_eq_ok hn, List.range_eq_range'] at h
  obtain ⟨m, hm⟩ := (reduces_self ha ha' hn).run a.zero_le_tolerance (Nat.zero_add n) h
  have hleft := hm.table_mul_table
  have hright := mul_eq_one_comm.mp hleft
  exact ⟨hm.wellFormed, hm.invRows, hm.invCols, hright, hleft,
    multiply_eq_identity hn ha ha' hm.invRows hm.invCols hright,
    multiply_eq_identity hn hm.invRows hm.invCols ha ha' hleft⟩

/-- **A computed inverse is an inverse.** Matrices that are not square are told apart from all
others. A square one gets a matrix of its size that is its inverse on both sides, or it counts as
singular because one of its pivots does not exceed the tolerance. It counts as singular if it has no
inverse. -/
theorem computed_inverse_inverts (a : Matrix ℚ) (hn : 0 < a.rows) :
    (a.inverse = .error (.notSquare a.rows a.cols) ↔ a.rows ≠ a.cols) ∧
      (a.rows = a.cols →
        (∀ b, a.inverse = .ok b → a.HasInverse b a.rows) ∧
        ((∃ b, a.inverse = .ok b) ↔ ∀ k < a.rows, a.tolerance < |a.pivot k|) ∧
        (a.inverse = .error .singular ↔ ∃ k < a.rows, |a.pivot k| ≤ a.tolerance) ∧
        ((a.table a.rows a.rows).det = 0 → a.inverse = .error .singular)) := by
  refine ⟨⟨fun h hsquare => ?_, fun hshape => if_neg hshape⟩, fun hsquare => ?_⟩
  · obtain ⟨b, hb⟩ | hsingular := inverse_eq_ok_or_singular hn hsquare
    · rw [hb] at h
      cases h
    · rw [hsingular] at h
      cases h
  have houtcome := inverse_eq_ok_or_singular hn hsquare
  have hinverse (b : Matrix ℚ) (hb : a.inverse = .ok b) : a.HasInverse b a.rows :=
    hasInverse_of_inverse hn rfl hsquare.symm hb
  have hpivots : (∃ b, a.inverse = .ok b) ↔ ∀ k < a.rows, a.tolerance < |a.pivot k| := by
    simp only [exists_inverse_iff hn hsquare, hasPivot_iff]
  refine ⟨hinverse, hpivots, ⟨fun hsingular => ?_, ?_⟩, fun hdet => ?_⟩
  · have hnone : ¬ ∃ b, a.inverse = .ok b := by
      rintro ⟨b, hb⟩
      rw [hsingular] at hb
      cases hb
    simpa only [hpivots, not_forall, not_lt, exists_prop] using hnone
  · rintro ⟨k, hk, hsmall⟩
    exact houtcome.resolve_left fun hok => absurd (hpivots.mp hok k hk) (not_lt.mpr hsmall)
  · refine houtcome.resolve_left fun ⟨b, hb⟩ => ?_
    have hone : (a.table a.rows a.rows).det * (b.table a.rows a.rows).det = 1 := by
      rw [← Matrix.det_mul, (hinverse b hb).table_mul, Matrix.det_one]
    rw [hdet, zero_mul] at hone
    exact zero_ne_one hone

/-- Two rows that have to change places before there is a pivot. -/
theorem computed_inverse_inverts_exchange :
    let a : Matrix ℚ := ⟨2, 2, #[0, 2, 1, 1]⟩
    let b : Matrix ℚ := ⟨2, 2, #[-1 / 2, 1, 1 / 2, 0]⟩
    0 < a.rows ∧ a.rows = a.cols ∧ a.inverse = .ok b ∧ a.HasInverse b 2 := by
  intro a b
  have hb : a.inverse = .ok b := by decide +kernel
  exact ⟨by decide, rfl, hb, ((computed_inverse_inverts a (by decide)).2 rfl).1 b hb⟩

/-- Matrices that have an inverse may count as singular. -/
example : (⟨2, 2, #[1, 0, 0, 1 / 10000000000000]⟩ : Matrix ℚ).inverse = .error .singular := by
  decide +kernel

end Matrix

end CellFormula
