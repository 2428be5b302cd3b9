import Mathlib.Algebra.BigOperators.Fin
import Mathlib.Data.Matrix.Mul
import CellFormula.Proofs.RowLoops

/-!
# Matrices of rational numbers as tables

Entries that are rational numbers make up a table as linear algebra has it (`Matrix.table`), with
the sums and products of linear algebra. The entries of a computed product are those of the product
of the tables, because the products that are passed over are zero.

## Main definitions

* `Matrix.table` — the entries of a rational matrix as a table

## Main results

* `Matrix.productEntry_eq_sum` — what the loop over the inner index adds up
* `Matrix.table_mul_apply` — the computed product
-/

namespace CellFormula

namespace Matrix

/-! ### Tables of rational numbers -/

variable {a b m : Matrix ℚ}

/-- The entries in the first rows and columns. -/
def table (m : Matrix ℚ) (rows cols : Nat) :=
  Matrix.of fun (i : Fin rows) (j : Fin cols) => m.entry i j

@[simp]
theorem table_apply {rows cols : Nat} (i : Fin rows) (j : Fin cols) :
    m.table rows cols i j = m.entry i j := rfl

/-- Zero factors add nothing to a product, so it does no harm that they are passed over. -/
theorem productEntry_eq_sum (a b : Matrix ℚ) (i j : Nat) :
    a.productEntry b i j = ∑ k ∈ Finset.range a.cols, a.entry i k * b.entry k j := by
  have hfold (n : Nat) : (List.range n).foldl (fun sum k =>
      if PivotNumber.isZero (a.entry i k) then sum else sum + a.entry i k * b.entry k j) 0
        = ∑ k ∈ Finset.range n, a.entry i k * b.entry k j := by
    induction n with
    | zero => rfl
    | succ n ih =>
      rw [List.range_succ, List.foldl_append, ih, Finset.sum_range_succ]
      simp only [List.foldl_cons, List.foldl_nil]
      split
      · next hzero =>
        have h0 : a.entry i n = 0 := of_decide_eq_true hzero
        rw [h0, zero_mul, add_zero]
      · rfl
  exact hfold a.cols

/-- **The computed product is the product of the tables**, entry by entry. -/
theorem table_mul_apply {rows inner cols : Nat} (ha : a.cols = inner) (i : Fin rows)
    (j : Fin cols) :
    (a.table rows inner * b.table inner cols) i j = a.productEntry b i j := by
  subst ha
  rw [productEntry_eq_sum, Finset.sum_range, Matrix.mul_apply]
  rfl

end Matrix

end CellFormula
