import CellFormula.Proofs.ExactInverse
import CellFormula.Proofs.MadeMatrices

/-!
# Products in exact arithmetic

On rational numbers the sums that make up a product have no rounding errors, and then what is
computed is the product of linear algebra, for matrices of every shape: where the inner dimensions
agree there is one, and where they do not that is the answer. What linear algebra knows of products
is known of computed products then. The unit matrix leaves every matrix as it is, on both sides, and
it does not matter which of two products is computed first.

The product is added up in a list of cells that are zero at first, and while the loops run some rows
are done, one is filled in part and the others are still zero. What they leave in the end is the
table of `productEntry`, and on rational numbers a zero factor that is passed over is a zero that is
not added. So a computed product is the one matrix that `IsProduct` describes, and nothing about the
order of additions is left to say.

## Main definitions

* `Matrix.IsProduct` — a matrix whose entries are the sums of products

## Main results

* `Matrix.multiply_eq_ok_iff`, `Matrix.multiply_eq_error_iff` — what is computed
* `Matrix.table_multiply` — computed products as products of tables
* `Matrix.identity_multiply`, `Matrix.multiply_identity`, `Matrix.multiply_assoc` — laws
* `Matrix.computed_product_multiplies` — all of it
-/

namespace CellFormula

namespace Matrix

variable {a b c d m : Matrix ℚ}

/-- The matrix has the rows of the first matrix and the columns of the second one, all its cells and
no more, and each entry is the sum over the inner index of the products of entries. -/
structure IsProduct (a b c : Matrix ℚ) : Prop where
  rows : c.rows = a.rows
  cols : c.cols = b.cols
  size : c.cells.size = c.rows * c.cols
  entries : ∀ i < a.rows, ∀ j < b.cols,
    c.get? i j = some (∑ k ∈ Finset.range a.cols, a.entry i k * b.entry k j)

/-- There is only one product. -/
theorem IsProduct.unique (hc : IsProduct a b c) (hd : IsProduct a b d) : c = d := by
  refine ext_get? hc.size hd.size (hc.rows.trans hd.rows.symm) (hc.cols.trans hd.cols.symm) ?_
  intro i hi j hj
  rw [hc.rows] at hi
  rw [hc.cols] at hj
  exact (hc.entries i hi j hj).trans (hd.entries i hi j hj).symm

/-- The entries that are computed make a product. -/
theorem isProduct_tabulate (a b : Matrix ℚ) :
    IsProduct a b (tabulate a.rows b.cols (a.productEntry b)) where
  rows := rfl
  cols := rfl
  size := by simp [tabulate]
  entries i hi j hj := by rw [get?_tabulate _ hi hj, productEntry_eq_sum]

/-- **What is computed is the product**, if the inner dimensions agree. -/
theorem multiply_eq_ok_iff :
    a.multiply b = .ok c ↔ a.cols = b.rows ∧ 0 < a.rows ∧ 0 < b.cols ∧ IsProduct a b c := by
  constructor
  · intro h
    obtain ⟨hinner, hrows, hcols⟩ := shape_of_multiply h
    obtain ⟨hr, hc, -⟩ := wellFormed_of_multiply h
    rw [hrows] at hr
    rw [hcols] at hc
    rw [multiply_eq_tabulate hinner hr hc, Except.ok.injEq] at h
    exact ⟨hinner, hr, hc, h ▸ isProduct_tabulate a b⟩
  · rintro ⟨hinner, hr, hc, hproduct⟩
    rw [multiply_eq_tabulate hinner hr hc, (isProduct_tabulate a b).unique hproduct]

/-- **No other failures than inner dimensions that differ** and factors that leave no row or no
column for the product. -/
theorem multiply_eq_error_iff {e : MatrixError} :
    a.multiply b = .error e ↔
      a.cols ≠ b.rows ∧ e = .dimensionMismatch a.cols b.rows ∨
        a.cols = b.rows ∧ (a.rows = 0 ∨ b.cols = 0) ∧ e = .empty := by
  by_cases hinner : a.cols = b.rows
  · rw [multiply_eq_generate hinner, generate]
    split
    · next hempty => simp [hinner, hempty, eq_comm]
    · next hempty => simp [hinner, hempty]
  · rw [multiply, if_neg hinner]
    simp [hinner, eq_comm]

theorem exists_multiply (h : a.cols = b.rows) (hr : 0 < a.rows) (hc : 0 < b.cols) :
    ∃ c, a.multiply b = .ok c :=
  ⟨_, multiply_eq_ok_iff.mpr ⟨h, hr, hc, isProduct_tabulate a b⟩⟩

/-- The table of a computed product is the product of the tables. -/
theorem table_multiply {rows inner cols : Nat} (hrows : a.rows = rows) (hinner : a.cols = inner)
    (hcols : b.cols = cols) (h : a.multiply b = .ok c) :
    c.table rows cols = a.table rows inner * b.table inner cols := by
  subst hrows hcols
  obtain ⟨-, -, -, hproduct⟩ := multiply_eq_ok_iff.mp h
  ext i j
  rw [table_mul_apply hinner, productEntry_eq_sum, table_apply, entry,
    hproduct.entries i i.isLt j j.isLt]
  rfl

/-- Two factors whose tables make the table of a matrix have that matrix as their product. -/
theorem multiply_eq_of_table {rows inner cols : Nat} (hm : m.WellFormed) (hmRows : m.rows = rows)
    (hmCols : m.cols = cols) (hrows : a.rows = rows) (hcols : b.cols = cols)
    (hinner : a.cols = inner) (hinner' : b.rows = inner)
    (h : m.table rows cols = a.table rows inner * b.table inner cols) :
    a.multiply b = .ok m := by
  subst hmRows hmCols
  rw [multiply_eq_tabulate (hinner.trans hinner'.symm) (hrows.symm ▸ hm.1) (hcols.symm ▸ hm.2.1),
    hrows, hcols]
  refine congrArg Except.ok ((tabulate_congr fun i hi j hj => ?_).trans (tabulate_entry hm.2.2))
  have hentry := congrFun (congrFun h ⟨i, hi⟩) ⟨j, hj⟩
  rw [table_mul_apply hinner] at hentry
  exact hentry.symm

/-! ### Laws -/

/-- **The unit matrix on the left** changes nothing. -/
theorem identity_multiply (h : m.WellFormed) :
    ∃ unit, identity m.rows = .ok unit ∧ unit.multiply m = .ok m := by
  refine ⟨_, identity_eq_ok h.1, multiply_eq_of_table h rfl rfl rfl rfl rfl rfl ?_⟩
  exact ((congrArg (· * m.table m.rows m.cols) (table_unit m.rows)).trans (Matrix.one_mul _)).symm

/-- **The unit matrix on the right** changes nothing. -/
theorem multiply_identity (h : m.WellFormed) :
    ∃ unit, identity m.cols = .ok unit ∧ m.multiply unit = .ok m := by
  refine ⟨_, identity_eq_ok h.2.1, multiply_eq_of_table h rfl rfl rfl rfl rfl rfl ?_⟩
  exact ((congrArg (m.table m.rows m.cols * ·) (table_unit m.cols)).trans (Matrix.mul_one _)).symm

/-- **It does not matter which of two products is computed first.** -/
theorem multiply_assoc (ha : a.WellFormed) (hb : b.WellFormed) (hc : c.WellFormed)
    (hab : a.cols = b.rows) (hbc : b.cols = c.rows) :
    ∃ ab bc abc, a.multiply b = .ok ab ∧ b.multiply c = .ok bc ∧
      ab.multiply c = .ok abc ∧ a.multiply bc = .ok abc := by
  obtain ⟨ab, hleft⟩ := exists_multiply hab ha.1 hb.2.1
  obtain ⟨bc, hright⟩ := exists_multiply hbc hb.1 hc.2.1
  obtain ⟨-, -, -, hl⟩ := multiply_eq_ok_iff.mp hleft
  obtain ⟨-, -, -, hr⟩ := multiply_eq_ok_iff.mp hright
  obtain ⟨abc, hboth⟩ := exists_multiply (hl.cols.trans hbc) (hl.rows.symm ▸ ha.1) hc.2.1
  obtain ⟨-, -, -, hp⟩ := multiply_eq_ok_iff.mp hboth
  refine ⟨ab, bc, abc, hleft, hright, hboth, ?_⟩
  refine multiply_eq_of_table (wellFormed_of_multiply hboth) (hp.rows.trans hl.rows) hp.cols rfl
    hr.cols hab hr.rows ?_
  calc abc.table a.rows c.cols
    _ = ab.table a.rows b.cols * c.table b.cols c.cols :=
      table_multiply hl.rows hl.cols rfl hboth
    _ = a.table a.rows b.rows * b.table b.rows b.cols * c.table b.cols c.cols := by
      rw [table_multiply rfl hab rfl hleft]
    _ = a.table a.rows b.rows * (b.table b.rows b.cols * c.table b.cols c.cols) :=
      Matrix.mul_assoc _ _ _
    _ = a.table a.rows b.rows * bc.table b.rows c.cols := by
      rw [table_multiply rfl rfl rfl hright]

/-- **Computed products are products.** Two matrices whose inner dimensions differ are refused, and
no two others that have rows and columns are. These have a product, of the shape and with the
entries that linear algebra gives it. Therefore a unit matrix on the left or on the right changes
nothing, and it does not matter in what order three matrices are multiplied. -/
theorem computed_product_multiplies (a b c : Matrix ℚ) :
    (∀ e, a.multiply b = .error e ↔
      a.cols ≠ b.rows ∧ e = .dimensionMismatch a.cols b.rows ∨
        a.cols = b.rows ∧ (a.rows = 0 ∨ b.cols = 0) ∧ e = .empty) ∧
    (∀ p, a.multiply b = .ok p ↔ a.cols = b.rows ∧ 0 < a.rows ∧ 0 < b.cols ∧ IsProduct a b p) ∧
    (a.WellFormed → b.WellFormed →
      (∀ e, a.multiply b = .error e ↔ a.cols ≠ b.rows ∧ e = .dimensionMismatch a.cols b.rows) ∧
      (a.cols = b.rows → ∃ p, a.multiply b = .ok p)) ∧
    (a.WellFormed → (∃ unit, identity a.rows = .ok unit ∧ unit.multiply a = .ok a) ∧
      ∃ unit, identity a.cols = .ok unit ∧ a.multiply unit = .ok a) ∧
    (a.WellFormed → b.WellFormed → c.WellFormed → a.cols = b.rows → b.cols = c.rows →
      ∃ ab bc abc, a.multiply b = .ok ab ∧ b.multiply c = .ok bc ∧
        ab.multiply c = .ok abc ∧ a.multiply bc = .ok abc) := by
  refine ⟨fun e => multiply_eq_error_iff, fun p => multiply_eq_ok_iff, fun ha hb => ⟨fun e => ?_,
    fun hinner => exists_multiply hinner ha.1 hb.2.1⟩,
    fun ha => ⟨identity_multiply ha, multiply_identity ha⟩, multiply_assoc⟩
  have hfilled : ¬ (a.rows = 0 ∨ b.cols = 0) := fun h => h.elim ha.1.ne' hb.2.1.ne'
  rw [multiply_eq_error_iff]
  simp only [hfilled, false_and, and_false, or_false]

/-- Factors with zeros among them, and in the other order no factors at all. -/
theorem computed_product_multiplies_zeros :
    let a : Matrix ℚ := ⟨2, 3, #[0, 2, 3, 4, 0, 6]⟩
    let b : Matrix ℚ := ⟨3, 1, #[1, 0, -1]⟩
    let c : Matrix ℚ := ⟨1, 2, #[0, 5]⟩
    a.multiply b = .ok ⟨2, 1, #[-3, -2]⟩ ∧ IsProduct a b ⟨2, 1, #[-3, -2]⟩ ∧
      b.multiply a = .error (.dimensionMismatch 1 2) ∧ a.WellFormed ∧
      (∃ unit, identity 3 = .ok unit ∧ a.multiply unit = .ok a) ∧
      ∃ ab bc abc, a.multiply b = .ok ab ∧ b.multiply c = .ok bc ∧
        ab.multiply c = .ok abc ∧ a.multiply bc = .ok abc := by
  intro a b c
  have hproduct : a.multiply b = .ok ⟨2, 1, #[-3, -2]⟩ := by decide +kernel
  have ha : a.WellFormed := by decide
  have hb : b.WellFormed := by decide
  obtain ⟨-, hiff, -, hunits, hassoc⟩ := computed_product_multiplies a b c
  obtain ⟨hfails, -⟩ := (computed_product_multiplies b a c).2.2.1 hb ha
  exact ⟨hproduct, ((hiff _).mp hproduct).2.2.2, (hfails _).mpr ⟨by decide, rfl⟩, ha,
    (hunits ha).2, hassoc ha hb (by decide) rfl rfl⟩

end Matrix

end CellFormula
