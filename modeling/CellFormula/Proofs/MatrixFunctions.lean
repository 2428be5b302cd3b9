import CellFormula.Proofs.AreaShapes
import CellFormula.Proofs.ExactInverse
import CellFormula.Proofs.Intersection

/-!
# All or nothing

`MMULT` and `MINVERSE` answer with an area of finite numbers or with an error. There are several
reasons for an error, and more than one of them may be there at the same time. They are looked for
in this order.

* The first operand cannot be read. Of an area it is the first cell without a number that counts,
  row by row; a plain value is read as a number the way operators do it.
* The second operand cannot be read.
* The shapes do not fit.
* There is no inverse that can be computed, or a number that was computed is not finite.

`ProductOutcome` and `InverseOutcome` have one constructor for each reason and one for the area. A
constructor excludes those before it, so that each outcome has one reason only, and each of the two
functions gives its outcome and no other value.

## Main definitions

* `Value.ReadAs`, `Value.Unreadable` — operands
* `ProductOutcome`, `InverseOutcome` — outcomes
* `Value.IsNumberArea` — areas of finite numbers

## Main results

* `numericMatrix_eq_ok_iff`, `numericMatrix_eq_error_iff` — what operands are read as
* `multiplied_eq_iff`, `inverted_eq_iff` — the functions and their outcomes
* `matrix_functions_all_or_nothing`
-/

namespace CellFormula

/-! ### Operands -/

namespace Value

/-- The number of rows of a value that is taken for a matrix. -/
def height : Value → Nat
  | area block => block.rows
  | _ => 1

/-- The number of columns of a value that is taken for a matrix. -/
def width : Value → Nat
  | area block => block.cols
  | _ => 1

/-- A cell holds no number: the error is its own, if it is one, and a value error otherwise. -/
inductive NotNumber : Value → ErrorKind → Prop
  | error (kind : ErrorKind) : NotNumber (.error kind) kind
  | other {v : Value} (hnumber : ∀ x, v ≠ .number x) (herror : ∀ kind, v ≠ .error kind) :
    NotNumber v .value

/-- The value is read as this matrix. -/
inductive ReadAs : Value → Matrix Float → Prop
  | plain {v : Value} {x : Float} (hplain : ¬ v.IsArea) (h : v.toNumber = .ok x) :
    ReadAs v (.single x)
  | area {block : Area} {m : Matrix Float} (hcells : block.cells = m.map .number) :
    ReadAs (.area block) m

/-- The value is not read as a matrix: a plain value because it is no number, and an area because of
the first cell, row by row, that holds none. -/
inductive Unreadable : Value → ErrorKind → Prop
  | plain {v : Value} {kind : ErrorKind} (hplain : ¬ v.IsArea) (h : v.toNumber = .error kind) :
    Unreadable v kind
  | cell {block : Area} {r c : Nat} {u : Value} {kind : ErrorKind} (hcell : block.get? r c = some u)
    (hu : u.NotNumber kind)
    (hbefore : ∀ r' c' u', r' < r ∨ r' = r ∧ c' < c → block.get? r' c' = some u' →
      ∃ x, u' = .number x) :
    Unreadable (.area block) kind

/-- A result that belongs to the value begins in this row and column: where an area begins, and at
the formula for a plain value. -/
inductive BeginsAt (place : Place) : Value → Nat → Nat → Prop
  | plain {v : Value} (hplain : ¬ v.IsArea) : BeginsAt place v place.row place.col
  | area (block : Area) : BeginsAt place (.area block) block.firstRow block.firstCol

variable {v : Value} {m : Matrix Float}

/-- What a value is read as has its shape. -/
theorem ReadAs.shape (h : v.ReadAs m) : m.rows = v.height ∧ m.cols = v.width := by
  cases h with
  | plain hplain h =>
    cases v with
    | area block => exact absurd trivial hplain
    | _ => exact ⟨rfl, rfl⟩
  | area hcells =>
    rw [height, width, Block.rows, Block.cols, hcells]
    exact ⟨rfl, rfl⟩

theorem ReadAs.wellFormed (h : v.ReadAs m) (hv : v.IsFilled) : m.WellFormed := by
  cases h with
  | plain hplain h => exact Matrix.wellFormed_single _
  | @area block m hcells =>
    have hblock : (m.map Value.number).WellFormed := hcells ▸ hv
    exact Matrix.wellFormed_of_map hblock

end Value

/-! ### Finite numbers -/

/-- All entries are finite. -/
def Matrix.AllFinite (m : Matrix Float) : Prop := ∀ r c x, m.get? r c = some x → x.isFinite = true

/-- The entries of a table are finite if what it is made of is finite where the table reaches. -/
theorem Matrix.allFinite_tabulate_iff {rows cols : Nat} {entry : Nat → Nat → Float} :
    (Matrix.tabulate rows cols entry).AllFinite ↔
      ∀ i < rows, ∀ j < cols, (entry i j).isFinite = true := by
  constructor
  · intro h i hi j hj
    exact h i j _ (Matrix.get?_tabulate entry hi hj)
  · intro h i j x hx
    rw [Matrix.get?_tabulate_eq] at hx
    obtain ⟨⟨hi, hj⟩, hx⟩ := Option.ite_none_right_eq_some.mp hx
    exact Option.some.inj hx ▸ h i hi j hj

/-- The value is an area of finite numbers of this shape, with all its cells, and it begins where a
result does that belongs to the operand. -/
def Value.IsNumberArea (v : Value) (place : Place) (operand : Value) (rows cols : Nat) : Prop :=
  ∃ (row col : Nat) (m : Matrix Float), operand.BeginsAt place row col ∧ m.WellFormed ∧
    m.AllFinite ∧ m.rows = rows ∧ m.cols = cols ∧ v = .area ⟨row, col, m.map .number⟩

/-! ### Outcomes -/

/-- What may become of a product of two values. -/
inductive ProductOutcome (place : Place) (l r : Value) : Value → Prop
  | left {kind : ErrorKind} (hl : l.Unreadable kind) : ProductOutcome place l r (.error kind)
  | right {a : Matrix Float} {kind : ErrorKind} (hl : l.ReadAs a) (hr : r.Unreadable kind) :
    ProductOutcome place l r (.error kind)
  | shape {a b : Matrix Float} (hl : l.ReadAs a) (hr : r.ReadAs b) (hinner : a.cols ≠ b.rows) :
    ProductOutcome place l r (.error .value)
  | notFinite {a b : Matrix Float} {i j : Nat} (hl : l.ReadAs a) (hr : r.ReadAs b)
    (hinner : a.cols = b.rows) (hi : i < a.rows) (hj : j < b.cols)
    (hentry : (a.productEntry b i j).isFinite = false) : ProductOutcome place l r (.error .num)
  | area {a b : Matrix Float} {row col : Nat} (hl : l.ReadAs a) (hr : r.ReadAs b)
    (hinner : a.cols = b.rows)
    (hentries : ∀ i < a.rows, ∀ j < b.cols, (a.productEntry b i j).isFinite = true)
    (hplace : l.BeginsAt place row col) :
    ProductOutcome place l r
      (.area ⟨row, col, .tabulate a.rows b.cols fun i j => .number (a.productEntry b i j)⟩)

/-- What may become of the inverse of a value. -/
inductive InverseOutcome (place : Place) (v : Value) : Value → Prop
  | operand {kind : ErrorKind} (hv : v.Unreadable kind) : InverseOutcome place v (.error kind)
  | shape {a : Matrix Float} (hv : v.ReadAs a) (hsquare : a.rows ≠ a.cols) :
    InverseOutcome place v (.error .value)
  | singular {a : Matrix Float} {k : Nat} (hv : v.ReadAs a) (hsquare : a.rows = a.cols)
    (hk : k < a.rows) (hpivot : ¬ a.HasPivot k) : InverseOutcome place v (.error .num)
  | notFinite {a inv : Matrix Float} {i j : Nat} {x : Float} (hv : v.ReadAs a)
    (hinverse : a.inverse = .ok inv) (hentry : inv.get? i j = some x) (hx : x.isFinite = false) :
    InverseOutcome place v (.error .num)
  | area {a inv : Matrix Float} {row col : Nat} (hv : v.ReadAs a) (hinverse : a.inverse = .ok inv)
    (hentries : inv.AllFinite) (hplace : v.BeginsAt place row col) :
    InverseOutcome place v (.area ⟨row, col, inv.map .number⟩)

namespace Worksheet

variable {place : Place} {l r u v : Value} {kind : ErrorKind} {m : Matrix Float} {row col : Nat}

/-! ### Reading operands -/

theorem matrixEntry_eq_ok_iff {x : Float} : matrixEntry v = .ok x ↔ v = .number x := by
  constructor
  · intro h
    cases v with
    | number y => rw [Except.ok.inj h]
    | _ => cases h
  · rintro rfl
    rfl

theorem matrixEntry_eq_error_iff : matrixEntry v = .error kind ↔ v.NotNumber kind := by
  constructor
  · intro h
    cases v with
    | number y => cases h
    | error kind' =>
      cases h
      exact .error kind
    | _ =>
      cases h
      exact .other (fun _ h => nomatch h) fun _ h => nomatch h
  · rintro (_ | ⟨hnumber, herror⟩)
    · rfl
    · cases v with
      | number x => exact absurd rfl (hnumber x)
      | error kind => exact absurd rfl (herror kind)
      | _ => rfl

/-- Cells are read as a matrix if they are its numbers. -/
theorem traverse_matrixEntry_eq_ok_iff {cells : Matrix Value} (h : cells.WellFormed) :
    cells.traverse matrixEntry = .ok m ↔ cells = m.map .number := by
  rw [Matrix.traverse_eq_ok_iff h]
  simp only [matrixEntry_eq_ok_iff]
  constructor
  · rintro ⟨hm, hrows, hcols, hcells⟩
    refine Matrix.ext_get? h.2.2 (Matrix.wellFormed_map _ hm).2.2 hrows.symm hcols.symm
      fun r hr c hc => ?_
    obtain ⟨u, hu⟩ := Option.isSome_iff_exists.mp ((Matrix.isSome_get?_iff h).mpr ⟨hr, hc⟩)
    obtain ⟨x, rfl, hx⟩ := hcells r c u hu
    rw [hu, Matrix.get?_map, hx]
    rfl
  · rintro rfl
    refine ⟨Matrix.wellFormed_of_map h, rfl, rfl, fun r c u hu => ?_⟩
    rw [Matrix.get?_map] at hu
    obtain ⟨x, hx, rfl⟩ := Option.map_eq_some_iff.mp hu
    exact ⟨x, rfl, hx⟩

/-- **An area is read as the matrix of its numbers**, and a plain value as a matrix of one cell. -/
theorem numericMatrix_eq_ok_iff (hv : v.IsFilled) : numericMatrix v = .ok m ↔ v.ReadAs m := by
  obtain ⟨block, rfl⟩ | hplain := v.exists_eq_area_or_not_isArea
  · rw [numericMatrix, traverse_matrixEntry_eq_ok_iff hv]
    constructor
    · exact .area
    · rintro (⟨hplain, -⟩ | hcells)
      · exact absurd trivial hplain
      · exact hcells
  · rw [numericMatrix_of_not_isArea hplain, except_map_eq_ok]
    constructor
    · rintro ⟨x, hx, rfl⟩
      exact .plain hplain hx
    · rintro (⟨-, h⟩ | -)
      · exact ⟨_, h, rfl⟩
      · exact absurd trivial hplain

/-- **The error of an operand** is that of its first cell without a number. -/
theorem numericMatrix_eq_error_iff (hv : v.IsFilled) :
    numericMatrix v = .error kind ↔ v.Unreadable kind := by
  obtain ⟨block, rfl⟩ | hplain := v.exists_eq_area_or_not_isArea
  · rw [numericMatrix, Matrix.traverse_eq_error_iff hv]
    simp only [matrixEntry_eq_ok_iff, matrixEntry_eq_error_iff]
    constructor
    · rintro ⟨r, c, u, hcell, hu, hbefore⟩
      exact .cell hcell hu hbefore
    · rintro (⟨hplain, -⟩ | ⟨hcell, hu, hbefore⟩)
      · exact absurd trivial hplain
      · exact ⟨_, _, _, hcell, hu, hbefore⟩
  · rw [numericMatrix_of_not_isArea hplain, except_map_eq_error]
    constructor
    · exact .plain hplain
    · rintro (⟨-, h⟩ | -)
      · exact h
      · exact absurd trivial hplain

/-- A value is read as a matrix, or it is not and there is an error. -/
theorem unreadable_or_readAs (hv : v.IsFilled) :
    (∃ kind, v.Unreadable kind) ∨ ∃ m, v.ReadAs m := by
  cases h : numericMatrix v with
  | error kind => exact .inl ⟨kind, (numericMatrix_eq_error_iff hv).mp h⟩
  | ok m => exact .inr ⟨m, (numericMatrix_eq_ok_iff hv).mp h⟩

/-! ### Giving results -/

theorem anchorOf_eq_iff : anchorOf place v = (row, col) ↔ v.BeginsAt place row col := by
  constructor
  · intro h
    cases v with
    | area block =>
      cases h
      exact .area block
    | _ =>
      cases h
      exact .plain id
  · rintro (hplain | block)
    · cases v with
      | area block => exact absurd trivial hplain
      | _ => rfl
    · rfl

/-- The place where a result begins. -/
theorem beginsAt_anchorOf (place : Place) (v : Value) :
    v.BeginsAt place (anchorOf place v).1 (anchorOf place v).2 :=
  anchorOf_eq_iff.mp rfl

theorem all_isFinite_iff (hm : m.WellFormed) :
    m.cells.all Float.isFinite = true ↔ m.AllFinite := by
  rw [Array.all_eq_true]
  constructor
  · intro h r c x hx
    obtain ⟨hr, hc⟩ := Matrix.lt_of_get?_eq_some hx
    rw [Matrix.get?_of_lt hr hc] at hx
    obtain ⟨hplace, rfl⟩ := Array.getElem?_eq_some_iff.mp hx
    exact h _ hplace
  · intro h place hplace
    obtain ⟨r, hr, c, hc, rfl⟩ := Matrix.exists_place (hm.2.2 ▸ hplace)
    refine h r c _ ?_
    rw [Matrix.get?_of_lt hr hc]
    exact Array.getElem?_eq_getElem hplace

theorem numericArea_of_allFinite (hm : m.WellFormed) (h : m.AllFinite) (anchor : Nat × Nat) :
    numericArea anchor m = .area ⟨anchor.1, anchor.2, m.map .number⟩ :=
  if_pos ((all_isFinite_iff hm).mpr h)

/-- One number that is not finite spoils the whole result. -/
theorem numericArea_of_not_allFinite (hm : m.WellFormed) (h : ¬ m.AllFinite)
    (anchor : Nat × Nat) : numericArea anchor m = .error .num :=
  if_neg fun hall => h ((all_isFinite_iff hm).mp hall)

/-! ### Products -/

theorem multiplied_of_readAs (hl : l.IsFilled) (hr : r.IsFilled) {a b : Matrix Float}
    (ha : l.ReadAs a) (hb : r.ReadAs b) :
    multiplied place [l, r] = areaOrError (anchorOf place l) (orMatrixError (a.multiply b)) := by
  rw [multiplied, (numericMatrix_eq_ok_iff hl).mpr ha, (numericMatrix_eq_ok_iff hr).mpr hb]
  rfl

/-- An outcome is what the product gives, one case for each reason. -/
theorem multiplied_of_outcome (hl : l.IsFilled) (hr : r.IsFilled)
    (h : ProductOutcome place l r v) : multiplied place [l, r] = v := by
  have hm {a b : Matrix Float} (ha : l.ReadAs a) (hb : r.ReadAs b) :
      (Matrix.tabulate a.rows b.cols (a.productEntry b)).WellFormed :=
    Matrix.wellFormed_tabulate _ (ha.wellFormed hl).1 (hb.wellFormed hr).2.1
  cases h with
  | left hkind =>
    rw [multiplied, (numericMatrix_eq_error_iff hl).mpr hkind]
    rfl
  | right ha hkind =>
    rw [multiplied, (numericMatrix_eq_ok_iff hl).mpr ha, (numericMatrix_eq_error_iff hr).mpr hkind]
    rfl
  | shape ha hb hinner =>
    rw [multiplied_of_readAs hl hr ha hb, Matrix.multiply, if_neg hinner]
    rfl
  | notFinite ha hb hinner hi hj hentry =>
    rw [multiplied_of_readAs hl hr ha hb,
      Matrix.multiply_eq_tabulate hinner (ha.wellFormed hl).1 (hb.wellFormed hr).2.1]
    refine numericArea_of_not_allFinite (hm ha hb) (fun hall => ?_) _
    rw [Matrix.allFinite_tabulate_iff.mp hall _ hi _ hj] at hentry
    cases hentry
  | area ha hb hinner hentries hplace =>
    rw [multiplied_of_readAs hl hr ha hb,
      Matrix.multiply_eq_tabulate hinner (ha.wellFormed hl).1 (hb.wellFormed hr).2.1,
      anchorOf_eq_iff.mpr hplace, ← Matrix.map_tabulate]
    exact numericArea_of_allFinite (hm ha hb) (Matrix.allFinite_tabulate_iff.mpr hentries) _

/-- There is an outcome, whatever the operands are. The questions are asked in the order of the
reasons. -/
theorem exists_productOutcome (place : Place) (hl : l.IsFilled) (hr : r.IsFilled) :
    ∃ v, ProductOutcome place l r v := by
  obtain ⟨kind, hkind⟩ | ⟨a, ha⟩ := unreadable_or_readAs hl
  · exact ⟨_, .left hkind⟩
  obtain ⟨kind, hkind⟩ | ⟨b, hb⟩ := unreadable_or_readAs hr
  · exact ⟨_, .right ha hkind⟩
  by_cases hinner : a.cols = b.rows
  · by_cases hentries : ∀ i < a.rows, ∀ j < b.cols, (a.productEntry b i j).isFinite = true
    · exact ⟨_, .area ha hb hinner hentries (beginsAt_anchorOf place l)⟩
    · push Not at hentries
      obtain ⟨i, hi, j, hj, hentry⟩ := hentries
      exact ⟨_, .notFinite ha hb hinner hi hj (Bool.eq_false_iff.mpr hentry)⟩
  · exact ⟨_, .shape ha hb hinner⟩

/-- **A product is its outcome** and no other value. -/
theorem multiplied_eq_iff (hl : l.IsFilled) (hr : r.IsFilled) :
    multiplied place [l, r] = v ↔ ProductOutcome place l r v := by
  refine ⟨?_, multiplied_of_outcome hl hr⟩
  rintro rfl
  obtain ⟨v, hv⟩ := exists_productOutcome place hl hr
  rwa [multiplied_of_outcome hl hr hv]

/-- An outcome is an error, or it is an area of finite numbers with the rows of the first operand
and the columns of the second one. -/
theorem isNumberArea_of_productOutcome (hl : l.IsFilled) (hr : r.IsFilled)
    (h : ProductOutcome place l r v) :
    (∃ kind, v = .error kind) ∨ v.IsNumberArea place l l.height r.width := by
  cases h with
  | @area a b row col ha hb hinner hentries hplace =>
    refine .inr ⟨row, col, .tabulate a.rows b.cols (a.productEntry b), hplace, ?_, ?_, ?_, ?_, ?_⟩
    · exact Matrix.wellFormed_tabulate _ (ha.wellFormed hl).1 (hb.wellFormed hr).2.1
    · exact Matrix.allFinite_tabulate_iff.mpr hentries
    · exact ha.shape.1
    · exact hb.shape.2
    · rw [Matrix.map_tabulate]
  | _ => exact .inl ⟨_, rfl⟩

/-! ### Inverses -/

theorem inverted_of_readAs (hv : v.IsFilled) {a : Matrix Float} (ha : v.ReadAs a) :
    inverted place [v] = areaOrError (anchorOf place v) (orMatrixError a.inverse) := by
  rw [inverted, (numericMatrix_eq_ok_iff hv).mpr ha]
  rfl

theorem inverted_of_outcome (hu : u.IsFilled) (h : InverseOutcome place u v) :
    inverted place [u] = v := by
  cases h with
  | operand hkind =>
    rw [inverted, (numericMatrix_eq_error_iff hu).mpr hkind]
    rfl
  | shape ha hsquare =>
    rw [inverted_of_readAs hu ha, Matrix.inverse, if_neg hsquare]
    rfl
  | singular ha hsquare hk hpivot =>
    rw [inverted_of_readAs hu ha, (Matrix.inverse_eq_singular_iff hsquare).mpr ⟨_, hk, hpivot⟩]
    rfl
  | notFinite ha hinverse hentry hx =>
    rw [inverted_of_readAs hu ha, hinverse]
    refine numericArea_of_not_allFinite (Matrix.shape_of_inverse hinverse).1 (fun hall => ?_) _
    rw [hall _ _ _ hentry] at hx
    cases hx
  | area ha hinverse hentries hplace =>
    rw [inverted_of_readAs hu ha, hinverse, anchorOf_eq_iff.mpr hplace]
    exact numericArea_of_allFinite (Matrix.shape_of_inverse hinverse).1 hentries _

theorem exists_inverseOutcome (place : Place) (hu : u.IsFilled) :
    ∃ v, InverseOutcome place u v := by
  obtain ⟨kind, hkind⟩ | ⟨a, ha⟩ := unreadable_or_readAs hu
  · exact ⟨_, .operand hkind⟩
  by_cases hsquare : a.rows = a.cols
  · by_cases hpivots : ∀ k < a.rows, a.HasPivot k
    · obtain ⟨inv, hinverse⟩ :=
        (Matrix.exists_inverse_iff (ha.wellFormed hu).1 hsquare).mpr hpivots
      by_cases hentries : inv.AllFinite
      · exact ⟨_, .area ha hinverse hentries (beginsAt_anchorOf place u)⟩
      · rw [Matrix.AllFinite] at hentries
        push Not at hentries
        obtain ⟨i, j, x, hentry, hx⟩ := hentries
        exact ⟨_, .notFinite ha hinverse hentry (Bool.eq_false_iff.mpr hx)⟩
    · push Not at hpivots
      obtain ⟨k, hk, hpivot⟩ := hpivots
      exact ⟨_, .singular ha hsquare hk hpivot⟩
  · exact ⟨_, .shape ha hsquare⟩

/-- **An inverse is its outcome** and no other value. -/
theorem inverted_eq_iff (hu : u.IsFilled) :
    inverted place [u] = v ↔ InverseOutcome place u v := by
  refine ⟨?_, inverted_of_outcome hu⟩
  rintro rfl
  obtain ⟨v, hv⟩ := exists_inverseOutcome place hu
  rwa [inverted_of_outcome hu hv]

/-- An outcome is an error, or the operand is square and it is a square area of finite numbers of
the same size. -/
theorem isNumberArea_of_inverseOutcome (h : InverseOutcome place u v) :
    (∃ kind, v = .error kind) ∨
      ∃ n, u.height = n ∧ u.width = n ∧ v.IsNumberArea place u n n := by
  cases h with
  | @area a inv row col ha hinverse hentries hplace =>
    obtain ⟨hfull, hrows, hcols⟩ := Matrix.shape_of_inverse hinverse
    obtain ⟨hheight, hwidth⟩ := ha.shape
    have hsquare : a.rows = a.cols := Matrix.rows_eq_cols_of_inverse hinverse
    exact .inr ⟨a.rows, hheight.symm, hwidth.symm.trans hsquare.symm, row, col, inv, hplace, hfull,
      hentries, hrows, hcols.trans hsquare.symm, rfl⟩
  | _ => exact .inl ⟨_, rfl⟩

/-! ### Both functions -/

/-- **All or nothing.** Whatever values they are given, `MMULT` and `MINVERSE` answer with an error
or with an area of finite numbers that begins where the first operand does, with the rows of the
first operand and the columns of the second one, and of the size of the operand. And there is no
doubt about the answer: it is the outcome that the first reason for an error gives, the operands
being read one after the other, their shapes being compared then, and the numbers being computed and
looked at last. -/
theorem matrix_functions_all_or_nothing (place : Place) (hl : l.IsFilled) (hr : r.IsFilled) :
    ((∃ kind, multiplied place [l, r] = .error kind) ∨
      (multiplied place [l, r]).IsNumberArea place l l.height r.width) ∧
    (∀ v, multiplied place [l, r] = v ↔ ProductOutcome place l r v) ∧
    ((∃ kind, inverted place [l] = .error kind) ∨
      ∃ n, l.height = n ∧ l.width = n ∧ (inverted place [l]).IsNumberArea place l n n) ∧
    ∀ v, inverted place [l] = v ↔ InverseOutcome place l v :=
  ⟨isNumberArea_of_productOutcome hl hr ((multiplied_eq_iff hl hr).mp rfl),
    fun _ => multiplied_eq_iff hl hr,
    isNumberArea_of_inverseOutcome ((inverted_eq_iff hl).mp rfl), fun _ => inverted_eq_iff hl⟩

/-- Four numbers that have an inverse, though not without an exchange of rows, and three cells whose
text comes before their error, and both before what is wrong with their shape. -/
theorem matrix_functions_all_or_nothing_text :
    let l : Value := .area ⟨3, 4, ⟨2, 2, #[.number 0.0, .number 2.0, .number 1.0, .number 1.0]⟩⟩
    let r : Value := .area ⟨8, 8, ⟨1, 3, #[.number 1.0, .text "x", .error .na]⟩⟩
    l.IsFilled ∧ r.IsFilled ∧ multiplied .origin [l, r] = .error .value ∧
      (inverted .origin [l]).IsNumberArea .origin l 2 2 := by
  intro l r
  have hl : l.IsFilled := ⟨by decide, by decide, rfl⟩
  have hr : r.IsFilled := ⟨by decide, by decide, rfl⟩
  obtain ⟨-, hproduct, hinverse, -⟩ := matrix_functions_all_or_nothing .origin hl hr
  have hread : l.ReadAs ⟨2, 2, #[0.0, 2.0, 1.0, 1.0]⟩ := .area (by simp [Matrix.map])
  have hunreadable : r.Unreadable .value := by
    refine .cell (r := 0) (c := 1) rfl (.other (by simp) (by simp)) fun row col u hbefore hu => ?_
    obtain ⟨rfl, rfl⟩ : row = 0 ∧ col = 0 := by omega
    exact ⟨1.0, (Option.some.inj hu).symm⟩
  refine ⟨hl, hr, (hproduct _).mpr (.right hread hunreadable), ?_⟩
  obtain ⟨kind, herror⟩ | ⟨n, rfl, -, harea⟩ := hinverse
  · have hcomputed : (inverted .origin [l]).isError = false := by decide +kernel
    rw [herror] at hcomputed
    cases hcomputed
  · exact harea

end Worksheet

end CellFormula
