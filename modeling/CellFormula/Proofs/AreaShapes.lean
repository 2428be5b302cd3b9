import CellFormula.Proofs.Accepts
import CellFormula.Proofs.BuiltinValues
import CellFormula.Proofs.MadeMatrices

/-!
# The shapes of the areas that functions give

An area that an operator or a built-in function gives has its shape from the areas among the
arguments. There are three ways to such a shape.

* A function that is applied cell by cell gives as many rows as the tallest area has and as many
  columns as the widest one has, and so does the product of two matrices: the rows are those of one
  area, the columns are those of one area, and the two may be different areas.
* `TRANSPOSE` turns an area around.
* A matrix function takes a plain value for an area of one cell.

`ShapedBy` names the three. Nothing else is said about shapes here, and above all not that two areas
fit each other: a look-up outside an area gives an error in a cell and no other shape.

## Main definitions

* `ShapedBy` — a shape that comes from areas
* `Value.ShapedFrom` — a value that is no area, or one with such a shape

## Main results

* `shapedFrom_broadcast` — functions that are applied cell by cell
* `shapedFrom_builtin` — the built-in functions
-/

namespace CellFormula

/-! ### Shapes -/

/-- The numbers of rows and columns of an area that comes about from these areas. -/
inductive ShapedBy (areas : List Area) : Nat → Nat → Prop
  /-- One cell, for a plain value. -/
  | single : ShapedBy areas 1 1
  /-- As tall as one of the areas and as wide as one of them. -/
  | crossed {tall wide : Area} (htall : tall ∈ areas) (hwide : wide ∈ areas) :
    ShapedBy areas tall.rows wide.cols
  /-- One of the areas turned around. -/
  | turned {block : Area} (hblock : block ∈ areas) : ShapedBy areas block.cols block.rows

/-- If the value is an area, it has its shape from the areas among the arguments. -/
def Value.ShapedFrom (args : List Value) : Value → Prop
  | area block => ShapedBy (areasOf args) block.rows block.cols
  | _ => True

namespace Value

variable {args : List Value} {v : Value}

theorem shapedFrom_of_not_isArea (h : ¬ v.IsArea) : v.ShapedFrom args := by
  cases v with
  | area block => exact absurd trivial h
  | _ => trivial

theorem shapedFrom_of_isPlain (h : v.IsPlain) : v.ShapedFrom args :=
  shapedFrom_of_not_isArea (not_isArea_of_isPlain h)

/-- An argument has its own shape. -/
theorem shapedFrom_of_mem (h : v ∈ args) : v.ShapedFrom args := by
  cases v with
  | area block => exact .crossed (mem_areasOf.mpr h) (mem_areasOf.mpr h)
  | _ => trivial

end Value

/-! ### Cell by cell -/

/-- **A function that is applied cell by cell** gives an area as tall as one of its arguments and as
wide as one of them. What it gives without any area is up to the function. -/
theorem shapedFrom_broadcast {args vs : List Value} {f : List Value → Value}
    (hareas : ∀ block, .area block ∈ vs → .area block ∈ args)
    (hplain : areasOf vs = [] → (f vs).ShapedFrom args) : (broadcast vs f).ShapedFrom args := by
  rw [broadcast]
  split
  · next hnone => exact hplain hnone
  · next anchor others hsplit =>
    have hmem {block : Area} (hblock : .area block ∈ vs) : block ∈ areasOf args :=
      mem_areasOf.mpr (hareas block hblock)
    obtain ⟨tall, htall, hrows⟩ := (isGreatest_foldl_max hsplit Block.rows).1
    obtain ⟨wide, hwide, hcols⟩ := (isGreatest_foldl_max hsplit Block.cols).1
    dsimp only
    rw [← hrows, ← hcols]
    split
    · next cells hcells =>
      obtain ⟨hcellRows, hcellCols⟩ := Matrix.shape_of_generate hcells
      show ShapedBy (areasOf args) cells.rows cells.cols
      rw [hcellRows, hcellCols]
      exact .crossed (hmem htall) (hmem hwide)
    · trivial

/-- **Operators** hand on no area but one that they are given. -/
theorem shapedFrom_broadcast_compute (op : Operator) (args : List Value) :
    (broadcast args op.compute).ShapedFrom args := by
  refine shapedFrom_broadcast (fun _ hblock => hblock) fun hnone => ?_
  refine Value.shapedFrom_of_not_isArea (op.not_isArea_compute fun v hv hisArea => ?_)
  cases v with
  | area block => exact absurd (mem_areasOf.mpr hv) (by rw [hnone]; exact List.not_mem_nil)
  | _ => exact hisArea

namespace Worksheet

variable {args : List Value}

/-- What a lifted function gives is plain without any area, and has its shape from the areas
otherwise. -/
theorem Lifted.shapedFrom {v : Value} (h : Lifted args v) : v.ShapedFrom args := by
  cases h with
  | plain isPlain => exact Value.shapedFrom_of_isPlain isPlain
  | broadcast areas isPlain =>
    exact shapedFrom_broadcast areas fun _ => Value.shapedFrom_of_isPlain (isPlain _)

/-! ### Functions that hand on their arguments -/

/-- A branch that is an area is an argument. -/
theorem mem_of_branchValue {position : Nat} {block : Area}
    (h : branchValue args[position]? = .area block) : .area block ∈ args := by
  cases hv : args[position]? with
  | none => rw [hv] at h; cases h
  | some v =>
    rw [hv] at h
    cases v with
    | area block' =>
      cases h
      exact List.mem_of_getElem? hv
    | _ => cases h

theorem mem_of_otherwiseValue {block : Area} (h : otherwiseValue args = .area block) :
    .area block ∈ args := by
  rw [otherwiseValue] at h
  cases hthird : args[2]? with
  | none => rw [hthird] at h; cases h
  | some v =>
    have hbranch : branchValue args[2]? = .area block := by rwa [hthird] at h ⊢
    exact mem_of_branchValue hbranch

/-- What is an argument if it is an area has the shape of one. -/
theorem shapedFrom_of_area_mem {v : Value} (h : ∀ block, v = .area block → .area block ∈ args) :
    v.ShapedFrom args := by
  cases v with
  | area block => exact Value.shapedFrom_of_mem (h block rfl)
  | _ => trivial

theorem shapedFrom_conditional (args : List Value) : (conditional args).ShapedFrom args := by
  have hyes : ∀ block, branchValue args[1]? = .area block → .area block ∈ args :=
    fun _ => mem_of_branchValue
  have hno : ∀ block, otherwiseValue args = .area block → .area block ∈ args :=
    fun _ => mem_of_otherwiseValue
  cases args with
  | nil => trivial
  | cons condition others =>
    cases condition with
    | area block =>
      rw [conditional]
      refine shapedFrom_broadcast (fun b hb => ?_) fun hnone => ?_
      · rw [List.mem_cons, List.mem_pair] at hb
        obtain hb | hb | hb := hb
        · exact hb ▸ List.mem_cons_self ..
        · exact hyes b hb.symm
        · exact hno b hb.symm
      · -- The condition is an area itself.
        cases hnone
    | _ =>
      exact pickBranch_cases (p := Value.ShapedFrom _) (fun _ => trivial)
        (shapedFrom_of_area_mem hyes) (shapedFrom_of_area_mem hno)

theorem shapedFrom_choose (args : List Value) : (choose args).wrapped.ShapedFrom args := by
  cases args with
  | nil => trivial
  | cons selector choices =>
    rw [choose, wrapped_liftOverflowing, liftFirst]
    refine shapedFrom_broadcast (fun block hblock => ?_) fun _ => ?_
    · exact List.mem_singleton.mp hblock ▸ List.mem_cons_self ..
    · refine pickFor_cases (p := Value.ShapedFrom _) (fun _ => trivial) (fun position => ?_) _
      refine shapedFrom_of_area_mem fun block hblock => ?_
      exact List.mem_cons_of_mem _ (mem_of_branchValue hblock)

/-! ### Functions of whole areas -/

theorem numericMatrix_of_not_isArea {v : Value} (h : ¬ v.IsArea) :
    numericMatrix v = v.toNumber.map Matrix.single := by
  cases v with
  | area block => exact absurd trivial h
  | _ => rfl

/-- A matrix that a value is taken for has the shape of the area, or it is one cell. -/
theorem shape_of_numericMatrix {v : Value} {m : Matrix Float} (h : numericMatrix v = .ok m) :
    (∃ block, v = .area block ∧ m.rows = block.rows ∧ m.cols = block.cols) ∨
      m.rows = 1 ∧ m.cols = 1 := by
  obtain ⟨block, rfl⟩ | hplain := v.exists_eq_area_or_not_isArea
  · obtain ⟨hrows, hcols, -⟩ := Matrix.exists_of_traverse h
    exact .inl ⟨block, rfl, hrows, hcols⟩
  · rw [numericMatrix_of_not_isArea hplain] at h
    obtain ⟨x, -, rfl⟩ := except_map_eq_ok.mp h
    exact .inr ⟨rfl, rfl⟩

/-- An area of numbers has the shape of the matrix. -/
theorem shapedFrom_areaOrError {anchor : Nat × Nat} {r : Except ErrorKind (Matrix Float)}
    (h : ∀ m, r = .ok m → ShapedBy (areasOf args) m.rows m.cols) :
    (areaOrError anchor r).ShapedFrom args := by
  cases r with
  | error kind => trivial
  | ok m =>
    rw [areaOrError, numericArea]
    split
    · exact h m rfl
    · trivial

theorem orMatrixError_eq_ok {r : Except MatrixError (Matrix Float)} {m : Matrix Float}
    (h : orMatrixError r = .ok m) : r = .ok m := by
  cases r with
  | ok a => cases h; rfl
  | error e => cases h

theorem shapedFrom_transposed (place : Place) (args : List Value) :
    (transposed place args).ShapedFrom args := by
  cases args with
  | nil => trivial
  | cons v others =>
    cases v with
    | area block => exact .turned (mem_areasOf.mpr (List.mem_cons_self ..))
    | _ => exact .single

theorem shapedFrom_inverted (place : Place) (args : List Value) :
    (inverted place args).ShapedFrom args := by
  cases args with
  | nil => trivial
  | cons v others =>
    refine shapedFrom_areaOrError fun result h => ?_
    obtain ⟨m, hm, hresult⟩ := except_bind_eq_ok.mp h
    obtain ⟨-, hrows, hcols⟩ := Matrix.shape_of_inverse (orMatrixError_eq_ok hresult)
    rw [hrows, hcols]
    obtain ⟨block, rfl, hblockRows, hblockCols⟩ | ⟨hone, hone'⟩ := shape_of_numericMatrix hm
    · have hblock := mem_areasOf.mpr (List.mem_cons_self (a := Value.area block) (l := others))
      rw [hblockRows, hblockCols]
      exact .crossed hblock hblock
    · rw [hone, hone']
      exact .single

/-- A plain value that is multiplied with an area takes the place of a row or of a column, so the
product has the shape of the area. -/
theorem shapedFrom_multiplied (place : Place) (args : List Value) :
    (multiplied place args).ShapedFrom args := by
  rw [multiplied.eq_def]
  split
  · next l r others =>
    refine shapedFrom_areaOrError fun result h => ?_
    obtain ⟨a, ha, h⟩ := except_bind_eq_ok.mp h
    obtain ⟨b, hb, hresult⟩ := except_bind_eq_ok.mp h
    obtain ⟨hinner, hrows, hcols⟩ := Matrix.shape_of_multiply (orMatrixError_eq_ok hresult)
    rw [hrows, hcols]
    have hmem : ∀ block, l = .area block ∨ r = .area block →
        block ∈ areasOf (l :: r :: others) := by
      rintro block (rfl | rfl)
      · exact mem_areasOf.mpr (List.mem_cons_self ..)
      · exact mem_areasOf.mpr (List.mem_cons_of_mem _ (List.mem_cons_self ..))
    obtain ⟨left, hleft, hleftRows, hleftCols⟩ | ⟨hl, hl'⟩ := shape_of_numericMatrix ha
    · obtain ⟨right, hright, hrightRows, hrightCols⟩ | ⟨hr, hr'⟩ := shape_of_numericMatrix hb
      · rw [hleftRows, hrightCols]
        exact .crossed (hmem left (.inl hleft)) (hmem right (.inr hright))
      · rw [hr', ← hr, ← hinner, hleftRows, hleftCols]
        exact .crossed (hmem left (.inl hleft)) (hmem left (.inl hleft))
    · obtain ⟨right, hright, hrightRows, hrightCols⟩ | ⟨hr, hr'⟩ := shape_of_numericMatrix hb
      · rw [hl, ← hl', hinner, hrightRows, hrightCols]
        exact .crossed (hmem right (.inr hright)) (hmem right (.inr hright))
      · rw [hl, hr']
        exact .single
  · trivial

/-! ### All built-in functions -/

/-- **An area that a built-in function gives** has its shape from the areas among its arguments. -/
theorem shapedFrom_builtin {b : Builtin} (hb : b ∈ builtins) (place : Place) (args : List Value) :
    (b.body place args).ShapedFrom args := by
  obtain hlifts | hwhole := lifts_or_takesWhole b hb
  · exact (hlifts place args).shapedFrom
  · cases hwhole with
    | choose => exact shapedFrom_choose args
    | conditional => exact shapedFrom_conditional args
    | inverted => exact shapedFrom_inverted place args
    | multiplied => exact shapedFrom_multiplied place args
    | transposed => exact shapedFrom_transposed place args

end Worksheet

end CellFormula
