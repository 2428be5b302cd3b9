import CellFormula.Proofs.ArrayFormula
import CellFormula.Proofs.RowMajor

/-!
# Conditions that are areas

`IF` with an area of conditions picks cell by cell, from the two branches at the same position. The
branch that is not picked has no say in what the cell is, with one exception.

## The exception is load-bearing

Picking is a function of three elements, and it is applied by `broadcast`, which knows nothing of
picking. A function is applied only where every argument has an element; where a branch is an area
that is too short for the position, there is nothing to apply it to and the cell is not available,
also when that branch would not have been picked. So what is proved asks of the other branch that it
*reaches* the position, and of nothing else. That the exception cannot be left out is
`not_available_beside_branch`.

## Main definitions

* `Value.Reaches`, `Value.elementOr` — an argument at a position of the result
* `Value.Shows` — an area with this value in this cell
* `Worksheet.branchWhenFalse` — the branch for a condition that fails

## Main results

* `reaches_area_iff` — what an area reaches, by its shape
* `shows_broadcast` — a cell of what is computed cell by cell
* `Worksheet.shows_conditional` — a cell of `IF`
* `Worksheet.conditional_selects` — the branch that is not picked does not matter where it reaches
-/

namespace CellFormula

/-! ### Elements -/

namespace Value

variable {row col : Nat} {v : Value}

/-- The value has an element at a position of the result. -/
def Reaches (v : Value) (row col : Nat) : Prop := (elementAt? row col v).isSome = true

/-- The element at a position of the result, which is not available where there is none. -/
def elementOr (v : Value) (row col : Nat) : Value := (elementAt? row col v).getD (.error .na)

/-- The value is an area with this value in this cell. -/
def Shows (v : Value) (row col : Nat) (shown : Value) : Prop :=
  ∃ block, v = area block ∧ block.get? row col = some shown

/-- An area has one value in a cell. -/
theorem Shows.unique {a b : Value} (ha : v.Shows row col a) (hb : v.Shows row col b) : a = b := by
  obtain ⟨block, rfl, ha⟩ := ha
  obtain ⟨_, hblock, hb⟩ := hb
  cases hblock
  exact Option.some.inj (ha.symm.trans hb)

theorem reaches_of_not_isArea (h : ¬ v.IsArea) : v.Reaches row col := by
  rw [Reaches, elementAt?_of_not_isArea h]
  rfl

theorem elementAt?_of_reaches (h : v.Reaches row col) :
    elementAt? row col v = some (v.elementOr row col) := by
  obtain ⟨element, helement⟩ := Option.isSome_iff_exists.mp h
  rw [elementOr, helement, Option.getD_some]

theorem elementAt?_of_not_reaches (h : ¬ v.Reaches row col) : elementAt? row col v = none :=
  Option.not_isSome_iff_eq_none.mp h

theorem elementOr_of_not_reaches (h : ¬ v.Reaches row col) : v.elementOr row col = .error .na := by
  rw [elementOr, elementAt?_of_not_reaches h, Option.getD_none]

end Value

/-- A place is looked up inside the extent if it lies there, or if there is only one. -/
theorem repeatedIndex_lt_iff {extent place : Nat} :
    repeatedIndex extent place < extent ↔ extent = 1 ∨ place < extent := by
  rw [repeatedIndex]
  split <;> omega

/-- **An area reaches a position** if it has that row or only one, and that column or only one. -/
theorem reaches_area_iff {block : Area} (h : block.cells.WellFormed) {row col : Nat} :
    (Value.area block).Reaches row col ↔
      (block.rows = 1 ∨ row < block.rows) ∧ (block.cols = 1 ∨ col < block.cols) := by
  rw [← repeatedIndex_lt_iff, ← repeatedIndex_lt_iff]
  exact Matrix.isSome_get?_iff h

/-! ### Cells of what is computed cell by cell -/

theorem elementsAt?_of_reaches {args : List Value} {row col : Nat}
    (h : ∀ v ∈ args, v.Reaches row col) :
    elementsAt? args row col = some (args.map fun v => v.elementOr row col) :=
  elementsAt?_eq_some_iff.mpr (List.forall₂_map_right_iff.mpr
    (List.forall₂_same.mpr fun v hv => Value.elementAt?_of_reaches (h v hv)))

theorem elementsAt?_of_not_reaches {args : List Value} {v : Value} (hv : v ∈ args) {row col : Nat}
    (h : ¬ v.Reaches row col) : elementsAt? args row col = none :=
  elementsAt?_eq_none_iff.mpr ⟨v, hv, Value.elementAt?_of_not_reaches h⟩

/-- **A function is applied to the elements** where every argument has one. -/
theorem broadcastCell_of_reaches {args : List Value} {row col : Nat}
    (h : ∀ v ∈ args, v.Reaches row col) (f : List Value → Value) :
    broadcastCell args f row col = f (args.map fun v => v.elementOr row col) := by
  rw [broadcastCell, elementsAt?_of_reaches h]

/-- **It is not applied** where one of them has none. -/
theorem broadcastCell_of_not_reaches {args : List Value} {v : Value} (hv : v ∈ args)
    {row col : Nat} (h : ¬ v.Reaches row col) (f : List Value → Value) :
    broadcastCell args f row col = .error .na := by
  rw [broadcastCell, elementsAt?_of_not_reaches hv h]

/-- **Inside an area** that is one of the arguments, the result shows what the function makes of the
elements there. -/
theorem shows_broadcast {args : List Value} {block : Area} (hblock : .area block ∈ args)
    {row col : Nat} (hrow : row < block.rows) (hcol : col < block.cols)
    (f : List Value → Value) :
    (broadcast args f).Shows row col (broadcastCell args f row col) := by
  obtain ⟨rows, hgreatestRows⟩ := exists_isGreatest_areaExtents hblock Block.rows
  obtain ⟨cols, hgreatestCols⟩ := exists_isGreatest_areaExtents hblock Block.cols
  -- The result is at least as large as the area, so the position lies inside it.
  have hrows : row < rows := Nat.lt_of_lt_of_le hrow (hgreatestRows.2 ⟨block, hblock, rfl⟩)
  have hcols : col < cols := Nat.lt_of_lt_of_le hcol (hgreatestCols.2 ⟨block, hblock, rfl⟩)
  obtain ⟨firstRow, firstCol, hbroadcast⟩ :=
    broadcast_of_isGreatest hgreatestRows hgreatestCols (by omega) (by omega)
  exact ⟨_, hbroadcast f, Matrix.get?_tabulate (broadcastCell args f) hrows hcols⟩

/-! ### Cells of a condition -/

namespace Worksheet

/-- The branch for a condition that fails, among the arguments from the third one on. -/
def branchWhenFalse : List Value → Value
  | [] => .boolean false
  | v :: _ => branchValue (some v)

theorem pickBranch_of_toBool {condition : Value} {b : Bool} (h : condition.toBool = .ok b)
    (yes no : Value) : pickBranch condition yes no = if b then yes else no := by
  rw [pickBranch, h]
  rfl

variable {block : Area} {row col : Nat} {condition yes : Value} {rest : List Value}

/-- **Inside the condition** picking is applied to the elements of condition and branches. -/
theorem exists_shows_conditional (hcondition : block.get? row col = some condition) (yes : Value)
    (rest : List Value) :
    ∃ f : List Value → Value, (∀ c y n, f [c, y, n] = pickBranch c y n) ∧
      (conditional (.area block :: yes :: rest)).Shows row col
        (broadcastCell [.area block, branchValue (some yes), branchWhenFalse rest] f row col) := by
  obtain ⟨f, hf, hconditional⟩ : ∃ f : List Value → Value,
      (∀ c y n, f [c, y, n] = pickBranch c y n) ∧ conditional (.area block :: yes :: rest)
        = broadcast [.area block, branchValue (some yes), branchWhenFalse rest] f :=
    ⟨_, fun _ _ _ => rfl, by cases rest <;> rfl⟩
  obtain ⟨hrow, hcol⟩ := Matrix.lt_of_get?_eq_some hcondition
  have hmem : .area block ∈ [.area block, branchValue (some yes), branchWhenFalse rest] :=
    List.mem_cons_self
  exact ⟨f, hf, hconditional ▸ shows_broadcast hmem hrow hcol f⟩

/-- **A cell of a condition** picks from the elements of both branches, if they have one there. -/
theorem shows_conditional (hcondition : block.get? row col = some condition)
    (hyes : (branchValue (some yes)).Reaches row col)
    (hno : (branchWhenFalse rest).Reaches row col) :
    (conditional (.area block :: yes :: rest)).Shows row col (pickBranch condition
      ((branchValue (some yes)).elementOr row col) ((branchWhenFalse rest).elementOr row col)) := by
  obtain ⟨f, hf, hshows⟩ := exists_shows_conditional hcondition yes rest
  obtain ⟨hrow, hcol⟩ := Matrix.lt_of_get?_eq_some hcondition
  have hfirst : elementAt? row col (.area block) = some condition :=
    (elementAt?_area hrow hcol).trans hcondition
  have hreaches : ∀ v ∈ [.area block, branchValue (some yes), branchWhenFalse rest],
      v.Reaches row col := by
    simp only [List.forall_mem_cons]
    exact ⟨Option.isSome_of_eq_some hfirst, hyes, hno, fun _ h => absurd h List.not_mem_nil⟩
  have helement : (Value.area block).elementOr row col = condition := by
    rw [Value.elementOr, hfirst, Option.getD_some]
  rwa [broadcastCell_of_reaches hreaches, List.map_cons, List.map_cons, List.map_singleton,
    helement, hf] at hshows

/-- **A cell that a branch does not reach** is not available. -/
theorem shows_conditional_of_not_reaches (hcondition : block.get? row col = some condition)
    (hnot : ¬ (branchValue (some yes)).Reaches row col ∨ ¬ (branchWhenFalse rest).Reaches row col) :
    (conditional (.area block :: yes :: rest)).Shows row col (.error .na) := by
  have hunreached : ∃ v ∈ [.area block, branchValue (some yes), branchWhenFalse rest],
      ¬ v.Reaches row col := by
    obtain hyes | hno := hnot
    · exact ⟨_, by simp, hyes⟩
    · exact ⟨_, by simp, hno⟩
  obtain ⟨v, hv, hv_not⟩ := hunreached
  obtain ⟨f, -, hshows⟩ := exists_shows_conditional hcondition yes rest
  rwa [broadcastCell_of_not_reaches hv hv_not] at hshows

/-- **A cell of a condition depends on the branch that is picked there.** Where the condition holds,
the cell is the element of the second argument, whatever the third one is or whether there is one,
as long as that reaches the position; and the other way round where the condition fails. Where one
of the branches does not reach the position, the cell is not available. -/
theorem conditional_selects (hcondition : block.get? row col = some condition) (yes : Value)
    (rest : List Value) :
    let result := conditional (.area block :: yes :: rest)
    let whenTrue := branchValue (some yes)
    let whenFalse := branchWhenFalse rest
    (condition.toBool = .ok true → whenFalse.Reaches row col →
      result.Shows row col (whenTrue.elementOr row col)) ∧
    (condition.toBool = .ok false → whenTrue.Reaches row col →
      result.Shows row col (whenFalse.elementOr row col)) ∧
    (¬ whenTrue.Reaches row col ∨ ¬ whenFalse.Reaches row col →
      result.Shows row col (.error .na)) := by
  intro result whenTrue whenFalse
  refine ⟨fun hbool hfalse => ?_, fun hbool htrue => ?_,
    shows_conditional_of_not_reaches hcondition⟩
  · by_cases htrue : whenTrue.Reaches row col
    · have hshows := shows_conditional hcondition htrue hfalse
      rwa [pickBranch_of_toBool hbool] at hshows
    · rw [Value.elementOr_of_not_reaches htrue]
      exact shows_conditional_of_not_reaches hcondition (.inl htrue)
  · by_cases hfalse : whenFalse.Reaches row col
    · have hshows := shows_conditional hcondition htrue hfalse
      rwa [pickBranch_of_toBool hbool] at hshows
    · rw [Value.elementOr_of_not_reaches hfalse]
      exact shows_conditional_of_not_reaches hcondition (.inr hfalse)

theorem conditional_selects_second_cell :
    let block : Area := ⟨0, 0, ⟨2, 1, #[.boolean true, .boolean false]⟩⟩
    let sevens : Value := .area ⟨0, 0, ⟨2, 1, #[.number 7.0, .number 8.0]⟩⟩
    block.get? 1 0 = some (.boolean false) ∧ (Value.boolean false).toBool = .ok false ∧
      (Value.error .ref).Reaches 1 0 ∧
      (conditional [.area block, .error .ref, sevens]).Shows 1 0 (.number 8.0) := by
  intro block sevens
  have hcondition : block.get? 1 0 = some (.boolean false) := rfl
  have hbool : (Value.boolean false).toBool = .ok false := rfl
  have hreaches : (Value.error .ref).Reaches 1 0 := Value.reaches_of_not_isArea id
  exact ⟨hcondition, hbool, hreaches,
    (conditional_selects hcondition (.error .ref) [sevens]).2.1 hbool hreaches⟩

/-- **A branch that is too short shows.** With three conditions that all hold, the last cell of the
result is not the second argument if the third one has only two cells. -/
theorem not_available_beside_branch :
    let block : Area := ⟨0, 0, ⟨3, 1, #[.boolean true, .boolean true, .boolean true]⟩⟩
    let short : Area := ⟨0, 0, ⟨2, 1, #[.number 5.0, .number 6.0]⟩⟩
    block.get? 2 0 = some (.boolean true) ∧ (Value.boolean true).toBool = .ok true ∧
      (conditional [.area block, .number 1.0, .number 0.0]).Shows 2 0 (.number 1.0) ∧
      ¬ (conditional [.area block, .number 1.0, .area short]).Shows 2 0 (.number 1.0) := by
  intro block short
  have hcondition : block.get? 2 0 = some (.boolean true) := rfl
  have hone : (branchValue (some (.number 1.0))).Reaches 2 0 := Value.reaches_of_not_isArea id
  have hzero : (branchWhenFalse [.number 0.0]).Reaches 2 0 := Value.reaches_of_not_isArea id
  have hshort : ¬ (branchWhenFalse [.area short]).Reaches 2 0 := nofun
  refine ⟨hcondition, rfl, shows_conditional hcondition hone hzero, fun hshows => ?_⟩
  exact absurd (hshows.unique (shows_conditional_of_not_reaches hcondition (.inr hshort))) nofun

end Worksheet

end CellFormula
