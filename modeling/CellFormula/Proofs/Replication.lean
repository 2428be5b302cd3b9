import CellFormula.Proofs.ConditionalCells

/-!
# Plain values beside areas

A function of plain values that is applied to areas is applied cell by cell, and a plain value among
the arguments counts in every cell. So it might as well be written out: an area of the shape of the
result, with that value everywhere, gives the same cells. This holds of any number of plain values
at once and of every function, which is why operators and lifted functions need no rule of their own
for plain values.

## What is deliberately absent

Nothing is said about where the result begins. It begins where the first area among the arguments
does, and an area that is written in the place of a plain value may come before that one.

## The two ways of stretching

An axis with one place is stretched, and so is a plain value. An axis with more than one place is
not: behind its end the result has no cell that the function made. A result can therefore have all
three kinds of arguments beside each other, and a cell is one of two things (`IsCellOf`).

## Main definitions

* `Value.Element`, `Block.Lacks` — what an argument has at a position
* `IsCellOf` — what is in a cell of the result
* `Value.Replicated` — a plain value that is written out

## Main results

* `isCellOf_iff` — the cells that are computed
* `isGreatest_replicated`, `broadcastCell_replicated` — what writing out a value keeps
* `broadcast_pointwise` — the result, cell by cell
-/

namespace CellFormula

/-! ### What an argument has at a position -/

/-- The value has this element at a position of the result. A plain value is its own element
everywhere. An area has its cell there, and the first place of an axis stands for all if it is the
only one. -/
inductive Value.Element (row col : Nat) : Value → Value → Prop
  | plain {v : Value} (hv : ¬ v.IsArea) : Element row col v v
  | cell {block : Area} {v : Value}
    (hv : block.get? (if block.rows = 1 then 0 else row) (if block.cols = 1 then 0 else col)
      = some v) : Element row col (.area block) v

/-- The area has no cell for a position of the result: it ends before, along an axis that is not
repeated. -/
def Block.Lacks (block : Area) (row col : Nat) : Prop :=
  block.rows ≠ 1 ∧ block.rows ≤ row ∨ block.cols ≠ 1 ∧ block.cols ≤ col

/-- What is in a cell of the result: what the function makes of one element of each argument, or not
available if some area lacks the position. -/
def IsCellOf (args : List Value) (f : List Value → Value) (row col : Nat) (v : Value) : Prop :=
  (∃ elements, List.Forall₂ (Value.Element row col) args elements ∧ v = f elements) ∨
    ∃ block, .area block ∈ args ∧ block.Lacks row col ∧ v = .error .na

section

variable {row col : Nat}

theorem Value.element_iff {v e : Value} : v.Element row col e ↔ elementAt? row col v = some e := by
  constructor
  · rintro (hv | hcell)
    · exact elementAt?_of_not_isArea hv row col
    · exact hcell
  · intro h
    cases v with
    | area block => exact .cell h
    | _ => cases h; exact .plain id

theorem Block.lacks_iff {block : Area} (h : block.cells.WellFormed) :
    block.Lacks row col ↔ elementAt? row col (.area block) = none := by
  rw [← Option.not_isSome_iff_eq_none, ← Value.Reaches, reaches_area_iff h, Lacks]
  omega

/-- **The cells that are computed** are those of the result. -/
theorem isCellOf_iff {args : List Value} (hargs : ∀ block, .area block ∈ args →
    block.cells.WellFormed) {f : List Value → Value} {v : Value} :
    IsCellOf args f row col v ↔ broadcastCell args f row col = v := by
  have helements {elements : List Value} : List.Forall₂ (Value.Element row col) args elements ↔
      elementsAt? args row col = some elements := by
    rw [elementsAt?_eq_some_iff]
    exact ⟨.imp fun _ _ => Value.element_iff.mp, .imp fun _ _ => Value.element_iff.mpr⟩
  have hlacks : (∃ block, .area block ∈ args ∧ block.Lacks row col) ↔
      elementsAt? args row col = none := by
    rw [elementsAt?_eq_none_iff]
    constructor
    · rintro ⟨block, hblock, hlacks⟩
      exact ⟨_, hblock, (Block.lacks_iff (hargs block hblock)).mp hlacks⟩
    · rintro ⟨w, hw, hnone⟩
      cases w with
      | area block => exact ⟨block, hw, (Block.lacks_iff (hargs block hw)).mpr hnone⟩
      | _ => cases hnone
  have hsplit : IsCellOf args f row col v ↔
      (∃ elements, elementsAt? args row col = some elements ∧ v = f elements) ∨
        elementsAt? args row col = none ∧ v = .error .na := by
    rw [← hlacks]
    simp only [IsCellOf, helements, exists_and_right, ← and_assoc]
  rw [hsplit, broadcastCell]
  cases elementsAt? args row col with
  | none => simp [eq_comm]
  | some elements => simp [eq_comm]

end

/-! ### Plain values that are written out -/

/-- The same value, or, in the place of a plain value, an area of this shape with that value in
every cell. It may begin anywhere. -/
inductive Value.Replicated (rows cols : Nat) : Value → Value → Prop
  | kept (v : Value) : Replicated rows cols v v
  | filled {v : Value} {cells : Matrix Value} (hv : ¬ v.IsArea)
    (hcells : Matrix.filled rows cols v = .ok cells) (firstRow firstCol : Nat) :
    Replicated rows cols v (.area ⟨firstRow, firstCol, cells⟩)

section

variable {rows cols : Nat} {args args' : List Value}

/-- Inside the shape, the elements are the same. -/
theorem Value.Replicated.elementAt?_eq {v v' : Value} (h : v.Replicated rows cols v')
    {row col : Nat} (hrow : row < rows) (hcol : col < cols) :
    elementAt? row col v' = elementAt? row col v := by
  cases h with
  | kept => rfl
  | filled hv hcells firstRow firstCol =>
    obtain ⟨rfl, rfl, hget⟩ := Matrix.of_filled hcells
    rw [elementAt?_of_not_isArea hv]
    exact (elementAt?_area hrow hcol).trans (hget row hrow col hcol)

/-- No area is lost, and the new ones have the shape. -/
theorem mem_replicated (h : List.Forall₂ (Value.Replicated rows cols) args args') (block : Area) :
    (.area block ∈ args → .area block ∈ args') ∧
      (.area block ∈ args' → .area block ∈ args ∨ block.rows = rows ∧ block.cols = cols) := by
  induction h with
  | nil => exact ⟨id, .inl⟩
  | @cons v v' args args' hv _ ih =>
    obtain ⟨hkeeps, hnew⟩ := ih
    simp only [List.mem_cons]
    refine ⟨fun hblock => ?_, fun hblock => ?_⟩
    · obtain rfl | hblock := hblock
      · cases hv with
        | kept => exact .inl rfl
        | filled hplain => exact absurd trivial hplain
      · exact .inr (hkeeps hblock)
    · obtain rfl | hblock := hblock
      · cases hv with
        | kept => exact .inl (.inl rfl)
        | filled hplain hcells =>
          obtain ⟨hrows, hcols, -⟩ := Matrix.of_filled hcells
          exact .inr ⟨hrows, hcols⟩
      · exact (hnew hblock).imp_left .inr

/-- **The greatest extent is not changed** by areas that have it. -/
theorem isGreatest_replicated (h : List.Forall₂ (Value.Replicated rows cols) args args')
    {extent : Area → Nat} {n : Nat} (hn : IsGreatest (areaExtents extent args) n)
    (hextent : ∀ block : Area, block.rows = rows ∧ block.cols = cols → extent block = n) :
    IsGreatest (areaExtents extent args') n := by
  obtain ⟨⟨block, hblock, hmax⟩, hbound⟩ := hn
  refine ⟨⟨block, (mem_replicated h block).1 hblock, hmax⟩, ?_⟩
  rintro _ ⟨other, hother, rfl⟩
  obtain hold | hshape := (mem_replicated h other).2 hother
  · exact hbound ⟨other, hold, rfl⟩
  · exact Nat.le_of_eq (hextent other hshape)

/-- **No cell is changed** inside the shape. -/
theorem broadcastCell_replicated (h : List.Forall₂ (Value.Replicated rows cols) args args')
    (f : List Value → Value) {row col : Nat} (hrow : row < rows) (hcol : col < cols) :
    broadcastCell args' f row col = broadcastCell args f row col := by
  have helements : elementsAt? args' row col = elementsAt? args row col := by
    rw [elementsAt?, elementsAt?]
    induction h with
    | nil => rfl
    | cons hv _ ih => rw [List.mapM_cons, List.mapM_cons, hv.elementAt?_eq hrow hcol, ih]
  rw [broadcastCell, broadcastCell, helements]

end

/-! ### The result -/

/-- **A function of plain values is applied cell by cell.** Without areas it is applied once. With
areas the result is an area with the greatest extents among them, and each cell is what the function
makes of the elements there, or not available where an area lacks the position. The cells stay the
same when plain values are written out as areas of that shape. -/
theorem broadcast_pointwise {args : List Value}
    (hargs : ∀ block, .area block ∈ args → block.cells.WellFormed) (f : List Value → Value) :
    ((∀ v ∈ args, ¬ v.IsArea) → broadcast args f = f args) ∧
      ((∃ v ∈ args, v.IsArea) → ∃ block, broadcast args f = .area block ∧
        block.cells.WellFormed ∧ IsGreatest (areaExtents Block.rows args) block.rows ∧
        IsGreatest (areaExtents Block.cols args) block.cols ∧
        (∀ row < block.rows, ∀ col < block.cols, ∀ v,
          block.get? row col = some v ↔ IsCellOf args f row col v) ∧
        ∀ args', List.Forall₂ (Value.Replicated block.rows block.cols) args args' →
          ∃ block', broadcast args' f = .area block' ∧ block'.cells = block.cells) := by
  refine ⟨fun hnone => broadcast_of_not_isArea hnone f, fun harea => ?_⟩
  obtain ⟨some, hsome⟩ := exists_area_mem harea
  obtain ⟨hsomeRows, hsomeCols, -⟩ := hargs some hsome
  obtain ⟨rows, hrows⟩ := exists_isGreatest_areaExtents hsome Block.rows
  obtain ⟨cols, hcols⟩ := exists_isGreatest_areaExtents hsome Block.cols
  have hrowsPos : 0 < rows := Nat.lt_of_lt_of_le hsomeRows (hrows.2 ⟨some, hsome, rfl⟩)
  have hcolsPos : 0 < cols := Nat.lt_of_lt_of_le hsomeCols (hcols.2 ⟨some, hsome, rfl⟩)
  obtain ⟨firstRow, firstCol, hbroadcast⟩ :=
    broadcast_of_isGreatest hrows hcols hrowsPos hcolsPos
  refine ⟨_, hbroadcast f, Matrix.wellFormed_tabulate _ hrowsPos hcolsPos, hrows, hcols, ?_, ?_⟩
  · intro row hrow col hcol v
    have hget := Matrix.get?_tabulate (broadcastCell args f) hrow hcol
    exact (iff_of_eq (congrArg (· = Option.some v) hget)).trans
      (Option.some_inj.trans (isCellOf_iff hargs).symm)
  · intro args' hreplicated
    have hrows' : IsGreatest (areaExtents Block.rows args') rows :=
      isGreatest_replicated hreplicated hrows fun _ hshape => hshape.1
    have hcols' : IsGreatest (areaExtents Block.cols args') cols :=
      isGreatest_replicated hreplicated hcols fun _ hshape => hshape.2
    obtain ⟨firstRow', firstCol', hbroadcast'⟩ :=
      broadcast_of_isGreatest hrows' hcols' hrowsPos hcolsPos
    exact ⟨_, hbroadcast' f, Matrix.tabulate_congr fun row hrow col hcol =>
      broadcastCell_replicated hreplicated f hrow hcol⟩

/-- Three cells beside two: the last row has nothing to join. -/
theorem broadcast_pointwise_short :
    let tall : Area := ⟨0, 0, ⟨3, 1, #[.text "a", .text "b", .text "c"]⟩⟩
    let short : Area := ⟨4, 4, ⟨2, 1, #[.text "d", .text "e"]⟩⟩
    let args : List Value := [.area tall, .area short]
    (∀ block, .area block ∈ args → block.cells.WellFormed) ∧ (∃ v ∈ args, v.IsArea) ∧
      ∃ block, broadcast args (Operator.compute .concat) = .area block ∧ block.rows = 3 ∧
        block.get? 1 0 = some (.text "be") ∧ block.get? 2 0 = some (.error .na) := by
  intro tall short args
  have hmem : ∀ block, .area block ∈ args → block = tall ∨ block = short := by
    simp [args]
  have hargs : ∀ block, .area block ∈ args → block.cells.WellFormed := by
    intro block hblock
    obtain rfl | rfl := hmem block hblock <;> decide
  have harea : ∃ v ∈ args, v.IsArea := ⟨_, List.mem_cons_self, trivial⟩
  have hgreatest {extent : Area → Nat} (h : extent short ≤ extent tall) :
      IsGreatest (areaExtents extent args) (extent tall) := by
    refine ⟨⟨tall, List.mem_cons_self, rfl⟩, ?_⟩
    rintro _ ⟨block, hblock, rfl⟩
    obtain rfl | rfl := hmem block hblock
    · exact Nat.le_refl _
    · exact h
  obtain ⟨block, hblock, -, hrows, hcols, hcells, -⟩ :=
    (broadcast_pointwise hargs (Operator.compute .concat)).2 harea
  have hthree : block.rows = 3 := hrows.unique (hgreatest (by decide))
  have hone : block.cols = 1 := hcols.unique (hgreatest (by decide))
  refine ⟨hargs, harea, block, hblock, hthree, ?_, ?_⟩
  · exact (hcells 1 (by omega) 0 (by omega) _).mpr
      (.inl ⟨[.text "b", .text "e"], .cons (.cell rfl) (.cons (.cell rfl) .nil), rfl⟩)
  · exact (hcells 2 (by omega) 0 (by omega) _).mpr
      (.inr ⟨short, by simp [args], .inl ⟨by decide, by decide⟩, rfl⟩)

end CellFormula
