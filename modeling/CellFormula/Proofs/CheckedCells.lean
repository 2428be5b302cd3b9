import CellFormula.Proofs.MadeMatrices
import CellFormula.Proofs.MatrixEntries
import CellFormula.Worksheet.Arrays

/-!
# Accesses to cells by their places

A place beyond the last cell is read as zero and written to without effect. Here the routines are
written a second time, with the same loops over accesses that can fail: if the list of cells ends
before a place that is read, written or exchanged, the whole routine has no value. For matrices that
are well formed no routine is without a value, and the value is the same. So no routine counts on
the zeros beyond the cells, and none reaches past the end of a list.

What keeps the accesses inside is that every row and column that is computed with comes from a
shape, and that no round of a loop changes the number of cells. The one row that comes from
elsewhere is that of a pivot, which is found by a search that starts on the diagonal and does not
leave the shape.

## Main definitions

* `Matrix.cell?`, `Matrix.modify?`, `Matrix.swap?` — accesses that can fail
* `Matrix.tabulate?`, `Matrix.transpose?`, `Matrix.multiply?`, `Matrix.determinant?`,
  `Matrix.inverse?` — the routines with such accesses
* `RunsTo` — a computation that does not fail, and what it keeps

## Main results

* `Matrix.runsTo_addProductRow` and the lemmas like it — one for each loop
* `Matrix.determinantLoop?_eq_some`, `Matrix.inverseLoop?_eq_some` — eliminations
* `Matrix.made_matrices_are_full` — what is made can be computed with
-/

namespace CellFormula

/-! ### Loops whose steps may have no value -/

section

variable {α β : Type} {as : List α}

theorem mapM_eq_some_map {f? : α → Option β} {f : α → β} (h : ∀ a ∈ as, f? a = some (f a)) :
    as.mapM f? = some (as.map f) := by
  induction as with
  | nil => rfl
  | cons a as ih =>
    obtain ⟨ha, has⟩ := List.forall_mem_cons.mp h
    rw [List.mapM_cons, ha, ih has]
    rfl

/-- The computation has this value, and the value has the property. -/
def RunsTo (Kept : β → Prop) (x? : Option β) (x : β) : Prop := x? = some x ∧ Kept x

/-- **A loop runs to its value** if each round does, from values that have what is kept. -/
theorem RunsTo.foldl {Kept : β → Prop} {f? : β → α → Option β} {f : β → α → β} {init : β}
    (hinit : Kept init) (h : ∀ b, Kept b → ∀ a ∈ as, RunsTo Kept (f? b a) (f b a)) :
    RunsTo Kept (as.foldlM f? init) (as.foldl f init) := by
  induction as generalizing init with
  | nil => exact ⟨rfl, hinit⟩
  | cons a as ih =>
    obtain ⟨hfirst, hkept⟩ := h init hinit a List.mem_cons_self
    rw [List.foldlM_cons, hfirst]
    exact ih hkept fun b hb a' ha' => h b hb a' (List.mem_cons_of_mem a ha')

end

namespace Matrix

variable {α : Type} {m : Matrix α} {rows cols r c k p q : Nat}

/-! ### Accesses that can fail -/

/-- What is kept at the place where row `r` and column `c` belong, if the list of cells is that
long. Nobody asks whether the matrix has such a row and column. -/
def cell? (m : Matrix α) (r c : Nat) : Option α := m.cells[r * m.cols + c]?

/-- The table of these cells, if all of them have a value. -/
def tabulate? (rows cols : Nat) (f? : Nat → Nat → Option α) : Option (Matrix α) := do
  let lines ← (List.range rows).mapM fun r => (List.range cols).mapM (f? r)
  return ⟨rows, cols, lines.flatten.toArray⟩

/-- The matrix with rows and columns exchanged. -/
def transpose? (m : Matrix α) : Option (Matrix α) := tabulate? m.cols m.rows fun c r => m.cell? r c

theorem tabulate?_eq_some {f? : Nat → Nat → Option α} {f : Nat → Nat → α}
    (h : ∀ r < rows, ∀ c < cols, f? r c = some (f r c)) :
    tabulate? rows cols f? = some (tabulate rows cols f) := by
  have hlines : (List.range rows).mapM (fun r => (List.range cols).mapM (f? r))
      = some ((List.range rows).map fun r => (List.range cols).map (f r)) :=
    mapM_eq_some_map fun r hr => mapM_eq_some_map fun c hc =>
      h r (List.mem_range.mp hr) c (List.mem_range.mp hc)
  have hcells : ((List.range rows).map fun r => (List.range cols).map (f r)).flatten.toArray
      = (tabulate rows cols f).cells := by
    rw [← Array.toList_inj, toList_tabulate, List.flatMap_def]
  rw [tabulate?, hlines]
  exact congrArg (fun cells => some (Matrix.mk rows cols cells)) hcells

theorem cell?_eq_get? (hr : r < m.rows) (hc : c < m.cols) : m.cell? r c = m.get? r c :=
  (get?_of_lt hr hc).symm

theorem transpose?_eq_some (h : m.WellFormed) : m.transpose? = some m.transpose := by
  obtain ⟨cell, hcell⟩ := exists_eq_tabulate h
  have htranspose : m.transpose = tabulate m.cols m.rows fun c r => cell r c := by
    rw [hcell]
    exact transpose_tabulate ..
  rw [htranspose]
  refine tabulate?_eq_some fun c hc r hr => ?_
  rw [cell?_eq_get? hr hc, hcell]
  exact get?_tabulate cell hr hc

/-! ### Writes and exchanges that can fail -/

/-- The list with another cell at a place, if it is that long. -/
def modify? (cells : Array α) (place : Nat) (u : α → α) : Option (Array α) :=
  if place < cells.size then some (cells.modify place u) else none

/-- The list with two cells exchanged, if it is that long. -/
def swap? (cells : Array α) (p q : Nat) : Option (Array α) :=
  if p < cells.size ∧ q < cells.size then some (cells.swapIfInBounds p q) else none

theorem runsTo_modify {cells : Array α} {size place : Nat} (hsize : cells.size = size)
    (h : place < size) (u : α → α) :
    RunsTo (fun cells : Array α => cells.size = size) (modify? cells place u)
      (cells.modify place u) :=
  ⟨if_pos (hsize.symm ▸ h), Array.size_modify.trans hsize⟩

theorem runsTo_swap {cells : Array α} {size : Nat} (hsize : cells.size = size) (hp : p < size)
    (hq : q < size) :
    RunsTo (fun cells : Array α => cells.size = size) (swap? cells p q)
      (cells.swapIfInBounds p q) :=
  ⟨if_pos ⟨hsize.symm ▸ hp, hsize.symm ▸ hq⟩, Array.size_swapIfInBounds.trans hsize⟩

/-- Rows `p` and `q` change places. -/
def swapRows? (n p q : Nat) (cells : Array α) : Option (Array α) :=
  (List.range n).foldlM (fun cells j => swap? cells (p * n + j) (q * n + j)) cells

theorem runsTo_swapRows {cells : Array α} {n : Nat} (hsize : cells.size = n * n) (hp : p < n)
    (hq : q < n) :
    RunsTo (fun cells : Array α => cells.size = n * n) (swapRows? n p q cells)
      (swapRows n p q cells) := by
  refine RunsTo.foldl hsize fun cells hcells j hj => ?_
  have hj' : j < n := List.mem_range.mp hj
  exact runsTo_swap hcells (place_lt hp hj') (place_lt hq hj')

/-- Both lists have as many cells as a square matrix of this size. -/
def BothSized (n : Nat) (both : Array α × Array α) : Prop :=
  both.1.size = n * n ∧ both.2.size = n * n

/-- Rows `p` and `q` of both matrices change places. -/
def swapBoth? (n p q : Nat) (both : Array α × Array α) : Option (Array α × Array α) := do
  return (← swapRows? n p q both.1, ← swapRows? n p q both.2)

theorem runsTo_swapBoth {both : Array α × Array α} {n : Nat} (h : BothSized n both) (hp : p < n)
    (hq : q < n) :
    RunsTo (BothSized n) (swapBoth? n p q both)
      (swapRows n p q both.1, swapRows n p q both.2) := by
  obtain ⟨hcells, hsize⟩ := runsTo_swapRows h.1 hp hq
  obtain ⟨hinv, hsizeInv⟩ := runsTo_swapRows h.2 hp hq
  refine ⟨?_, hsize, hsizeInv⟩
  rw [swapBoth?, hcells, hinv]
  rfl

section

variable [PivotNumber α] {a b : Matrix α} {cells : Array α} {both : Array α × Array α}
  {limit det factor pivot : α} {n i j : Nat}

open PivotNumber (atMost below isZero magnitude)

/-! ### Routines with such accesses -/

/-- Row `k` of `b`, multiplied by a factor, is added to row `i` of the product. -/
def addRow? (b : Matrix α) (i k : Nat) (factor : α) (out : Array α) : Option (Array α) :=
  (List.range b.cols).foldlM
    (fun out j => do
      let x ← b.cells[k * b.cols + j]?
      modify? out (i * b.cols + j) (· + factor * x)) out

/-- Row `i` of the product is added up. -/
def addProductRow? (a b : Matrix α) (out : Array α) (i : Nat) : Option (Array α) :=
  (List.range a.cols).foldlM
    (fun out k => do
      let factor ← a.cells[i * a.cols + k]?
      if isZero factor then return out else addRow? b i k factor out) out

/-- The matrix product. -/
def multiply? (a b : Matrix α) : Option (Except MatrixError (Matrix α)) :=
  if a.cols = b.rows then
    ((List.range a.rows).foldlM (addProductRow? a b) (Array.replicate (a.rows * b.cols) 0)).map
      (ofCells a.rows b.cols)
  else some (.error (.dimensionMismatch a.cols b.rows))

/-- The row of the pivot of column `k`. -/
def searchPivot? (cells : Array α) (n k : Nat) : Option Nat := do
  let first ← cells[k * n + k]?
  let best ← (List.range' (k + 1) (n - (k + 1))).foldlM
    (fun best i => do
      let size := magnitude (← cells[i * n + k]?)
      return if below best.2 size then (i, size) else best)
    (k, magnitude first)
  return best.1

/-- A multiple of row `k` is taken from row `i`, from column `k` on. -/
def subtractRow? (n k i : Nat) (factor : α) (cells : Array α) : Option (Array α) :=
  (List.range' k (n - k)).foldlM
    (fun cells j => do
      let x ← cells[k * n + j]?
      modify? cells (i * n + j) (· - factor * x)) cells

/-- Column `k` is cleared below the diagonal. -/
def clearRowsBelow? (n k : Nat) (pivot : α) (cells : Array α) : Option (Array α) :=
  (List.range' (k + 1) (n - (k + 1))).foldlM
    (fun cells i => do
      let factor := (← cells[i * n + k]?) / pivot
      if isZero factor then return cells else subtractRow? n k i factor cells) cells

/-- The determinant from column `k` on. -/
def determinantLoop? (n : Nat) (limit : α) : List Nat → Array α → α → Option α
  | [], _, det => some det
  | k :: columns, cells, det => do
    let p ← searchPivot? cells n k
    let pivot ← cells[p * n + k]?
    if atMost (magnitude pivot) limit then return 0
    else if p = k then
      determinantLoop? n limit columns (← clearRowsBelow? n k pivot cells) (det * pivot)
    else
      let turned ← swapRows? n k p cells
      determinantLoop? n limit columns (← clearRowsBelow? n k pivot turned) (-det * pivot)

/-- The determinant of a square matrix. -/
def determinant? (m : Matrix α) : Option (Except MatrixError α) :=
  if m.rows = m.cols then
    (determinantLoop? m.rows m.tolerance (List.range m.rows) m.cells 1).map .ok
  else some (.error (.notSquare m.rows m.cols))

/-- Row `k` of both matrices is divided by the pivot. -/
def divideRows? (n k : Nat) (pivot : α) (both : Array α × Array α) : Option (Array α × Array α) :=
  (List.range n).foldlM
    (fun both j => do
      let cells ← modify? both.1 (k * n + j) (· / pivot)
      let inv ← modify? both.2 (k * n + j) (· / pivot)
      return (cells, inv)) both

/-- A multiple of row `k` is taken from row `i` of both matrices. -/
def subtractRows? (n k i : Nat) (factor : α) (both : Array α × Array α) :
    Option (Array α × Array α) :=
  (List.range n).foldlM
    (fun both j => do
      let x ← both.1[k * n + j]?
      let cells ← modify? both.1 (i * n + j) (· - factor * x)
      let y ← both.2[k * n + j]?
      let inv ← modify? both.2 (i * n + j) (· - factor * y)
      return (cells, inv)) both

/-- Column `k` of the first matrix is cleared in all rows but row `k`. -/
def clearOtherRows? (n k : Nat) (both : Array α × Array α) : Option (Array α × Array α) :=
  (List.range n).foldlM
    (fun both i => do
      if i = k then return both
      else
        let factor ← both.1[i * n + k]?
        if isZero factor then return both else subtractRows? n k i factor both) both

/-- The inverse from column `k` on. -/
def inverseLoop? (n : Nat) (limit : α) :
    List Nat → Array α × Array α → Option (Except MatrixError (Array α))
  | [], both => some (.ok both.2)
  | k :: columns, both => do
    let p ← searchPivot? both.1 n k
    let size := magnitude (← both.1[p * n + k]?)
    if atMost size limit then return .error .singular
    else
      let turned ← if p = k then some both else swapBoth? n k p both
      let pivot ← turned.1[k * n + k]?
      inverseLoop? n limit columns (← clearOtherRows? n k (← divideRows? n k pivot turned))

/-- The inverse of a square matrix. -/
def inverse? (m : Matrix α) : Option (Except MatrixError (Matrix α)) :=
  if m.rows = m.cols then
    match identity m.rows with
    | .ok unit => do
      let result ← inverseLoop? m.rows m.tolerance (List.range m.rows) (m.cells, unit.cells)
      return result.bind (ofCells m.rows m.rows)
    | .error e => some (.error e)
  else some (.error (.notSquare m.rows m.cols))

/-! ### They have their values -/

/-- **An access inside the list** does not fail. -/
theorem getElem?_eq_cellAt {place size : Nat} (hsize : cells.size = size) (h : place < size) :
    cells[place]? = some (cellAt cells place) := by
  have hplace : place < cells.size := hsize.symm ▸ h
  rw [Array.getElem?_eq_getElem hplace, cellAt_of_lt hplace]

theorem runsTo_addRow (hb : b.WellFormed) (hk : k < b.rows) (hi : i < rows)
    (hsize : cells.size = rows * b.cols) :
    RunsTo (fun out : Array α => out.size = rows * b.cols) (addRow? b i k factor cells)
      (addRow b i k factor cells) := by
  refine RunsTo.foldl hsize fun out hout j hj => ?_
  have hj' : j < b.cols := List.mem_range.mp hj
  rw [getElem?_eq_cellAt hb.2.2 (place_lt hk hj'), Option.bind_eq_bind, Option.bind_some]
  exact runsTo_modify hout (place_lt hi hj') _

theorem runsTo_addProductRow (ha : a.WellFormed) (hb : b.WellFormed) (hinner : a.cols = b.rows)
    (hi : i < a.rows) (hsize : cells.size = a.rows * b.cols) :
    RunsTo (fun out : Array α => out.size = a.rows * b.cols) (addProductRow? a b cells i)
      (addProductRow a b cells i) := by
  refine RunsTo.foldl hsize fun out hout k hk => ?_
  have hk' : k < a.cols := List.mem_range.mp hk
  rw [getElem?_eq_cellAt ha.2.2 (place_lt hi hk'), Option.bind_eq_bind, Option.bind_some]
  dsimp only
  split
  · exact ⟨rfl, hout⟩
  · exact runsTo_addRow hb (hinner ▸ hk') hi hout

theorem multiply?_eq_some (ha : a.WellFormed) (hb : b.WellFormed) :
    a.multiply? b = some (a.multiply b) := by
  rw [multiply?, multiply]
  split
  · next hinner =>
    have hproduct : RunsTo (fun out : Array α => out.size = a.rows * b.cols)
        ((List.range a.rows).foldlM (addProductRow? a b) (Array.replicate (a.rows * b.cols) 0))
        ((List.range a.rows).foldl (addProductRow a b) (Array.replicate (a.rows * b.cols) 0)) :=
      RunsTo.foldl Array.size_replicate fun out hout i hi =>
        runsTo_addProductRow ha hb hinner (List.mem_range.mp hi) hout
    rw [hproduct.1]
    rfl
  · rfl

/-! ### Eliminations -/

theorem searchPivot?_eq_some (hsize : cells.size = n * n) (hk : k < n) :
    searchPivot? cells n k = some (searchPivot (fun i => cellAt cells (i * n + k)) n k) := by
  rw [searchPivot?, getElem?_eq_cellAt hsize (place_lt hk hk), Option.bind_eq_bind,
    Option.bind_some]
  have hsearch : RunsTo (fun _ : Nat × α => True)
      ((List.range' (k + 1) (n - (k + 1))).foldlM
        (fun best i => do
          let size := magnitude (← cells[i * n + k]?)
          return if below best.2 size then (i, size) else best)
        (k, magnitude (cellAt cells (k * n + k))))
      ((List.range' (k + 1) (n - (k + 1))).foldl
        (fun best i =>
          let size := magnitude (cellAt cells (i * n + k))
          if below best.2 size then (i, size) else best)
        (k, magnitude (cellAt cells (k * n + k)))) := by
    refine RunsTo.foldl trivial fun best _ i hi => ?_
    have hi' := List.mem_range'_1.mp hi
    rw [getElem?_eq_cellAt hsize (place_lt (by omega) hk)]
    exact ⟨rfl, trivial⟩
  rw [hsearch.1]
  rfl

theorem runsTo_subtractRow (hsize : cells.size = n * n) (hk : k < n) (hi : i < n) :
    RunsTo (fun cells : Array α => cells.size = n * n) (subtractRow? n k i factor cells)
      (subtractRow n k i factor cells) := by
  refine RunsTo.foldl hsize fun cells hcells j hj => ?_
  have hj' := List.mem_range'_1.mp hj
  rw [getElem?_eq_cellAt hcells (place_lt hk (by omega)), Option.bind_eq_bind, Option.bind_some]
  exact runsTo_modify hcells (place_lt hi (by omega)) _

theorem runsTo_clearRowsBelow (hsize : cells.size = n * n) (hk : k < n) :
    RunsTo (fun cells : Array α => cells.size = n * n) (clearRowsBelow? n k pivot cells)
      (clearRowsBelow n k pivot cells) := by
  refine RunsTo.foldl hsize fun cells hcells i hi => ?_
  have hi' := List.mem_range'_1.mp hi
  rw [getElem?_eq_cellAt hcells (place_lt (by omega) hk), Option.bind_eq_bind, Option.bind_some]
  dsimp only
  split
  · exact ⟨rfl, hcells⟩
  · exact runsTo_subtractRow hcells hk (by omega)

/-- **The elimination for the determinant** does not fail. The induction is on the columns that are
left, and every round keeps the number of cells. -/
theorem determinantLoop?_eq_some {columns : List Nat} (hsize : cells.size = n * n)
    (hcolumns : ∀ k ∈ columns, k < n) :
    determinantLoop? n limit columns cells det
      = some (determinantLoop n limit columns cells det) := by
  induction columns generalizing cells det with
  | nil => rfl
  | cons k columns ih =>
    obtain ⟨hk, hrest⟩ := List.forall_mem_cons.mp hcolumns
    obtain ⟨-, hp⟩ := searchPivot_bounds (fun i => cellAt cells (i * n + k)) hk
    simp only [determinantLoop?, determinantLoop, searchPivot?_eq_some hsize hk,
      getElem?_eq_cellAt hsize (place_lt hp hk), Option.bind_eq_bind, Option.bind_some]
    split
    · rfl
    · split
      · obtain ⟨hcleared, hkept⟩ := runsTo_clearRowsBelow hsize hk
        rw [hcleared]
        exact ih hkept hrest
      · obtain ⟨hturned, hkept⟩ := runsTo_swapRows hsize hk hp
        obtain ⟨hcleared, hkept'⟩ := runsTo_clearRowsBelow hkept hk
        rw [hturned, Option.bind_some, hcleared]
        exact ih hkept' hrest

theorem runsTo_divideRows (pivot : α) (h : BothSized n both) (hk : k < n) :
    RunsTo (BothSized n) (divideRows? n k pivot both) (divideRows n k pivot both) := by
  refine RunsTo.foldl h fun both hboth j hj => ?_
  have hplace := place_lt hk (List.mem_range.mp hj)
  obtain ⟨hcells, hsize⟩ := runsTo_modify hboth.1 hplace (· / pivot)
  obtain ⟨hinv, hsizeInv⟩ := runsTo_modify hboth.2 hplace (· / pivot)
  refine ⟨?_, hsize, hsizeInv⟩
  rw [hcells, hinv]
  rfl

theorem runsTo_subtractRows (h : BothSized n both) (hk : k < n) (hi : i < n) :
    RunsTo (BothSized n) (subtractRows? n k i factor both) (subtractRows n k i factor both) := by
  refine RunsTo.foldl h fun both hboth j hj => ?_
  have hread := place_lt hk (List.mem_range.mp hj)
  have hwrite := place_lt hi (List.mem_range.mp hj)
  obtain ⟨hcells, hsize⟩ := runsTo_modify hboth.1 hwrite (· - factor * cellAt both.1 (k * n + j))
  obtain ⟨hinv, hsizeInv⟩ := runsTo_modify hboth.2 hwrite (· - factor * cellAt both.2 (k * n + j))
  refine ⟨?_, hsize, hsizeInv⟩
  simp only [getElem?_eq_cellAt hboth.1 hread, getElem?_eq_cellAt hboth.2 hread, hcells, hinv,
    Option.bind_eq_bind, Option.bind_some]
  rfl

theorem runsTo_clearOtherRows (h : BothSized n both) (hk : k < n) :
    RunsTo (BothSized n) (clearOtherRows? n k both) (clearOtherRows n k both) := by
  refine RunsTo.foldl h fun both hboth i hi => ?_
  have hi' : i < n := List.mem_range.mp hi
  split
  · exact ⟨rfl, hboth⟩
  · rw [getElem?_eq_cellAt hboth.1 (place_lt hi' hk), Option.bind_eq_bind, Option.bind_some]
    dsimp only
    split
    · exact ⟨rfl, hboth⟩
    · exact runsTo_subtractRows hboth hk hi'

/-- **Nor does the elimination for the inverse.** -/
theorem inverseLoop?_eq_some {columns : List Nat} (h : BothSized n both)
    (hcolumns : ∀ k ∈ columns, k < n) :
    inverseLoop? n limit columns both = some (inverseLoop n limit columns both) := by
  induction columns generalizing both with
  | nil => rfl
  | cons k columns ih =>
    obtain ⟨hk, hrest⟩ := List.forall_mem_cons.mp hcolumns
    obtain ⟨-, hp⟩ := searchPivot_bounds (fun i => cellAt both.1 (i * n + k)) hk
    have hround {turned : Array α × Array α} (hturned : BothSized n turned) :
        (do
          let pivot ← turned.1[k * n + k]?
          inverseLoop? n limit columns (← clearOtherRows? n k (← divideRows? n k pivot turned)))
        = some (inverseLoop n limit columns
            (clearOtherRows n k (divideRows n k (cellAt turned.1 (k * n + k)) turned))) := by
      obtain ⟨hdivided, hkept⟩ := runsTo_divideRows (cellAt turned.1 (k * n + k)) hturned hk
      obtain ⟨hcleared, hkept'⟩ := runsTo_clearOtherRows hkept hk
      simp only [getElem?_eq_cellAt hturned.1 (place_lt hk hk), hdivided, hcleared,
        Option.bind_eq_bind, Option.bind_some]
      exact ih hkept' hrest
    simp only [inverseLoop?, inverseLoop, searchPivot?_eq_some h.1 hk,
      getElem?_eq_cellAt h.1 (place_lt hp hk), Option.bind_eq_bind, Option.bind_some]
    split
    · rfl
    · split
      · exact hround h
      · obtain ⟨hswapped, hkept⟩ := runsTo_swapBoth h hk hp
        rw [hswapped]
        exact hround hkept

theorem determinant?_eq_some (h : m.WellFormed) : m.determinant? = some m.determinant := by
  rw [determinant?, determinant, workingCells_eq_cells h]
  split
  · next hsquare =>
    have hsize : m.cells.size = m.rows * m.rows := h.2.2.trans (by rw [hsquare])
    rw [determinantLoop?_eq_some hsize fun k => List.mem_range.mp]
    rfl
  · rfl

theorem inverse?_eq_some (h : m.WellFormed) : m.inverse? = some m.inverse := by
  rw [inverse?, inverse, workingCells_eq_cells h]
  split
  · next hsquare =>
    cases hunit : (identity m.rows : Except MatrixError (Matrix α)) with
    | error e => rfl
    | ok unit =>
      obtain ⟨hrows, hcols⟩ := shape_of_generate hunit
      have hunitSize := (wellFormed_of_generate hunit).2.2
      rw [hrows, hcols] at hunitSize
      have hsize : m.cells.size = m.rows * m.rows := h.2.2.trans (by rw [hsquare])
      dsimp only
      rw [inverseLoop?_eq_some ⟨hsize, hunitSize⟩ fun k => List.mem_range.mp]
      rfl
  · rfl

end

end Matrix

/-! ### What is made -/

/-- `TRANSPOSE` of what it gave gives the area back, in its place and with all its cells. -/
theorem Worksheet.transposed_transposed {block : Area} (h : block.cells.WellFormed)
    (place place' : Place) :
    transposed place' [transposed place [.area block]] = .area block :=
  congrArg (fun cells => Value.area ⟨block.firstRow, block.firstCol, cells⟩)
    (Matrix.transpose_transpose h)

namespace Matrix

/-- **Matrices that are made are full.** Whatever the operations make, of whatever kind of cells and
in whatever order, has at least one row and one column and all the cells that its shape asks for. So
each cell inside the shape has its place in the list, and the routines that only compute places
never reach past its end: they have a value, which is that of the routines that look at shapes. A
matrix that is turned around has each cell where it belongs, and an area that is transposed twice is
the area that it was. -/
theorem made_matrices_are_full :
    (∀ (α : Type) (m : Matrix α), Made m →
      m.WellFormed ∧ (∀ r < m.rows, ∀ c < m.cols, r * m.cols + c < m.cells.size) ∧
        m.transpose? = some m.transpose ∧ ∀ r c, m.transpose.get? c r = m.get? r c) ∧
    (∀ (α : Type) [PivotNumber α] (a b : Matrix α), Made a → Made b →
      a.multiply? b = some (a.multiply b) ∧ a.determinant? = some a.determinant ∧
        a.inverse? = some a.inverse) ∧
    ∀ (block : Area) (place place' : Place), Made block.cells →
      Worksheet.transposed place' [Worksheet.transposed place [.area block]] = .area block := by
  refine ⟨fun α m hm => ?_, fun α _ a b ha hb => ?_, fun block place place' hblock => ?_⟩
  · have hfull := hm.wellFormed
    exact ⟨hfull, fun r hr c hc => hfull.2.2 ▸ place_lt hr hc, transpose?_eq_some hfull,
      get?_transpose hfull⟩
  · exact ⟨multiply?_eq_some ha.wellFormed hb.wellFormed, determinant?_eq_some ha.wellFormed,
      inverse?_eq_some ha.wellFormed⟩
  · exact Worksheet.transposed_transposed hblock.wellFormed place place'

/-- Cells that are turned around and inverted, and an area of a text and an error. -/
theorem made_matrices_are_full_inverse :
    let a : Matrix ℚ := ⟨2, 2, #[0, 2, 1, 1]⟩
    let b : Matrix ℚ := ⟨2, 2, #[-1 / 2, 1 / 2, 1, 0]⟩
    let block : Area := ⟨3, 4, ⟨1, 2, #[.text "x", .error .na]⟩⟩
    a.transpose.inverse = .ok b ∧ Made b ∧ b.WellFormed ∧ b.transpose? = some b.transpose ∧
      a.transpose.multiply? b = some (a.transpose.multiply b) ∧ Made block.cells ∧
      Worksheet.transposed .origin [Worksheet.transposed .origin [.area block]] = .area block := by
  intro a b block
  have ha : Made a := .ofCells (show Matrix.ofCells 2 2 #[0, 2, 1, 1] = .ok a from rfl)
  have hb : a.transpose.inverse = .ok b := by decide +kernel
  have hmade : Made b := .inverse ha.transpose hb
  have hblock : Made block.cells :=
    .ofCells (show Matrix.ofCells 1 2 #[.text "x", .error .na] = .ok block.cells from rfl)
  obtain ⟨hcells, hroutines, hareas⟩ := made_matrices_are_full
  exact ⟨hb, hmade, (hcells _ b hmade).1, (hcells _ b hmade).2.2.1,
    (hroutines _ _ b ha.transpose hmade).1, hblock, hareas block _ _ hblock⟩

end Matrix

end CellFormula
