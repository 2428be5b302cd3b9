import CellFormula.Matrix.Arithmetic
import CellFormula.Proofs.RowMajor

/-!
# What the loops over cells leave

The matrix routines overwrite the cells of a list one by one, at places that they compute. Here the
same steps are written as tables, entry by entry and all at once, and every loop is shown to leave
the table that belongs to it. What is shown of tables after this module is shown of the loops.

## How a loop is described

`HasEntries` says that a list of cells shows a function of rows and columns. Before each round a
loop has come to some row or column, and the entries are new up to there and old from there on: that
is what its invariant says. A loop along a row changes entries of that row only, and `rowUpTo` is
such a row when it is done in part. A loop over rows has rows that are done and rows that are not.
A loop that reads what it writes to is no table in general. These are, because a row that is read is
another one than the row that is changed.

## Main definitions

* `Matrix.productEntry`, `Matrix.pivotRow`, `Matrix.exchangeRows`, `Matrix.clearBelow`,
  `Matrix.clearColumn` — the steps as tables
* `Matrix.determinantFrom`, `Matrix.inverseFrom` — the eliminations on tables
* `Matrix.HasEntries` — cells that show a table

## Main results

* `foldl_range'_rule`, `foldl_range_rule` — invariants of loops
* `Matrix.multiply_eq_tabulate` — the product is the table of its entries
* `Matrix.determinant_eq_determinantFrom`, `Matrix.inverse_eq_inverseFrom` — the eliminations
-/

namespace CellFormula

/-! ### Loops -/

section

variable {β : Type} {start count : Nat} {step : β → Nat → β} {init : β}

/-- **A loop gets from its first state to its last one** if each round gets from one state to the
next. -/
theorem foldl_range'_rule (State : Nat → β → Prop) (hinit : State start init)
    (hstep : ∀ k b, start ≤ k → k < start + count → State k b → State (k + 1) (step b k)) :
    State (start + count) ((List.range' start count).foldl step init) := by
  induction count generalizing start init with
  | zero => exact hinit
  | succ count ih =>
    have hfirst : State (start + 1) (step init start) :=
      hstep start init le_rfl (by omega) hinit
    have hrest := ih hfirst fun k b hk hk' => hstep k b (by omega) (by omega)
    rwa [Nat.add_right_comm] at hrest

theorem foldl_range_rule (State : Nat → β → Prop) (hinit : State 0 init)
    (hstep : ∀ k b, k < count → State k b → State (k + 1) (step b k)) :
    State count ((List.range count).foldl step init) := by
  rw [List.range_eq_range']
  have hrun : State (0 + count) ((List.range' 0 count).foldl step init) :=
    foldl_range'_rule State hinit fun k b _ hk => hstep k b (by omega)
  rwa [Nat.zero_add] at hrun

end

namespace Matrix

open PivotNumber (atMost below isZero magnitude)

section

variable {α : Type} {f old new : Nat → Nat → α} {u : Nat → α → α} {i r c first last : Nat}

/-! ### Rows that are done in part -/

/-- The table when row `i` has been changed from column `first` up to column `last`. -/
def rowUpTo (f : Nat → Nat → α) (i first last : Nat) (u : Nat → α → α) (r c : Nat) : α :=
  if r = i ∧ first ≤ c ∧ c < last then u c (f r c) else f r c

theorem rowUpTo_of_ne (h : r ≠ i) : rowUpTo f i first last u r c = f r c := if_neg fun hr => h hr.1

theorem rowUpTo_of_mem (hfirst : first ≤ c) (hlast : c < last) :
    rowUpTo f i first last u i c = u c (f i c) := if_pos ⟨rfl, hfirst, hlast⟩

theorem rowUpTo_of_not_mem (h : ¬ (first ≤ c ∧ c < last)) :
    rowUpTo f i first last u r c = f r c := if_neg fun hc => h hc.2

/-! ### Tables that are done in part -/

/-- The table whose first rows, up to row `i`, are new already. -/
def rowsUpTo (old new : Nat → Nat → α) (i r c : Nat) : α := if r < i then new r c else old r c

theorem rowsUpTo_of_lt (h : r < i) : rowsUpTo old new i r c = new r c := if_pos h

theorem rowsUpTo_of_le (h : i ≤ r) : rowsUpTo old new i r c = old r c := if_neg (by omega)

/-- When one more row is new, it is row `i`. -/
theorem rowsUpTo_succ_of_ne (h : r ≠ i) :
    rowsUpTo old new (i + 1) r c = rowsUpTo old new i r c :=
  if_congr (by omega) rfl rfl

end

section

variable {α : Type} [PivotNumber α]

/-! ### The steps as tables -/

/-- One entry of a product, added up over the inner index with zero factors passed over. -/
def productEntry (a b : Matrix α) (i j : Nat) : α :=
  (List.range a.cols).foldl
    (fun sum k => if isZero (a.entry i k) then sum else sum + a.entry i k * b.entry k j) 0

/-- The row of the pivot of column `k`: the first of largest magnitude from row `k` on. -/
def pivotRow (m : Matrix α) (k : Nat) : Nat := searchPivot (fun i => m.entry i k) m.rows k

/-- The row that stands at place `i` after rows `p` and `q` have changed places. -/
def exchanged (p q i : Nat) : Nat := if i = p then q else if i = q then p else i

/-- The matrix with two rows exchanged. -/
def exchangeRows (m : Matrix α) (p q : Nat) : Matrix α :=
  tabulate m.rows m.cols fun i j => m.entry (exchanged p q i) j

/-- The entries after multiples of row `k` have been taken from the rows below it, so that column
`k` is cleared there. Columns to the left of `k` are done with and stay. -/
def clearedBelow (pivot : α) (k : Nat) (f : Nat → Nat → α) (i j : Nat) : α :=
  let factor := f i k / pivot
  if k < i ∧ k ≤ j ∧ isZero factor = false then f i j - factor * f k j else f i j

/-- The matrix with column `k` cleared below the diagonal. -/
def clearBelow (m : Matrix α) (k : Nat) : Matrix α :=
  tabulate m.rows m.cols (clearedBelow (m.entry k k) k m.entry)

/-- The determinant from column `k` on, `det` being the product of the pivots so far with a change
of sign for every exchange. -/
def determinantFrom (limit : α) : List Nat → Matrix α → α → α
  | [], _, det => det
  | k :: columns, m, det =>
    let p := m.pivotRow k
    let pivot := m.entry p k
    if atMost (magnitude pivot) limit then 0
    else if p = k then determinantFrom limit columns (m.clearBelow k) (det * pivot)
    else determinantFrom limit columns ((m.exchangeRows k p).clearBelow k) (-det * pivot)

/-- The entries after row `k` has been divided by the pivot and multiples of it have been taken from
all other rows. -/
def clearedElsewhere (pivot : α) (factor : Nat → α) (k : Nat) (f : Nat → Nat → α) (i j : Nat) : α :=
  if i = k then f k j / pivot
  else if isZero (factor i) then f i j
  else f i j - factor i * (f k j / pivot)

/-- `m` after row `k` has been divided by the pivot of `source` and multiples of it have been taken
from all other rows, so that the same step on `source` clears its column `k`. -/
def clearColumn (source m : Matrix α) (k : Nat) : Matrix α :=
  tabulate m.rows m.cols
    (clearedElsewhere (source.entry k k) (fun i => source.entry i k) k m.entry)

/-- The inverse from column `k` on: `m` is on its way to the identity, and `inv` is what the same
steps have made of the identity. -/
def inverseFrom (limit : α) : List Nat → Matrix α → Matrix α → Except MatrixError (Matrix α)
  | [], _, inv => .ok inv
  | k :: columns, m, inv =>
    let p := m.pivotRow k
    if atMost (magnitude (m.entry p k)) limit then .error .singular
    else if p = k then
      inverseFrom limit columns (m.clearColumn m k) (m.clearColumn inv k)
    else
      let m' := m.exchangeRows k p
      let inv' := inv.exchangeRows k p
      inverseFrom limit columns (m'.clearColumn m' k) (m'.clearColumn inv' k)

/-! ### Cells and their places -/

variable {cells inv : Array α} {both : Array α × Array α} {f g old new : Nat → Nat → α}
  {u : Nat → α → α} {a b m minv : Matrix α}
  {rows cols n i j k p q r c first last place : Nat} {factor pivot limit det : α}

theorem cellAt_of_lt (h : place < cells.size) : cellAt cells place = cells[place] :=
  (Array.getElem_eq_getD 0).symm

/-- Two places are one only if row and column are. -/
theorem place_inj (hj : j < cols) (hc : c < cols) :
    i * cols + j = r * cols + c ↔ i = r ∧ j = c := by
  refine ⟨fun h => ?_, fun h => by rw [h.1, h.2]⟩
  have hrow := congrArg (· / cols) h
  have hcol := congrArg (· % cols) h
  simp only [place_div _ hj, place_div _ hc, place_mod _ hj, place_mod _ hc] at hrow hcol
  exact ⟨hrow, hcol⟩

/-! ### Cells that show a table -/

/-- The cells are as many as this shape asks for, and at the place of each row and column stands
what the function says. -/
structure HasEntries (cells : Array α) (rows cols : Nat) (f : Nat → Nat → α) : Prop where
  size : cells.size = rows * cols
  at_place : ∀ r < rows, ∀ c < cols, cellAt cells (r * cols + c) = f r c

theorem hasEntries_tabulate (f : Nat → Nat → α) :
    HasEntries (tabulate rows cols f).cells rows cols f where
  size := by simp [tabulate]
  at_place r hr c hc := by
    have hcell := get?_tabulate f hr hc
    rw [get?_of_lt (m := tabulate rows cols f) hr hc] at hcell
    exact Array.getD_eq_getD_getElem?.trans (congrArg (·.getD 0) hcell)

namespace HasEntries

theorem congr (h : HasEntries cells rows cols f) (hfg : ∀ r < rows, ∀ c < cols, f r c = g r c) :
    HasEntries cells rows cols g :=
  ⟨h.size, fun r hr c hc => (h.at_place r hr c hc).trans (hfg r hr c hc)⟩

/-- **There is only one list of cells that shows a table.** -/
theorem cells_eq (h : HasEntries cells rows cols f) : cells = (tabulate rows cols f).cells := by
  have htable : HasEntries (tabulate rows cols f).cells rows cols f := hasEntries_tabulate f
  refine Array.ext (h.size.trans htable.size.symm) fun place hplace hplace' => ?_
  obtain ⟨r, hr, c, hc, rfl⟩ := exists_place (h.size ▸ hplace)
  rw [← cellAt_of_lt hplace, ← cellAt_of_lt hplace', h.at_place r hr c hc,
    htable.at_place r hr c hc]

/-- Overwriting the cell of a row and a column changes that entry and no other. -/
theorem modify (h : HasEntries cells rows cols f) (hj : j < cols) (x : α → α) :
    HasEntries (cells.modify (i * cols + j) x) rows cols
      fun r c => if r = i ∧ c = j then x (f r c) else f r c where
  size := Array.size_modify.trans h.size
  at_place r hr c hc := by
    have hplace : r * cols + c < cells.size := h.size ▸ place_lt hr hc
    rw [cellAt_of_lt (Array.size_modify.symm ▸ hplace), Array.getElem_modify, ← cellAt_of_lt hplace,
      h.at_place r hr c hc]
    exact if_congr ((place_inj hj hc).trans (and_congr eq_comm eq_comm)) rfl rfl

/-- Two cells of one column that change places. -/
theorem swap (h : HasEntries cells rows cols f) (hp : p < rows) (hq : q < rows) (hj : j < cols) :
    HasEntries (cells.swapIfInBounds (p * cols + j) (q * cols + j)) rows cols
      fun r c => if c = j then f (exchanged p q r) c else f r c where
  size := Array.size_swapIfInBounds.trans h.size
  at_place r hr c hc := by
    have hplace {r c : Nat} (hr : r < rows) (hc : c < cols) : r * cols + c < cells.size :=
      h.size ▸ place_lt hr hc
    rw [cellAt_of_lt (Array.size_swapIfInBounds.symm ▸ hplace hr hc), Array.getElem_swapIfInBounds]
    simp only [hplace hp hj, hplace hq hj, and_true, ← cellAt_of_lt, h.at_place r hr c hc,
      h.at_place p hp j hj, h.at_place q hq j hj, place_inj hc hj, exchanged]
    by_cases hcj : c = j
    · subst hcj
      simp only [and_true, if_true, dite_eq_ite]
      split
      · rfl
      · split <;> rfl
    · simp [hcj]

end HasEntries

/-- The cell at the place of a row and a column is the entry there. -/
theorem cellAt_cells (hi : i < m.rows) (hj : j < m.cols) :
    cellAt m.cells (i * m.cols + j) = m.entry i j := by
  rw [entry, get?_of_lt hi hj]
  exact Array.getD_eq_getD_getElem?

/-! ### Loops along a row -/

/-- Before the first round nothing has been changed. -/
theorem HasEntries.rowUpTo_self (h : HasEntries cells rows cols f) :
    HasEntries cells rows cols (rowUpTo f i first first u) :=
  h.congr fun r _ c _ => (if_neg fun hc => by omega).symm

/-- One more round changes one more entry. -/
theorem HasEntries.rowUpTo_succ (h : HasEntries cells rows cols (rowUpTo f i first j u))
    (hfirst : first ≤ j) (hj : j < cols) :
    HasEntries (cells.modify (i * cols + j) (u j)) rows cols (rowUpTo f i first (j + 1) u) := by
  refine (h.modify hj _).congr fun r _ c _ => ?_
  unfold rowUpTo
  by_cases hr : r = i
  · obtain hc | rfl | hc : c < j ∨ c = j ∨ j < c := by omega
    · simp [hr, hc, hc.ne, hc.trans (Nat.lt_succ_self j)]
    · simp [hr, hfirst]
    · simp [hr, hc.ne', hc.not_gt, Nat.not_lt.mpr hc]
  · simp [hr]

/-! ### Loops over rows -/

namespace HasEntries

theorem rowsUpTo_zero (h : HasEntries cells rows cols old) :
    HasEntries cells rows cols (rowsUpTo old new 0) :=
  h.congr fun r _ _ _ => (rowsUpTo_of_le (Nat.zero_le r)).symm

/-- A round that makes row `i` new and leaves the others. -/
theorem rowsUpTo_succ (h : HasEntries cells rows cols f) (hrow : ∀ c < cols, f i c = new i c)
    (hother : ∀ r c, r ≠ i → f r c = rowsUpTo old new i r c) :
    HasEntries cells rows cols (rowsUpTo old new (i + 1)) := by
  refine h.congr fun r _ c hc => ?_
  by_cases hr : r = i
  · subst hr
    rw [rowsUpTo_of_lt (Nat.lt_succ_self r), hrow c hc]
  · rw [rowsUpTo_succ_of_ne hr, hother r c hr]

theorem of_rowsUpTo (h : HasEntries cells rows cols (rowsUpTo old new rows)) :
    HasEntries cells rows cols new :=
  h.congr fun _ hr _ _ => rowsUpTo_of_lt hr

end HasEntries

theorem hasEntries_addRow (h : HasEntries cells rows b.cols f) (hk : k < b.rows) :
    HasEntries (addRow b i k factor cells) rows b.cols
      (rowUpTo f i 0 b.cols fun c x => x + factor * b.entry k c) := by
  refine foldl_range_rule (fun j out => HasEntries out rows b.cols
    (rowUpTo f i 0 j fun c x => x + factor * b.entry k c)) h.rowUpTo_self fun j out hj hout => ?_
  rw [cellAt_cells hk hj]
  exact hout.rowUpTo_succ (Nat.zero_le j) hj

theorem hasEntries_subtractRow (h : HasEntries cells n n f) (hk : k < n) (hik : k ≠ i) :
    HasEntries (subtractRow n k i factor cells) n n
      (rowUpTo f i k n fun c x => x - factor * f k c) := by
  have hrun : HasEntries (subtractRow n k i factor cells) n n
      (rowUpTo f i k (k + (n - k)) fun c x => x - factor * f k c) := by
    refine foldl_range'_rule (fun j cells => HasEntries cells n n
      (rowUpTo f i k j fun c x => x - factor * f k c)) h.rowUpTo_self
      fun j cells hkj hj hcells => ?_
    have hj' : j < n := by omega
    rw [hcells.at_place k hk j hj', rowUpTo_of_ne hik]
    exact hcells.rowUpTo_succ hkj hj'
  rwa [Nat.add_sub_cancel' hk.le] at hrun

/-- The cells of both matrices that are worked on show these tables. -/
def BothHave (both : Array α × Array α) (n : Nat) (f g : Nat → Nat → α) : Prop :=
  HasEntries both.1 n n f ∧ HasEntries both.2 n n g

theorem bothHave_divideRows (k : Nat) (pivot : α) (h : BothHave both n f g) :
    BothHave (divideRows n k pivot both) n (rowUpTo f k 0 n fun _ x => x / pivot)
      (rowUpTo g k 0 n fun _ x => x / pivot) :=
  foldl_range_rule (fun j both => BothHave both n (rowUpTo f k 0 j fun _ x => x / pivot)
      (rowUpTo g k 0 j fun _ x => x / pivot))
    ⟨h.1.rowUpTo_self, h.2.rowUpTo_self⟩ fun j _ hj hboth =>
    ⟨hboth.1.rowUpTo_succ (Nat.zero_le j) hj, hboth.2.rowUpTo_succ (Nat.zero_le j) hj⟩

theorem bothHave_subtractRows (factor : α) (h : BothHave both n f g) (hk : k < n) (hik : k ≠ i) :
    BothHave (subtractRows n k i factor both) n (rowUpTo f i 0 n fun c x => x - factor * f k c)
      (rowUpTo g i 0 n fun c x => x - factor * g k c) := by
  refine foldl_range_rule (fun j both =>
      BothHave both n (rowUpTo f i 0 j fun c x => x - factor * f k c)
        (rowUpTo g i 0 j fun c x => x - factor * g k c))
    ⟨h.1.rowUpTo_self, h.2.rowUpTo_self⟩ fun j both hj hboth => ?_
  obtain ⟨hcells, hinv⟩ := hboth
  dsimp only
  rw [hcells.at_place k hk j hj, hinv.at_place k hk j hj, rowUpTo_of_ne hik, rowUpTo_of_ne hik]
  exact ⟨hcells.rowUpTo_succ (Nat.zero_le j) hj, hinv.rowUpTo_succ (Nat.zero_le j) hj⟩

theorem hasEntries_swapRows (h : HasEntries cells rows n f) (hp : p < rows) (hq : q < rows) :
    HasEntries (swapRows n p q cells) rows n fun r c => f (exchanged p q r) c := by
  have hrun : HasEntries (swapRows n p q cells) rows n
      fun r c => if c < n then f (exchanged p q r) c else f r c := by
    refine foldl_range_rule (fun j cells => HasEntries cells rows n
        fun r c => if c < j then f (exchanged p q r) c else f r c)
      (h.congr fun r _ c _ => (if_neg (Nat.not_lt_zero c)).symm) fun j cells hj hcells => ?_
    refine (hcells.swap hp hq hj).congr fun r _ c _ => ?_
    obtain hc | rfl | hc : c < j ∨ c = j ∨ j < c := by omega
    · simp [hc, hc.ne, hc.trans (Nat.lt_succ_self j)]
    · simp
    · simp [hc.ne', hc.not_gt, Nat.not_lt.mpr hc]
  exact hrun.congr fun r _ c hc => if_pos hc

/-! ### Products -/

/-- What the first rounds over the inner index make of a number: products are added to it, and those
with a zero factor on the left are passed over. -/
def sumUpTo (a b : Matrix α) (i count j : Nat) (x : α) : α :=
  (List.range count).foldl
    (fun sum k => if isZero (a.entry i k) then sum else sum + a.entry i k * b.entry k j) x

theorem sumUpTo_succ (x : α) :
    sumUpTo a b i (k + 1) j x =
      if isZero (a.entry i k) then sumUpTo a b i k j x
      else sumUpTo a b i k j x + a.entry i k * b.entry k j := by
  rw [sumUpTo, List.range_succ, List.foldl_append]
  rfl

/-- **A row of the product** is done when all rows of the right factor have been added to it. Before
that it is filled in part, in all its columns alike. -/
theorem hasEntries_addProductRow (h : HasEntries cells a.rows b.cols f) (hinner : a.cols = b.rows)
    (hi : i < a.rows) :
    HasEntries (addProductRow a b cells i) a.rows b.cols
      (rowUpTo f i 0 b.cols (sumUpTo a b i a.cols)) := by
  refine foldl_range_rule (fun k out => HasEntries out a.rows b.cols
      (rowUpTo f i 0 b.cols (sumUpTo a b i k)))
    (h.congr fun r _ c _ => (ite_self _).symm) fun k out hk hout => ?_
  rw [cellAt_cells hi hk]
  dsimp only
  split
  · next hzero =>
    refine hout.congr fun r _ c _ => ?_
    simp only [rowUpTo, sumUpTo_succ, if_pos hzero]
  · next hzero =>
    refine (hasEntries_addRow hout (hinner ▸ hk)).congr fun r _ c _ => ?_
    simp only [rowUpTo, sumUpTo_succ, if_neg hzero]
    split <;> rfl

/-- **The product is the table of its entries.** The rows that have been reached are rows of the
product, and the others are still zero. -/
theorem hasEntries_product (hinner : a.cols = b.rows) :
    HasEntries ((List.range a.rows).foldl (addProductRow a b)
      (Array.replicate (a.rows * b.cols) 0)) a.rows b.cols (a.productEntry b) := by
  have hzero : HasEntries (Array.replicate (a.rows * b.cols) (0 : α)) a.rows b.cols
      fun _ _ => 0 := by
    refine ⟨Array.size_replicate, fun r hr c hc => ?_⟩
    have hplace := place_lt hr hc
    rw [cellAt_of_lt (Array.size_replicate.symm ▸ hplace), Array.getElem_replicate]
  refine HasEntries.of_rowsUpTo (foldl_range_rule (fun i out =>
    HasEntries out a.rows b.cols (rowsUpTo (fun _ _ => 0) (a.productEntry b) i))
    hzero.rowsUpTo_zero fun i out hi hout => ?_)
  refine (hasEntries_addProductRow hout hinner hi).rowsUpTo_succ (fun c hc => ?_)
    fun r c hr => rowUpTo_of_ne hr
  rw [rowUpTo_of_mem (Nat.zero_le c) hc, rowsUpTo_of_le le_rfl]
  rfl

theorem HasEntries.ofCells_eq (h : HasEntries cells rows cols f) :
    ofCells rows cols cells = generate rows cols f := by
  rw [ofCells, generate, if_pos h.size, h.cells_eq]
  rfl

theorem multiply_eq_generate (hinner : a.cols = b.rows) :
    a.multiply b = generate a.rows b.cols (a.productEntry b) := by
  rw [multiply, if_pos hinner, (hasEntries_product hinner).ofCells_eq]

/-- A product with rows and columns is the table of its entries. -/
theorem multiply_eq_tabulate (hinner : a.cols = b.rows) (hrows : 0 < a.rows) (hcols : 0 < b.cols) :
    a.multiply b = .ok (tabulate a.rows b.cols (a.productEntry b)) := by
  rw [multiply_eq_generate hinner]
  exact if_neg (by omega)

/-! ### Entries of the tables -/

theorem entry_tabulate (f : Nat → Nat → α) (hi : i < rows) (hj : j < cols) :
    (tabulate rows cols f).entry i j = f i j := by
  rw [entry, get?_tabulate f hi hj, Option.getD_some]

theorem hasEntries_cells (h : m.cells.size = m.rows * m.cols) :
    HasEntries m.cells m.rows m.cols m.entry :=
  ⟨h, fun _ hr _ hc => cellAt_cells hr hc⟩

/-- A matrix with as many cells as its shape asks for is the table of its entries. -/
theorem tabulate_entry (h : m.cells.size = m.rows * m.cols) :
    tabulate m.rows m.cols m.entry = m :=
  congrArg (Matrix.mk m.rows m.cols) (hasEntries_cells h).cells_eq.symm

/-- A matrix that is well formed has no cells to work on but its own. -/
theorem workingCells_eq_cells (h : m.WellFormed) : m.workingCells = m.cells := by
  rw [workingCells, tabulate_entry h.2.2]

theorem exchanged_lt (hp : p < n) (hq : q < n) (hi : i < n) : exchanged p q i < n := by
  unfold exchanged
  split
  · exact hq
  · split
    · exact hp
    · exact hi

theorem entry_exchangeRows (hi : i < m.rows) (hj : j < m.cols) :
    (m.exchangeRows p q).entry i j = m.entry (exchanged p q i) j :=
  entry_tabulate _ hi hj

/-! ### Pivots -/

/-- The search looks at the entries from row `k` on. -/
theorem searchPivot_congr {v w : Nat → α} (hk : k < n) (h : ∀ i, k ≤ i → i < n → v i = w i) :
    searchPivot v n k = searchPivot w n k := by
  unfold searchPivot
  rw [h k le_rfl hk]
  refine congrArg Prod.fst (List.foldl_ext _ _ _ fun best i hi => ?_)
  have hi' := List.mem_range'_1.mp hi
  rw [h i (by omega) (by omega)]

/-- **The pivot of a column is looked for on the diagonal and below it.** -/
theorem searchPivot_bounds (column : Nat → α) (hk : k < n) :
    k ≤ searchPivot column n k ∧ searchPivot column n k < n := by
  refine List.foldlRecOn (motive := fun best : Nat × α => k ≤ best.1 ∧ best.1 < n) _ _
    ⟨Nat.le_refl k, hk⟩ fun best hbest i hi => ?_
  obtain ⟨hfirst, hlast⟩ := List.mem_range'_1.mp hi
  show k ≤ (ite _ _ best).1 ∧ (ite _ _ best).1 < n
  split
  · exact ⟨by omega, by omega⟩
  · exact hbest

theorem pivotRow_bounds (hk : k < m.rows) : k ≤ m.pivotRow k ∧ m.pivotRow k < m.rows :=
  searchPivot_bounds _ hk

/-! ### Determinants -/

/-- **Rows that are cleared one after the other** are cleared all at once: the rows below row `k`
read row `k`, and it is none of them. -/
theorem hasEntries_clearRowsBelow (h : HasEntries cells n n f) (hk : k < n) :
    HasEntries (clearRowsBelow n k pivot cells) n n (clearedBelow pivot k f) := by
  have hbefore : ∀ r < k + 1, ∀ c, clearedBelow pivot k f r c = f r c := fun r hr c =>
    if_neg fun hc => by omega
  have hrun : HasEntries (clearRowsBelow n k pivot cells) n n
      (rowsUpTo f (clearedBelow pivot k f) (k + 1 + (n - (k + 1)))) := by
    refine foldl_range'_rule (fun i cells =>
        HasEntries cells n n (rowsUpTo f (clearedBelow pivot k f) i))
      (h.congr fun r _ c _ => ?_) fun i cells hki hi hcells => ?_
    · unfold rowsUpTo
      split
      · next hr => exact (hbefore r hr c).symm
      · rfl
    · have hread : cellAt cells (i * n + k) = f i k :=
        (hcells.at_place i (by omega) k hk).trans (rowsUpTo_of_le le_rfl)
      rw [hread]
      dsimp only
      split
      · next hzero =>
        refine hcells.rowsUpTo_succ (fun c _ => ?_) fun _ _ _ => rfl
        rw [rowsUpTo_of_le le_rfl]
        exact (if_neg fun hc => Bool.false_ne_true (hc.2.2.symm.trans hzero)).symm
      · next hfactor =>
        refine (hasEntries_subtractRow hcells hk (by omega)).rowsUpTo_succ (fun c hc => ?_)
          fun r c hr => rowUpTo_of_ne hr
        by_cases hkc : k ≤ c
        · rw [rowUpTo_of_mem hkc hc, rowsUpTo_of_le le_rfl, rowsUpTo_of_lt (by omega),
            hbefore k (Nat.lt_succ_self k)]
          exact (if_pos ⟨hki, hkc, Bool.eq_false_iff.mpr hfactor⟩).symm
        · rw [rowUpTo_of_not_mem fun hc => hkc hc.1, rowsUpTo_of_le le_rfl]
          exact (if_neg fun hc => hkc hc.2.1).symm
  rw [Nat.add_sub_cancel' hk] at hrun
  exact hrun.of_rowsUpTo

theorem hasEntries_exchangeRows (h : HasEntries cells n n m.entry) (hrows : m.rows = n)
    (hcols : m.cols = n) (hp : p < n) (hq : q < n) :
    HasEntries (swapRows n p q cells) n n (m.exchangeRows p q).entry :=
  (hasEntries_swapRows h hp hq).congr fun _ hr _ hc =>
    (entry_exchangeRows (hrows.symm ▸ hr) (hcols.symm ▸ hc)).symm

theorem hasEntries_clearBelow (h : HasEntries cells n n m.entry) (hrows : m.rows = n)
    (hcols : m.cols = n) (hk : k < n) (hpivot : m.entry k k = pivot) :
    HasEntries (clearRowsBelow n k pivot cells) n n (m.clearBelow k).entry := by
  subst hpivot
  exact (hasEntries_clearRowsBelow h hk).congr fun _ hr _ hc =>
    (entry_tabulate _ (hrows.symm ▸ hr) (hcols.symm ▸ hc)).symm

/-- **The search for a pivot finds the pivot of the table.** -/
theorem searchPivot_eq_pivotRow (h : HasEntries cells n n m.entry) (hrows : m.rows = n)
    (hk : k < n) : searchPivot (fun i => cellAt cells (i * n + k)) n k = m.pivotRow k := by
  rw [pivotRow, hrows]
  exact searchPivot_congr hk fun i _ hi => h.at_place i hi k hk

/-- **The elimination on cells is the elimination on tables.** The induction is on the columns that
are left, and the cells show the working matrix before each of them. -/
theorem determinantLoop_eq {columns : List Nat} (h : HasEntries cells n n m.entry)
    (hrows : m.rows = n) (hcols : m.cols = n) (hcolumns : ∀ k ∈ columns, k < n) :
    determinantLoop n limit columns cells det = determinantFrom limit columns m det := by
  induction columns generalizing m cells det with
  | nil => rfl
  | cons k columns ih =>
    obtain ⟨hk, hrest⟩ := List.forall_mem_cons.mp hcolumns
    obtain ⟨-, hp⟩ := pivotRow_bounds (m := m) (hrows.symm ▸ hk)
    rw [hrows] at hp
    rw [determinantLoop, determinantFrom, searchPivot_eq_pivotRow h hrows hk, h.at_place _ hp k hk]
    split
    · rfl
    · split
      · next hsame =>
        exact ih (hasEntries_clearBelow h hrows hcols hk (by rw [hsame])) hrows hcols hrest
      · have hdiagonal :
            (m.exchangeRows k (m.pivotRow k)).entry k k = m.entry (m.pivotRow k) k := by
          rw [entry_exchangeRows (hrows.symm ▸ hk) (hcols.symm ▸ hk), exchanged, if_pos rfl]
        exact ih (hasEntries_clearBelow (hasEntries_exchangeRows h hrows hcols hk hp) hrows hcols hk
          hdiagonal) hrows hcols hrest

theorem determinant_eq_determinantFrom (hsquare : m.rows = m.cols) :
    m.determinant = .ok (determinantFrom m.tolerance (List.range m.rows) m 1) := by
  rw [determinant, if_pos hsquare]
  refine congrArg Except.ok (determinantLoop_eq ?_ rfl hsquare.symm fun k => List.mem_range.mp)
  rw [workingCells, ← hsquare]
  exact hasEntries_tabulate m.entry

/-! ### Inverses -/

/-- The entries when row `k` has been divided by the pivot and the rows before row `i` are
cleared. -/
def clearedUpTo (pivot : α) (factor : Nat → α) (n k : Nat) (f : Nat → Nat → α) (i : Nat) :=
  rowsUpTo (rowUpTo f k 0 n fun _ x => x / pivot) (clearedElsewhere pivot factor k f) i

variable {column : Nat → α}

theorem clearedUpTo_pivotRow (hc : c < n) :
    clearedUpTo pivot column n k f i k c = f k c / pivot := by
  unfold clearedUpTo rowsUpTo
  split
  · exact if_pos rfl
  · exact rowUpTo_of_mem (Nat.zero_le c) hc

theorem clearedUpTo_self (hik : i ≠ k) : clearedUpTo pivot column n k f i i c = f i c :=
  (rowsUpTo_of_le le_rfl).trans (rowUpTo_of_ne hik)

/-- A round that takes the right multiple of row `k` from row `i` clears row `i`. -/
theorem HasEntries.clearedUpTo_succ
    (h : HasEntries cells n n (rowUpTo (clearedUpTo pivot column n k f i) i 0 n fun c x =>
      x - column i * clearedUpTo pivot column n k f i k c))
    (hik : i ≠ k) (hfactor : ¬ isZero (column i) = true) :
    HasEntries cells n n (clearedUpTo pivot column n k f (i + 1)) := by
  refine h.rowsUpTo_succ (fun c hc => ?_) fun r c hr => rowUpTo_of_ne hr
  rw [rowUpTo_of_mem (Nat.zero_le c) hc, clearedUpTo_self hik, clearedUpTo_pivotRow hc,
    clearedElsewhere, if_neg hik, if_neg hfactor]

/-- A round that passes over row `i` leaves it cleared: it is row `k`, or has nothing to clear. -/
theorem HasEntries.clearedUpTo_pass (h : HasEntries cells n n (clearedUpTo pivot column n k f i))
    (hpass : i = k ∨ isZero (column i) = true) :
    HasEntries cells n n (clearedUpTo pivot column n k f (i + 1)) := by
  refine h.rowsUpTo_succ (fun c hc => ?_) fun r c _ => rfl
  by_cases hik : i = k
  · subst hik
    rw [clearedUpTo_pivotRow hc]
    exact (if_pos rfl).symm
  · rw [clearedUpTo_self hik, clearedElsewhere, if_neg hik, if_pos (hpass.resolve_left hik)]

/-- **Both matrices are cleared all at once**, although their rows are cleared one after the other:
the factor is an entry of a row that has not been reached, and row `k` is none that is changed. -/
theorem bothHave_clearOtherRows (pivot : α) (h : BothHave both n f g) (hk : k < n) :
    BothHave (clearOtherRows n k (divideRows n k pivot both)) n
      (clearedElsewhere pivot (fun i => f i k) k f)
      (clearedElsewhere pivot (fun i => f i k) k g) := by
  have hdivided := bothHave_divideRows k pivot h
  have hrun : BothHave (clearOtherRows n k (divideRows n k pivot both)) n
      (clearedUpTo pivot (fun i => f i k) n k f n)
      (clearedUpTo pivot (fun i => f i k) n k g n) := by
    refine foldl_range_rule (fun i both => BothHave both n
        (clearedUpTo pivot (fun i => f i k) n k f i) (clearedUpTo pivot (fun i => f i k) n k g i))
      ⟨hdivided.1.rowsUpTo_zero, hdivided.2.rowsUpTo_zero⟩ fun i both hi hboth => ?_
    split
    · next hik => exact ⟨hboth.1.clearedUpTo_pass (.inl hik), hboth.2.clearedUpTo_pass (.inl hik)⟩
    · next hik =>
      have hread : cellAt both.1 (i * n + k) = f i k :=
        (hboth.1.at_place i hi k hk).trans (clearedUpTo_self hik)
      rw [hread]
      dsimp only
      split
      · next hzero =>
        exact ⟨hboth.1.clearedUpTo_pass (.inr hzero), hboth.2.clearedUpTo_pass (.inr hzero)⟩
      · next hfactor =>
        obtain ⟨hcells, hinv⟩ := bothHave_subtractRows (f i k) hboth hk (Ne.symm hik)
        exact ⟨hcells.clearedUpTo_succ hik hfactor, hinv.clearedUpTo_succ hik hfactor⟩
  exact ⟨hrun.1.of_rowsUpTo, hrun.2.of_rowsUpTo⟩

/-- The two matrices have `n` rows and columns, the cells that are worked on show them, and the
second one has no other cells. -/
structure WorksOn (both : Array α × Array α) (n : Nat) (m minv : Matrix α) : Prop where
  rows : m.rows = n
  cols : m.cols = n
  invRows : minv.rows = n
  invCols : minv.cols = n
  invSize : minv.cells.size = minv.rows * minv.cols
  entries : BothHave both n m.entry minv.entry

namespace WorksOn

theorem exchange (h : WorksOn both n m minv) (hp : p < n) (hq : q < n) :
    WorksOn (swapRows n p q both.1, swapRows n p q both.2) n (m.exchangeRows p q)
      (minv.exchangeRows p q) where
  rows := h.rows
  cols := h.cols
  invRows := h.invRows
  invCols := h.invCols
  invSize := by simp [exchangeRows, tabulate]
  entries := ⟨hasEntries_exchangeRows h.entries.1 h.rows h.cols hp hq,
    hasEntries_exchangeRows h.entries.2 h.invRows h.invCols hp hq⟩

theorem clear (h : WorksOn both n m minv) (hk : k < n) :
    WorksOn (clearOtherRows n k (divideRows n k (cellAt both.1 (k * n + k)) both)) n
      (m.clearColumn m k) (m.clearColumn minv k) where
  rows := h.rows
  cols := h.cols
  invRows := h.invRows
  invCols := h.invCols
  invSize := by simp [clearColumn, tabulate]
  entries := by
    rw [h.entries.1.at_place k hk k hk]
    obtain ⟨hcells, hinv⟩ := bothHave_clearOtherRows (m.entry k k) h.entries hk
    exact ⟨hcells.congr fun _ hr _ hc =>
        (entry_tabulate _ (h.rows.symm ▸ hr) (h.cols.symm ▸ hc)).symm,
      hinv.congr fun _ hr _ hc =>
        (entry_tabulate _ (h.invRows.symm ▸ hr) (h.invCols.symm ▸ hc)).symm⟩

/-- **The elimination on cells is the elimination on tables.** -/
theorem inverseLoop_eq {columns : List Nat} (h : WorksOn both n m minv) (hn : 0 < n)
    (hcolumns : ∀ k ∈ columns, k < n) :
    (inverseLoop n limit columns both >>= ofCells n n) = inverseFrom limit columns m minv := by
  induction columns generalizing m minv both with
  | nil =>
    have htable : tabulate n n minv.entry = minv := by
      have hentry := tabulate_entry h.invSize
      rwa [h.invRows, h.invCols] at hentry
    calc ofCells n n both.2
      _ = generate n n minv.entry := h.entries.2.ofCells_eq
      _ = .ok (tabulate n n minv.entry) := if_neg (by omega)
      _ = .ok minv := by rw [htable]
  | cons k columns ih =>
    obtain ⟨hk, hrest⟩ := List.forall_mem_cons.mp hcolumns
    obtain ⟨-, hp⟩ := pivotRow_bounds (m := m) (h.rows.symm ▸ hk)
    rw [h.rows] at hp
    rw [inverseLoop, inverseFrom, searchPivot_eq_pivotRow h.entries.1 h.rows hk]
    dsimp only
    rw [h.entries.1.at_place _ hp k hk]
    split
    · rfl
    · split
      · exact ih (h.clear hk) hrest
      · exact ih ((h.exchange hk hp).clear hk) hrest

end WorksOn

theorem inverse_eq_inverseFrom (hsquare : m.rows = m.cols) :
    m.inverse = (identity m.rows).bind (inverseFrom m.tolerance (List.range m.rows) m) := by
  have hcells : HasEntries m.workingCells m.rows m.rows m.entry := by
    rw [workingCells, ← hsquare]
    exact hasEntries_tabulate m.entry
  rw [inverse, if_pos hsquare]
  cases hunit : (identity m.rows : Except MatrixError (Matrix α)) with
  | error e => rfl
  | ok unit =>
    obtain ⟨hrows, hcols⟩ := shape_of_generate hunit
    obtain ⟨hn, -, hsize⟩ := wellFormed_of_generate hunit
    have hunitCells := hasEntries_cells hsize
    rw [hrows, hcols] at hunitCells
    exact WorksOn.inverseLoop_eq ⟨rfl, hsquare.symm, hrows, hcols, hsize, hcells, hunitCells⟩
      (hrows ▸ hn) fun k => List.mem_range.mp

end

end Matrix

end CellFormula
