import CellFormula.Proofs.ArrayFormula
import CellFormula.Proofs.ReferencedCells
import Mathlib.Data.Finset.Card

/-!
# Grids by what was written to them

A grid is made by writes: of a cell, of a name, and of a sheet that is made known. What it answers
afterwards is told by the list of the writes alone. A cell and a name have the value that was
written last, and a sheet exists if a write was about it.

## What a write is about

A write is about one cell, one name or one sheet, and a write of a cell behind a link is about the
sheet behind that link as well (`Write.key?`, `Write.name?`, `Write.link?`). Any answer is changed
by the writes that are about it and by no others, so one argument (`read_ofWrites`) serves cells and
names.

## Sheets of stored cells

A reference through a link is a reference error if there is no such sheet. Where a cell was stored
on the sheet there is one, so whether the sheet exists need not be asked:
`evaluate_everySheet` takes a source that says yes for every sheet in the place of the grid. The
value that was stored may be a reference error like any other value.

## Main definitions

* `Grid.Write`, `Grid.write`, `Grid.ofWrites` — writes, and the grid that they make
* `Grid.writtenCells`, `Grid.writtenNames`, `Grid.writtenLinks` — all that was written
* `Grid.IsLast` — the last write about a cell or a name
* `Grid.everySheet` — the cells and names of a grid, with all sheets

## Main results

* `Grid.cellAt_ofWrites`, `Grid.nameValue_ofWrites` — the last write counts
* `Grid.size_ofWrites`, `Grid.hasSheet_ofWrites` — cells are counted once, and sheets
* `Grid.referenceOperand_sheetCell`, `Grid.referenceOperand_sheetArea` — references to stored cells
* `Grid.grids_answer_last_writes` — all of it
-/

namespace CellFormula.Grid

/-! ### Writes -/

/-- A change of a grid. -/
inductive Write
  | cell (sheet : SheetRef) (row col : Nat) (v : Value)
  | name (n : NameRef) (v : Value)
  /-- The sheet behind a link is made known. -/
  | sheet (link : UInt16)

namespace Write

/-- The cell that is written. -/
def key? : Write → Option CellKey
  | .cell s row col _ => some (s, row, col)
  | _ => none

/-- The name that is written. -/
def name? : Write → Option NameRef
  | .name n _ => some n
  | _ => none

/-- The link to the sheet that exists from then on. -/
def link? : Write → Option UInt16
  | .cell (.external link) _ _ _ => some link
  | .sheet link => some link
  | _ => none

end Write

/-- The grid after a write. -/
def write (g : Grid) : Write → Grid
  | .cell sheet row col v => g.put sheet row col v
  | .name n v => g.define n v
  | .sheet link => g.addSheet link

/-- The grid that writes make, the first of them first. -/
def ofWrites (ws : List Write) : Grid := ws.foldl write empty

/-- The cells that are written, one entry for each write. -/
def writtenCells (ws : List Write) : List CellKey := ws.filterMap Write.key?

/-- The names that are written. -/
def writtenNames (ws : List Write) : List NameRef := ws.filterMap Write.name?

/-- The links to the sheets that the writes are about. -/
def writtenLinks (ws : List Write) : List UInt16 := ws.filterMap Write.link?

/-- The write is the last one in the list that is about this. -/
def IsLast {κ : Type} (about : Write → Option κ) (k : κ) (ws : List Write) (w : Write) : Prop :=
  ∃ earlier later, ws = earlier ++ w :: later ∧ about w = some k ∧ k ∉ later.filterMap about

variable {g : Grid} {ws : List Write} {w : Write}

/-! ### One write -/

theorem cells_withSheet (g : Grid) (sheet : SheetRef) : (g.withSheet sheet).cells = g.cells := by
  cases sheet <;> rfl

theorem names_withSheet (g : Grid) (sheet : SheetRef) : (g.withSheet sheet).names = g.names := by
  cases sheet <;> rfl

theorem cells_put (g : Grid) (sheet : SheetRef) (row col : Nat) (v : Value) :
    (g.put sheet row col v).cells = g.cells.insert (sheet, row, col) v := by
  rw [put, cells_withSheet]

theorem names_put (g : Grid) (sheet : SheetRef) (row col : Nat) (v : Value) :
    (g.put sheet row col v).names = g.names := names_withSheet g sheet

theorem cellAt_put (g : Grid) (sheet : SheetRef) (row col : Nat) (v : Value) :
    (g.put sheet row col v).cellAt sheet row col = v := by
  rw [cellAt, cells_put, Std.HashMap.getElem?_insert_self, Option.getD_some]

theorem nameValue_define (g : Grid) (n : NameRef) (v : Value) :
    (g.define n v).nameValue n = v := by
  rw [nameValue, define, Std.HashMap.getElem?_insert_self, Option.getD_some]

/-- **A cell keeps its value** when another cell, a name or a sheet is written. -/
theorem cellAt_write_of_ne {sheet : SheetRef} {row col : Nat}
    (h : w.key? ≠ some (sheet, row, col)) (g : Grid) :
    (g.write w).cellAt sheet row col = g.cellAt sheet row col := by
  cases w with
  | cell sheet' row' col' v =>
    have hne : ¬ ((sheet', row', col') == (sheet, row, col)) = true := fun heq =>
      h (congrArg some (beq_iff_eq.mp heq))
    rw [write, cellAt, cells_put, Std.HashMap.getElem?_insert, if_neg hne, cellAt]
  | name n v => rfl
  | sheet link => rfl

/-- **A name keeps its value** when another name, a cell or a sheet is written. -/
theorem nameValue_write_of_ne {n : NameRef} (h : w.name? ≠ some n) (g : Grid) :
    (g.write w).nameValue n = g.nameValue n := by
  cases w with
  | cell sheet row col v => rw [write, nameValue, names_put, nameValue]
  | name n' v =>
    have hne : ¬ (n' == n) = true := fun heq => h (congrArg some (beq_iff_eq.mp heq))
    rw [write, nameValue, define, Std.HashMap.getElem?_insert, if_neg hne, nameValue]
  | sheet link => rfl

/-- The cells that are stored after a write. -/
theorem mem_cells_write {key : CellKey} :
    key ∈ (g.write w).cells ↔ w.key? = some key ∨ key ∈ g.cells := by
  cases w with
  | cell sheet row col v =>
    rw [write, cells_put, Std.HashMap.mem_insert, beq_iff_eq, Write.key?, Option.some_inj]
  | name n v => simp [write, define, Write.key?]
  | sheet link => simp [write, addSheet, Write.key?]

/-- The sheets that exist after a write. -/
theorem hasSheet_write {link : UInt16} : (g.write w).hasSheet (.external link) = true ↔
    w.link? = some link ∨ g.hasSheet (.external link) = true := by
  cases w with
  | cell sheet row col v =>
    cases sheet with
    | current => simp [write, put, withSheet, hasSheet, Write.link?]
    | external link' => simp [write, put, withSheet, addSheet, hasSheet, Write.link?]
  | name n v => simp [write, define, hasSheet, Write.link?]
  | sheet link' => simp [write, addSheet, hasSheet, Write.link?]

/-- A write of a new cell is counted, and no other write is. -/
theorem size_write (g : Grid) (w : Write) : (g.write w).size
    = match w.key? with
      | some key => if key ∈ g.cells then g.size else g.size + 1
      | none => g.size := by
  cases w with
  | cell sheet row col v => rw [write, size, cells_put, Std.HashMap.size_insert]; rfl
  | name n v => rfl
  | sheet link => rfl

/-- **A sheet stays as it is** when cells of other sheets or names are written. -/
theorem hasSheet_write_of_ne {link : UInt16} (h : w.link? ≠ some link) (g : Grid) :
    (g.write w).hasSheet (.external link) = g.hasSheet (.external link) := by
  rw [Bool.eq_iff_iff, hasSheet_write, or_iff_right h]

/-! ### All writes -/

theorem ofWrites_concat (ws : List Write) (w : Write) :
    ofWrites (ws ++ [w]) = (ofWrites ws).write w := by
  rw [ofWrites, List.foldl_concat, ofWrites]

/-- Writes that are about other things change nothing. -/
theorem read_foldl {α κ : Type} (read : Grid → α) {about : Write → Option κ} {k : κ}
    (hkeeps : ∀ w g, about w ≠ some k → read (g.write w) = read g)
    (hws : k ∉ ws.filterMap about) (g : Grid) : read (ws.foldl write g) = read g := by
  induction ws generalizing g with
  | nil => rfl
  | cons w ws ih =>
    obtain ⟨hw, hws⟩ : about w ≠ some k ∧ k ∉ ws.filterMap about := by
      simpa only [List.mem_filterMap, List.mem_cons, exists_eq_or_imp, not_or] using hws
    rw [List.foldl_cons, ih hws, hkeeps w g hw]

/-- What is read after all writes is read right after the last write that is about it. -/
theorem read_ofWrites {α κ : Type} (read : Grid → α) {about : Write → Option κ} {k : κ}
    (hkeeps : ∀ w g, about w ≠ some k → read (g.write w) = read g)
    (h : IsLast about k ws w) : ∃ g : Grid, read (ofWrites ws) = read (g.write w) := by
  obtain ⟨earlier, later, rfl, -, hlater⟩ := h
  refine ⟨ofWrites earlier, ?_⟩
  rw [ofWrites, List.foldl_append, List.foldl_cons]
  exact read_foldl read hkeeps hlater _

/-- Of the writes that are about something there is a last one, unless there are none. -/
theorem exists_isLast_iff {κ : Type} {about : Write → Option κ} {k : κ} :
    (∃ w, IsLast about k ws w) ↔ k ∈ ws.filterMap about := by
  constructor
  · rintro ⟨w, earlier, later, rfl, hw, -⟩
    exact List.mem_filterMap.mpr ⟨w, by simp, hw⟩
  · intro h
    induction ws using List.reverseRecOn with
    | nil => cases h
    | append_singleton ws w' ih =>
      by_cases hw' : about w' = some k
      · exact ⟨w', ws, [], rfl, hw', List.not_mem_nil⟩
      · have hws : k ∈ ws.filterMap about := by
          simpa [List.filterMap_append, hw'] using h
        obtain ⟨w, earlier, later, rfl, hw, hlater⟩ := ih hws
        refine ⟨w, earlier, later ++ [w'], by simp, hw, ?_⟩
        simpa [List.filterMap_append, hw'] using hlater

/-- **A cell has the value that was written to it last.** -/
theorem cellAt_ofWrites {sheet : SheetRef} {row col : Nat} {v : Value}
    (h : IsLast Write.key? (sheet, row, col) ws (.cell sheet row col v)) :
    (ofWrites ws).cellAt sheet row col = v := by
  obtain ⟨g, hread⟩ := read_ofWrites (fun g => g.cellAt sheet row col)
    (fun w g hw => cellAt_write_of_ne hw g) h
  exact hread.trans (cellAt_put g sheet row col v)

/-- A cell that was never written is blank. -/
theorem cellAt_ofWrites_of_notMem {sheet : SheetRef} {row col : Nat}
    (h : (sheet, row, col) ∉ writtenCells ws) : (ofWrites ws).cellAt sheet row col = .blank := by
  rw [ofWrites, read_foldl (fun g => g.cellAt sheet row col)
    (fun w g hw => cellAt_write_of_ne hw g) h]
  simp [cellAt, empty]

/-- **A name has the value that was written for it last.** -/
theorem nameValue_ofWrites {n : NameRef} {v : Value} (h : IsLast Write.name? n ws (.name n v)) :
    (ofWrites ws).nameValue n = v := by
  obtain ⟨g, hread⟩ := read_ofWrites (fun g => g.nameValue n)
    (fun w g hw => nameValue_write_of_ne hw g) h
  exact hread.trans (nameValue_define g n v)

/-- A name that was never written is a name error. -/
theorem nameValue_ofWrites_of_notMem {n : NameRef} (h : n ∉ writtenNames ws) :
    (ofWrites ws).nameValue n = .error .name := by
  rw [ofWrites, read_foldl (fun g => g.nameValue n)
    (fun w g hw => nameValue_write_of_ne hw g) h]
  simp [nameValue, empty]

/-- What each write about something brings about, and no other write changes, holds in the end if
there is such a write. -/
theorem holds_ofWrites_iff {κ : Type} {P : Grid → Prop} {about : Write → Option κ} {k : κ}
    (hempty : ¬ P empty) (hwrite : ∀ w g, P (g.write w) ↔ about w = some k ∨ P g) :
    P (ofWrites ws) ↔ k ∈ ws.filterMap about := by
  induction ws using List.reverseRecOn with
  | nil => exact iff_of_false hempty List.not_mem_nil
  | append_singleton ws w ih =>
    rw [ofWrites_concat, hwrite, ih, or_comm]
    simp [List.filterMap_append, eq_comm]

/-- The cells that are stored are those that were written. -/
theorem mem_cells_ofWrites {key : CellKey} :
    key ∈ (ofWrites ws).cells ↔ key ∈ writtenCells ws :=
  holds_ofWrites_iff (P := fun g => key ∈ g.cells) Std.HashMap.not_mem_empty
    fun _ _ => mem_cells_write

theorem toFinset_writtenCells_concat (ws : List Write) (w : Write) :
    (writtenCells (ws ++ [w])).toFinset
      = match w.key? with
        | some key => insert key (writtenCells ws).toFinset
        | none => (writtenCells ws).toFinset := by
  ext key
  cases hkey : w.key? with
  | none => simp [writtenCells, hkey]
  | some key' => simp [writtenCells, hkey, eq_comm]

/-- **Each cell is counted once**, however often it was written. -/
theorem size_ofWrites (ws : List Write) :
    (ofWrites ws).size = (writtenCells ws).toFinset.card := by
  induction ws using List.reverseRecOn with
  | nil => rfl
  | append_singleton ws w ih =>
    rw [ofWrites_concat, size_write, toFinset_writtenCells_concat]
    cases w.key? with
    | none => exact ih
    | some key =>
      simp only [mem_cells_ofWrites, ih, Finset.card_insert_eq_ite, List.mem_toFinset]

/-- **A sheet exists if a write was about it.** -/
theorem hasSheet_ofWrites {link : UInt16} :
    (ofWrites ws).hasSheet (.external link) = true ↔ link ∈ writtenLinks ws :=
  holds_ofWrites_iff (P := fun g => g.hasSheet (.external link) = true)
    (by simp [empty, hasSheet]) fun _ _ => hasSheet_write

/-- A write of a cell is about its sheet. -/
theorem link_mem_writtenLinks {link : UInt16} {row col : Nat}
    (h : (.external link, row, col) ∈ writtenCells ws) : link ∈ writtenLinks ws := by
  obtain ⟨w, hw, hkey⟩ := List.mem_filterMap.mp h
  refine List.mem_filterMap.mpr ⟨w, hw, ?_⟩
  cases w with
  | cell s row' col' v => cases hkey; rfl
  | name n v => cases hkey
  | sheet link' => cases hkey

/-- **The sheet of a stored cell exists.** -/
theorem hasSheet_of_mem_writtenCells {link : UInt16} {row col : Nat}
    (h : (.external link, row, col) ∈ writtenCells ws) :
    (ofWrites ws).hasSheet (.external link) = true :=
  hasSheet_ofWrites.mpr (link_mem_writtenLinks h)

/-! ### Formulas on the grid -/

/-- The cells and the names of the grid, and all sheets. -/
def everySheet (g : Grid) : CellSource := { g.source with hasSheet := fun _ => true }

variable {m : Machine} {link : UInt16}

/-- A reference through the link is a range if a cell behind it is stored. -/
theorem onSheet_of_mem_writtenCells {row col : Nat}
    (h : (.external link, row, col) ∈ writtenCells ws) (range : SheetRef → Range) :
    (m.on (ofWrites ws).source).onSheet link range = .range (range (.external link)) :=
  if_pos (hasSheet_of_mem_writtenCells h)

/-- **A reference to a stored cell is that cell**, and not a reference error. -/
theorem referenceOperand_sheetCell {c : CellRef}
    (h : (.external link, c.row.toNat, c.col.toNat) ∈ writtenCells ws) :
    (m.on (ofWrites ws).source).referenceOperand (.sheetCell link c)
      = .range (.single (.external link) c.row.toNat c.col.toNat) :=
  onSheet_of_mem_writtenCells h fun sheet => .single sheet c.row.toNat c.col.toNat

/-- **A reference to an area with a stored cell is that area.** -/
theorem referenceOperand_sheetArea {a : AreaRef} {key : CellKey}
    (harea : key ∈ (rangeOf (.external link) a).cells) (h : key ∈ writtenCells ws) :
    (m.on (ofWrites ws).source).referenceOperand (.sheetArea link a)
      = .range (rangeOf (.external link) a) := by
  obtain ⟨sheet, row, col⟩ := key
  obtain rfl : sheet = .external link := harea.1
  exact onSheet_of_mem_writtenCells h fun sheet => rangeOf sheet a

/-- **The formula that refers to a stored cell has its value**, as it was written last. -/
theorem evaluate_sheetCell {c : CellRef} {v : Value}
    (h : IsLast Write.key? (.external link, c.row.toNat, c.col.toNat) ws
      (.cell (.external link) c.row.toNat c.col.toNat v))
    (hroom : 0 < m.limits.stackDepth) (cls : OperandClass) :
    (m.on (ofWrites ws).source).evaluate [.reference (.sheetCell link c) cls]
      = .ok (m.result (.value (v.opened m.limits.valueNesting))) := by
  have hpushes : (m.on (ofWrites ws).source).Pushes [.reference (.sheetCell link c) cls]
      (.range (.single (.external link) c.row.toNat c.col.toNat)) := by
    have haction : (Token.reference (.sheetCell link c) cls).action
        = .put (.reference (.sheetCell link c)) := rfl
    rw [← referenceOperand_sheetCell (exists_isLast_iff.mp ⟨_, h⟩)]
    exact Machine.pushes_leaf haction
  have hcell : (m.on (ofWrites ws).source).cellValue (.external link) c.row.toNat c.col.toNat
      = v.opened m.limits.valueNesting :=
    congrArg (Value.opened m.limits.valueNesting) (cellAt_ofWrites h)
  rw [hpushes.evaluate hroom, Machine.result, Machine.operandValue_single, hcell]
  rfl

/-- **No formula asks for the sheets of stored cells.** If there is a stored cell behind each link
of the formula, it is evaluated as if all sheets existed. -/
theorem evaluate_everySheet {f : Formula}
    (h : ∀ link ∈ f.links, ∃ row col, (.external link, row, col) ∈ writtenCells ws) :
    (m.on (ofWrites ws).everySheet).evaluate f = (m.on (ofWrites ws).source).evaluate f := by
  refine Machine.evaluate_on (m := m.on (ofWrites ws).source)
    ⟨⟨rfl, rfl, fun _ _ _ _ => rfl⟩, fun link hlink => ?_, fun _ _ => rfl⟩
    Machine.covers_boundedCells
  obtain ⟨row, col, hmem⟩ := h link hlink
  exact hasSheet_of_mem_writtenCells hmem

/-! ### All of it -/

/-- **A grid is a map, and the sheets of its cells exist.** After any writes, a cell and a name have
the value that was written last, and if there was none the cell is blank and the name is a name
error. Whatever is written next, only what it is about changes. The cells that were written are
counted, each of them once. A sheet exists if a write was about it, so the sheet of a stored cell
does. No reference to a stored cell, or to an area with one, is therefore a reference error: the
formula that is such a reference has the value of the cell, and a formula with stored cells behind
all its links is evaluated as if all sheets existed. -/
theorem grids_answer_last_writes (ws : List Write) :
    let g := ofWrites ws
    (∀ sheet row col,
      (∀ v, IsLast Write.key? (sheet, row, col) ws (.cell sheet row col v) →
        g.cellAt sheet row col = v) ∧
      ((sheet, row, col) ∉ writtenCells ws → g.cellAt sheet row col = .blank) ∧
      ∀ w : Write, w.key? ≠ some (sheet, row, col) →
        (g.write w).cellAt sheet row col = g.cellAt sheet row col) ∧
    (∀ n,
      (∀ v, IsLast Write.name? n ws (.name n v) → g.nameValue n = v) ∧
      (n ∉ writtenNames ws → g.nameValue n = .error .name) ∧
      ∀ w : Write, w.name? ≠ some n → (g.write w).nameValue n = g.nameValue n) ∧
    g.size = (writtenCells ws).toFinset.card ∧
    (∀ link,
      (g.hasSheet (.external link) = true ↔ link ∈ writtenLinks ws) ∧
      ((∃ row col, (.external link, row, col) ∈ writtenCells ws) →
        g.hasSheet (.external link) = true) ∧
      ∀ w : Write, w.link? ≠ some link →
        (g.write w).hasSheet (.external link) = g.hasSheet (.external link)) ∧
    ∀ m : Machine,
      (∀ link c, (.external link, c.row.toNat, c.col.toNat) ∈ writtenCells ws →
        (m.on g.source).referenceOperand (.sheetCell link c)
          = .range (.single (.external link) c.row.toNat c.col.toNat)) ∧
      (∀ link a, (∃ key ∈ (rangeOf (.external link) a).cells, key ∈ writtenCells ws) →
        (m.on g.source).referenceOperand (.sheetArea link a)
          = .range (rangeOf (.external link) a)) ∧
      (∀ link c cls v, IsLast Write.key? (.external link, c.row.toNat, c.col.toNat) ws
          (.cell (.external link) c.row.toNat c.col.toNat v) → 0 < m.limits.stackDepth →
        (m.on g.source).evaluate [.reference (.sheetCell link c) cls]
          = .ok (m.result (.value (v.opened m.limits.valueNesting)))) ∧
      ∀ f : Formula,
        (∀ link ∈ f.links, ∃ row col, (.external link, row, col) ∈ writtenCells ws) →
        (m.on g.everySheet).evaluate f = (m.on g.source).evaluate f := by
  intro g
  refine ⟨fun sheet row col => ⟨fun v hlast => cellAt_ofWrites hlast,
      cellAt_ofWrites_of_notMem, fun w hw => cellAt_write_of_ne hw g⟩,
    fun n => ⟨fun v hlast => nameValue_ofWrites hlast,
      nameValue_ofWrites_of_notMem, fun w hw => nameValue_write_of_ne hw g⟩,
    size_ofWrites ws,
    fun link => ⟨hasSheet_ofWrites, fun ⟨row, col, hmem⟩ => hasSheet_of_mem_writtenCells hmem,
      fun w hw => hasSheet_write_of_ne hw g⟩,
    fun m => ⟨fun link c hmem => referenceOperand_sheetCell hmem,
      fun link a ⟨key, harea, hmem⟩ => referenceOperand_sheetArea harea hmem,
      fun link c cls v hlast hroom => evaluate_sheetCell hlast hroom cls,
      fun f hlinks => evaluate_everySheet hlinks⟩⟩

/-- A cell behind a link that is written twice, with a cell, a name and a sheet in between. -/
theorem grids_answer_last_writes_overwritten :
    let c : CellRef := .relative 3 1
    let a : AreaRef := ⟨.relative 0 0, .relative 5 5⟩
    let ws : List Write := [.cell (.external 2) 3 1 (.text "old"), .cell .current 3 1 .blank,
      .name (.defined 1) (.boolean true), .sheet 4, .cell (.external 2) 3 1 (.text "new")]
    let g := ofWrites ws
    let m := Machine.over g.source
    let f : Formula := [.reference (.sheetCell 2 c) .value, .reference (.sheetCell 2 c) .value,
      .operator .concat]
    (g.cellAt (.external 2) 3 1 = .text "new" ∧ g.cellAt .current 0 0 = .blank ∧
        (g.write (.sheet 2)).cellAt (.external 2) 3 1 = .text "new") ∧
      (g.nameValue (.defined 1) = .boolean true ∧ g.nameValue (.defined 2) = .error .name) ∧
      g.size = 2 ∧
      (g.hasSheet (.external 2) = true ∧ g.hasSheet (.external 4) = true) ∧
      (m.on g.source).referenceOperand (.sheetArea 2 a) = .range ⟨.external 2, 0, 0, 5, 5⟩ ∧
      (m.on g.source).evaluate [.reference (.sheetCell 2 c) .value] = .ok (.text "new") ∧
      (m.on g.everySheet).evaluate f = (m.on g.source).evaluate f := by
  intro c a ws g m f
  obtain ⟨hcells, hnames, hsize, hsheets, hformulas⟩ := grids_answer_last_writes ws
  obtain ⟨-, harea, hcell, hall⟩ := hformulas m
  have hlast : IsLast Write.key? (.external 2, 3, 1) ws (.cell (.external 2) 3 1 (.text "new")) :=
    ⟨ws.take 4, [], rfl, rfl, List.not_mem_nil⟩
  have hname : IsLast Write.name? (.defined 1) ws (.name (.defined 1) (.boolean true)) :=
    ⟨ws.take 2, ws.drop 3, rfl, rfl, by decide⟩
  have hstored : (SheetRef.external 2, 3, 1) ∈ writtenCells ws := by decide
  have hread := (hcells (.external 2) 3 1).1 _ hlast
  have hkept := (hcells (.external 2) 3 1).2.2 (.sheet 2) nofun
  have hlink : ∃ row col, (SheetRef.external 2, row, col) ∈ writtenCells ws := ⟨3, 1, hstored⟩
  have hlinks : ∀ link ∈ f.links, ∃ row col, (.external link, row, col) ∈ writtenCells ws :=
    List.forall_mem_cons.mpr ⟨hlink, List.forall_mem_singleton.mpr hlink⟩
  exact ⟨⟨hread, (hcells .current 0 0).2.1 (by decide), hkept.trans hread⟩,
    ⟨(hnames (.defined 1)).1 _ hname, (hnames (.defined 2)).2.1 (by decide)⟩,
    hsize.trans (by decide),
    ⟨(hsheets 2).2.1 hlink, (hsheets 4).1.mpr (by decide)⟩,
    harea 2 a ⟨(.external 2, 3, 1), ⟨rfl, by decide⟩, hstored⟩,
    hcell 2 c .value (.text "new") hlast (by decide), hall f hlinks⟩

end CellFormula.Grid
