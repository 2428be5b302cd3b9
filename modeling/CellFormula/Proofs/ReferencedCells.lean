import CellFormula.Proofs.AgreeingMachines

/-!
# The cells that a formula refers to

What a formula evaluates to depends on the cells that it refers to and on no others. Whoever keeps
the ranges of its references with each formula therefore knows which formulas a changed cell can
touch.

## Two sets of cells

All ranges on the operand stack come from references. Without the range operator they stay among the
cells of the references. With it they stay, on each sheet, inside the smallest range around the
references to that sheet. The argument is the same for both sets: `Machine.Covers` says what a set
of cells needs, and the two sets are shown to have it at the end.

## What is deliberately absent

A source that answers for areas in its own way may look at any cell, so nothing is said of such
sources. Nothing has to be known of the functions that are bound: they see arguments and no source.

## Main definitions

* `Formula.references`, `Formula.links`, `Formula.names` — what the formula mentions
* `Machine.referencedCells`, `Machine.boundedCells` — the two sets
* `CellSource.SameCells`, `CellSource.Agree` — sources that agree
* `Machine.Covers` — a set that no range leaves
* `Machine.on` — the machine with another source

## Main results

* `Machine.within_of_run` — ranges do not leave the set
* `Machine.agree_on`, `Machine.evaluate_on` — sources that agree on the set
* `Machine.evaluate_on_referenced` — the two sets
-/

namespace CellFormula

open Worksheet (FunctionInfo)

/-! ### What a formula mentions -/

/-- The leaf that the action puts on the stack. -/
def Action.leaf? : Action → Option Leaf
  | put leaf => some leaf
  | _ => none

/-- The reference that the leaf is. -/
def Leaf.reference? : Leaf → Option Reference
  | reference r => some r
  | _ => none

/-- The name that the leaf is. -/
def Leaf.name? : Leaf → Option NameRef
  | name n => some n
  | _ => none

/-- The sheet link that the reference goes through. Of a deleted reference nothing is looked up. -/
def Reference.link? : Reference → Option UInt16
  | sheetCell link _ | sheetArea link _ => some link
  | _ => none

namespace Formula

/-- The leaves of the formula. -/
def leaves (f : Formula) : List Leaf := f.filterMap fun t => t.action.leaf?

/-- The references of the formula. -/
def references (f : Formula) : List Reference := f.leaves.filterMap Leaf.reference?

/-- The links to the sheets that the formula refers to. -/
def links (f : Formula) : List UInt16 := f.references.filterMap Reference.link?

/-- The names that the formula uses. -/
def names (f : Formula) : List NameRef := f.leaves.filterMap Leaf.name?

variable {f : Formula} {t : Token}

theorem mem_leaves {leaf : Leaf} (ht : t ∈ f) (h : t.action = .put leaf) : leaf ∈ f.leaves :=
  List.mem_filterMap.mpr ⟨t, ht, by rw [h]; rfl⟩

theorem mem_references {r : Reference} (h : .reference r ∈ f.leaves) : r ∈ f.references :=
  List.mem_filterMap.mpr ⟨_, h, rfl⟩

theorem mem_links {r : Reference} {link : UInt16} (hr : r ∈ f.references)
    (h : r.link? = some link) : link ∈ f.links :=
  List.mem_filterMap.mpr ⟨r, hr, h⟩

theorem mem_names {n : NameRef} (h : .name n ∈ f.leaves) : n ∈ f.names :=
  List.mem_filterMap.mpr ⟨_, h, rfl⟩

end Formula

theorem Action.ofCall_ne_combine (index : UInt16) (count : FunctionInfo → Nat) (op : Operator) :
    Action.ofCall index count ≠ .combine op := by
  rw [Action.ofCall]
  split <;> nofun

/-- Only the token of an operator asks for it. -/
theorem Token.eq_operator_of_action {t : Token} {op : Operator} (h : t.action = .combine op) :
    t = .operator op := by
  cases t with
  | operator op' => cases h; rfl
  | call c cls => exact (Action.ofCall_ne_combine _ _ _ h).elim
  | hint a =>
    rw [action] at h
    split at h
    · exact (Action.ofCall_ne_combine _ _ _ h).elim
    · cases h
  | _ => cases h

/-- Only the token of an array literal puts one on the stack. -/
theorem Token.exists_eq_array_of_action {t : Token} {cells : Option (Matrix Constant)}
    (h : t.action = .put (.array cells)) : ∃ cls, t = .array cells cls := by
  have hcall (index : UInt16) (count : FunctionInfo → Nat) :
      Action.ofCall index count ≠ .put (.array cells) := by
    rw [Action.ofCall]
    split <;> nofun
  cases t with
  | array cells' cls => cases h; exact ⟨cls, rfl⟩
  | call c cls => exact (hcall _ _ h).elim
  | hint a =>
    rw [action] at h
    split at h
    · exact (hcall _ _ h).elim
    · cases h
  | _ => cases h

namespace Machine

/-- The ranges that the formula refers to, for the machine's cell. A reference that means nothing
has none. -/
def referencedRanges (m : Machine) (f : Formula) : List Range :=
  f.references.flatMap fun r => (m.referenceOperand r).rangeList

/-- The cells of all references. -/
def referencedCells (m : Machine) (f : Formula) : Set CellKey :=
  {key | ∃ r ∈ m.referencedRanges f, key ∈ r.cells}

/-- The cells, sheet by sheet, of the smallest range around all references to the sheet. -/
def boundedCells (m : Machine) (f : Formula) : Set CellKey :=
  {key | ∃ hull, Range.hull? ((m.referencedRanges f).filter fun r => r.sheet = key.1) = some hull ∧
    key ∈ hull.cells}

theorem normal_of_mem_rangeList {m : Machine} {ref : Reference} {r : Range}
    (h : r ∈ (m.referenceOperand ref).rangeList) : r.Normal := by
  obtain ⟨kind, hr⟩ | ⟨sheet, row, col, row', col', hr⟩ := m.referenceOperand_cases ref
  · rw [hr] at h
    exact absurd h List.not_mem_nil
  · rw [hr] at h
    rw [List.mem_singleton.mp h]
    exact Range.normal_spanning ..

variable {m : Machine} {f : Formula}

theorem cells_subset_referencedCells {r : Range} (h : r ∈ m.referencedRanges f) :
    r.cells ⊆ m.referencedCells f :=
  fun _ hkey => ⟨r, h, hkey⟩

/-- On each sheet that is referred to there is a smallest range around the references. -/
theorem cells_subset_boundedCells {r : Range} (h : r ∈ m.referencedRanges f) :
    r.cells ⊆ m.boundedCells f := by
  intro key hkey
  have hsheet : key.1 = r.sheet := hkey.1
  have hmem : r ∈ (m.referencedRanges f).filter fun r => r.sheet = key.1 :=
    List.mem_filter.mpr ⟨h, decide_eq_true hsheet.symm⟩
  have hsame : ∀ b ∈ (m.referencedRanges f).filter fun r => r.sheet = key.1, b.sheet = key.1 :=
    fun b hb => of_decide_eq_true (List.mem_filter.mp hb).2
  show ∃ hull, _
  cases hranges : (m.referencedRanges f).filter fun r => r.sheet = key.1 with
  | nil => rw [hranges] at hmem; cases hmem
  | cons a rs =>
    rw [hranges] at hmem hsame
    obtain ⟨ha, hrs⟩ := List.forall_mem_cons.mp hsame
    obtain ⟨hull, hhull, hcovers⟩ :=
      Range.exists_foldlM_bounding? (r := a) fun b hb => (hrs b hb).trans ha.symm
    exact ⟨hull, hhull, hcovers r hmem hkey⟩

/-- **The range operator does not leave the bounded cells.** The ranges on a sheet all lie in one
range, so what lies between them does too. -/
theorem hullClosed_boundedCells : HullClosed (m.boundedCells f) := by
  intro a b c ha hb hc key hkey
  -- The range around the references to a sheet is the same for all cells of the sheet.
  obtain ⟨hull, hhull, -⟩ := ha.subset ha.normal.corners_mem.1
  have hwithin {r : Range} (hr : r.Within (m.boundedCells f)) (hsheet : r.sheet = a.sheet) :
      r.Within hull.cells := by
    refine ⟨hr.normal, fun key hkey => ?_⟩
    obtain ⟨hull', hhull', hkey'⟩ := hr.subset hkey
    rw [hkey.1, hsheet] at hhull'
    cases hhull.symm.trans hhull'
    exact hkey'
  have hsheet : key.1 = a.sheet := hkey.1.trans (Range.cells_subset_bounding? hc).1
  refine ⟨hull, hsheet ▸ hhull, ?_⟩
  exact hull.hullClosed_cells a b c (hwithin ha rfl)
    (hwithin hb (Range.sheet_eq_of_bounding? hc).symm) hc hkey

end Machine

/-! ### Ranges stay in the set -/

/-- The set holds all that the formula refers to, and the smallest range around two ranges in it if
the formula asks for that. -/
structure Machine.Covers (m : Machine) (s : Set CellKey) (f : Formula) : Prop where
  reference : ∀ ref ∈ f.references, (m.referenceOperand ref).Within s
  hull : .operator .range ∈ f → HullClosed s

namespace Machine

variable {m : Machine} {f : Formula} {s : Set CellKey}

/-- **All ranges come from references**, by way of operators that keep a property of them. -/
theorem Makes.forall_ranges {P : Range → Prop} {a : Action} {operands : List Operand}
    {operand : Operand} (h : m.Makes a operands operand)
    (href : ∀ ref, a = .put (.reference ref) → ∀ r ∈ (m.referenceOperand ref).rangeList, P r)
    (hkeeps : ∀ op, a = .combine op → Operand.Keeps op P)
    (hoperands : ∀ o ∈ operands, ∀ r ∈ o.rangeList, P r) : ∀ r ∈ operand.rangeList, P r := by
  cases h with
  | put leaf =>
    cases leaf with
    | reference ref => exact href ref rfl
    | array cells => cases cells <;> exact List.forall_mem_nil _
    | _ => exact List.forall_mem_nil _
  | combine op _ count =>
    rw [applyOperator]
    split
    · exact Operand.forall_combineReferences (hkeeps op rfl) hoperands
    · exact List.forall_mem_nil _
  | call info _ _ value =>
    obtain ⟨kind, rfl⟩ | ⟨-, f, -, rfl⟩ := applyFunction_cases value
    · exact List.forall_mem_nil _
    · exact List.forall_mem_nil _

/-- What a token of the formula makes of operands in the set stays in the set. -/
theorem Covers.within (hs : m.Covers s f) {t : Token} (ht : t ∈ f) {operands : List Operand}
    {operand : Operand} (hmade : m.Makes t.action operands operand)
    (hoperands : ∀ o ∈ operands, o.Within s) : operand.Within s := by
  refine hmade.forall_ranges (fun ref haction => ?_) (fun op haction => ?_) hoperands
  · exact hs.reference ref (Formula.mem_references (Formula.mem_leaves ht haction))
  · refine Operand.keeps_within fun hop => hs.hull ?_
    rw [hop] at haction
    exact Token.eq_operator_of_action haction ▸ ht

/-- **No range on the stack leaves the set.** -/
theorem within_of_run (hs : m.Covers s f) {g : Formula} (hg : ∀ t ∈ g, t ∈ f)
    {stack : Stack Operand} (h : m.run 0 .empty g = .ok stack) :
    ∀ o ∈ stack.entries, o.Within s :=
  forall_entries_of_run h fun _ t _ _ _ hsplit _ => hs.within (hg t (by simp [hsplit]))

end Machine

/-! ### Sources that agree -/

theorem Matrix.generate_congr {α : Type} {rows cols : Nat} {f g : Nat → Nat → α}
    (h : ∀ r < rows, ∀ c < cols, f r c = g r c) : generate rows cols f = generate rows cols g := by
  rw [generate, generate, tabulate_congr h]

namespace CellSource

/-- Both sources read areas cell by cell, and they have the same values in these cells. -/
structure SameCells (source source' : CellSource) (s : Set CellKey) : Prop where
  reads : source.area = readArea source.cell
  reads' : source'.area = readArea source'.cell
  cell : ∀ sheet row col, (sheet, row, col) ∈ s →
    source.cell sheet row col = source'.cell sheet row col

/-- The sources agree on the sheets and the names that the formula mentions, and on these cells. -/
structure Agree (source source' : CellSource) (f : Formula) (s : Set CellKey) : Prop where
  cells : source.SameCells source' s
  sheets : ∀ link ∈ f.links, source.hasSheet (.external link) = source'.hasSheet (.external link)
  names : ∀ n ∈ f.names, source.name n = source'.name n

/-- A range in the set is the same area in both sources. -/
theorem SameCells.area_eq {source source' : CellSource} {s : Set CellKey}
    (h : source.SameCells source' s) {r : Range} (hr : r.Within s) :
    source.area r = source'.area r := by
  obtain ⟨hrows, hcols⟩ := hr.normal
  have hcell : ∀ i < r.rows, ∀ j < r.cols,
      source.cell r.sheet (r.firstRow + i) (r.firstCol + j)
        = source'.cell r.sheet (r.firstRow + i) (r.firstCol + j) := by
    intro i hi j hj
    rw [Range.rows] at hi
    rw [Range.cols] at hj
    exact h.cell _ _ _ (hr.subset (Range.mem_cells.mpr ⟨rfl, by omega, by omega⟩))
  rw [h.reads, h.reads', readArea, readArea, Matrix.generate_congr hcell]

end CellSource

namespace Machine

/-- The machine with another source of values. -/
def on (m : Machine) (source : CellSource) : Machine := { m with source := source }

section

variable {m : Machine} {source : CellSource} {s : Set CellKey}

theorem readWhole_on (h : m.source.SameCells source s) {r : Range} (hr : r.Within s) :
    (m.on source).readWhole r = m.readWhole r := by
  have harea : (m.on source).source.area r = m.source.area r := (h.area_eq hr).symm
  rw [readWhole, readWhole, harea]
  rfl

/-- What a range is cut down to is one of its cells. -/
theorem mem_cells_of_intersection? {r : Range} (hr : r.Normal) {row col : Nat}
    (h : m.intersection? r = some (row, col)) : (r.sheet, row, col) ∈ r.cells := by
  obtain ⟨hrows, hcols⟩ := hr
  simp only [intersection?, Range.containsRow, Range.containsCol, Range.contains] at h
  rw [Range.mem_cells]
  grind

theorem readIntersected_on (h : m.source.SameCells source s) {r : Range} (hr : r.Within s) :
    (m.on source).readIntersected r = m.readIntersected r := by
  have hsame : (m.on source).intersection? r = m.intersection? r := rfl
  rw [readIntersected, readIntersected, hsame]
  cases hcell : m.intersection? r with
  | none => rfl
  | some place =>
    obtain ⟨row, col⟩ := place
    have hmem := hr.subset (mem_cells_of_intersection? hr.normal hcell)
    exact congrArg (Value.opened m.limits.valueNesting) (h.cell _ _ _ hmem).symm

theorem readValue_on (h : m.source.SameCells source s) {rs : List Range}
    (hrs : ∀ r ∈ rs, r.Within s) : (m.on source).readValue rs = m.readValue rs := by
  match rs with
  | [] => rfl
  | [r] =>
    have hr := hrs r (List.mem_singleton.mpr rfl)
    rw [readValue, readValue, readWhole_on h hr, readIntersected_on h hr]
    rfl
  | _ :: _ :: _ => rfl

theorem operandValue_on (h : m.source.SameCells source s) {o : Operand} (ho : o.Within s) :
    (m.on source).operandValue o = m.operandValue o := by
  cases o with
  | value v => rfl
  | ranges rs => exact readValue_on h ho

theorem referenceOperand_on {ref : Reference} (h : ∀ link, ref.link? = some link →
      m.source.hasSheet (.external link) = source.hasSheet (.external link)) :
    (m.on source).referenceOperand ref = m.referenceOperand ref := by
  cases ref with
  | sheetCell link | sheetArea link =>
    have hlink : (m.on source).source.hasSheet (.external link)
        = m.source.hasSheet (.external link) := (h link rfl).symm
    rw [referenceOperand, referenceOperand, onSheet, onSheet, hlink]
  | _ => rfl

variable {f : Formula}

theorem leafOperand_on (h : m.source.Agree source f s) {leaf : Leaf} (hleaf : leaf ∈ f.leaves) :
    (m.on source).leafOperand leaf = m.leafOperand leaf := by
  cases leaf with
  | reference ref =>
    refine referenceOperand_on fun link hlink => ?_
    exact h.sheets link (Formula.mem_links (Formula.mem_references hleaf) hlink)
  | name n => exact congrArg Operand.value (h.names n (Formula.mem_names hleaf)).symm
  | array cells => cases cells <;> rfl
  | _ => rfl

/-- **The machines agree**, if all ranges lie in the set. -/
theorem agree_on (h : m.source.Agree source f s) (hs : m.Covers s f) :
    m.Agree (m.on source) f (Operand.Within · s) where
  limits := rfl
  functions := rfl
  leaf _ ht _ haction := leafOperand_on h (Formula.mem_leaves ht haction)
  value _ ho := operandValue_on h.cells ho
  whole _ ho r hr := readWhole_on h.cells (ho r hr)
  call _ _ _ _ := rfl
  kept _ ht _ _ hmade hoperands := hs.within ht hmade hoperands

/-- **Cells outside the set do not matter.** -/
theorem evaluate_on (h : m.source.Agree source f s) (hs : m.Covers s f) :
    (m.on source).evaluate f = m.evaluate f :=
  (agree_on h hs).evaluate_eq

/-! ### The two sets -/

theorem within_of_subset {ref : Reference} (href : ref ∈ f.references)
    (h : ∀ r ∈ m.referencedRanges f, r.cells ⊆ s) : (m.referenceOperand ref).Within s :=
  fun r hr => ⟨normal_of_mem_rangeList hr, h r (List.mem_flatMap.mpr ⟨ref, href, hr⟩)⟩

theorem covers_referencedCells (h : .operator .range ∉ f) : m.Covers (m.referencedCells f) f where
  reference _ href := within_of_subset href fun _ => cells_subset_referencedCells
  hull hrange := absurd hrange h

theorem covers_boundedCells : m.Covers (m.boundedCells f) f where
  reference _ href := within_of_subset href fun _ => cells_subset_boundedCells
  hull _ := hullClosed_boundedCells

end

/-- **An evaluation reads only what the formula refers to.** Let two sources agree on the sheets and
the names that the formula mentions. They give the same outcome if they agree on the cells of its
references and it has no range operator. With range operators they do if they agree, sheet by sheet,
on the smallest range around its references. -/
theorem evaluate_on_referenced (m : Machine) (source : CellSource) (f : Formula)
    (hsheets : ∀ link ∈ f.links,
      m.source.hasSheet (.external link) = source.hasSheet (.external link))
    (hnames : ∀ n ∈ f.names, m.source.name n = source.name n) :
    (.operator .range ∉ f → m.source.SameCells source (m.referencedCells f) →
        (m.on source).evaluate f = m.evaluate f) ∧
      (m.source.SameCells source (m.boundedCells f) →
        (m.on source).evaluate f = m.evaluate f) :=
  ⟨fun hrange hcells => evaluate_on ⟨hcells, hsheets, hnames⟩ (covers_referencedCells hrange),
    fun hcells => evaluate_on ⟨hcells, hsheets, hnames⟩ covers_boundedCells⟩

/-- Two sources that differ in almost all cells, sheets and names. The first formula joins a cell of
another sheet, a cell of a row and a name. The second one reads a cell between its references. -/
theorem evaluate_on_referenced_between :
    let cells (far : String) : SheetRef → Nat → Nat → Value := fun _ row col =>
      if row ≤ 1 ∧ col ≤ 2 then .text "near" else .text far
    let m : Machine := ⟨⟨cells "away", CellSource.readArea (cells "away"), fun _ => .boolean true,
      fun _ => true⟩, ⟨0, 1, false⟩, .standard, .builtin⟩
    let source : CellSource := ⟨cells "far", CellSource.readArea (cells "far"),
      fun n => if n = .defined 1 then .boolean true else .blank, fun sheet => sheet = .external 4⟩
    let f : Formula := [.reference (.sheetCell 4 (.relative 1 1)) .value,
      .reference (.area ⟨.relative 1 2, .relative 1 0⟩) .value, .operator .concat,
      .name (.defined 1) .value, .operator .concat]
    let g : Formula := [.reference (.cell (.relative 0 0)) .reference,
      .reference (.cell (.relative 1 2)) .reference, .operator .range]
    (m.evaluate f = .ok (.text "nearnearTRUE") ∧
        (m.on source).evaluate f = .ok (.text "nearnearTRUE")) ∧
      ((SheetRef.current, 0, 1) ∉ m.referencedCells g ∧
        m.evaluate g = .ok (.text "near") ∧ (m.on source).evaluate g = .ok (.text "near")) := by
  intro cells m source f g
  have hf : m.referencedRanges f = [⟨.external 4, 1, 1, 1, 1⟩, ⟨.current, 1, 0, 1, 2⟩] := rfl
  have hg : m.referencedRanges g = [⟨.current, 0, 0, 0, 0⟩, ⟨.current, 1, 2, 1, 2⟩] := rfl
  have hnear {s : Set CellKey} (h : ∀ sheet row col, (sheet, row, col) ∈ s → row ≤ 1 ∧ col ≤ 2) :
      m.source.SameCells source s := by
    refine ⟨rfl, rfl, fun sheet row col hkey => ?_⟩
    have hplace := h sheet row col hkey
    exact (if_pos hplace).trans (if_pos hplace).symm
  have hcellsF : m.source.SameCells source (m.referencedCells f) := by
    refine hnear fun sheet row col ⟨r, hr, hkey⟩ => ?_
    simp only [hf, List.mem_cons, List.not_mem_nil, or_false] at hr
    rcases hr with rfl | rfl
    · simp only [Range.mem_cells] at hkey
      omega
    · simp only [Range.mem_cells] at hkey
      omega
  have hcellsG : m.source.SameCells source (m.boundedCells g) := by
    refine hnear fun sheet row col ⟨hull, hhull, hkey⟩ => ?_
    rw [hg] at hhull
    by_cases hsheet : .current = sheet
    · subst hsheet
      cases hhull
      simp only [Range.mem_cells] at hkey
      omega
    · simp [hsheet, Range.hull?] at hhull
  have hbetween : (SheetRef.current, 0, 1) ∉ m.referencedCells g := by
    rintro ⟨r, hr, hkey⟩
    simp only [hg, List.mem_cons, List.not_mem_nil, or_false] at hr
    rcases hr with rfl | rfl
    · simp [Range.mem_cells] at hkey
    · simp [Range.mem_cells] at hkey
  have hvalueF : m.evaluate f = .ok (.text "nearnearTRUE") := by rfl
  have hvalueG : m.evaluate g = .ok (.text "near") := by rfl
  have hsheetsF : ∀ link ∈ f.links,
      m.source.hasSheet (.external link) = source.hasSheet (.external link) :=
    List.forall_mem_singleton.mpr rfl
  have hsheetsG : ∀ link ∈ g.links,
      m.source.hasSheet (.external link) = source.hasSheet (.external link) :=
    fun link hlink => absurd hlink List.not_mem_nil
  have hnamesF : ∀ n ∈ f.names, m.source.name n = source.name n :=
    List.forall_mem_singleton.mpr rfl
  have hnamesG : ∀ n ∈ g.names, m.source.name n = source.name n :=
    fun n hn => absurd hn List.not_mem_nil
  have hsameF := (evaluate_on_referenced m source f hsheetsF hnamesF).1 (by decide) hcellsF
  have hsameG := (evaluate_on_referenced m source g hsheetsG hnamesG).2 hcellsG
  exact ⟨⟨hvalueF, hsameF.trans hvalueF⟩, hbetween, hvalueG, hsameG.trans hvalueG⟩

end Machine

end CellFormula
