import CellFormula.Proofs.ArrayFormula
import CellFormula.Proofs.CountedNumbers
import CellFormula.Proofs.FunctionTable
import CellFormula.Proofs.Selection

/-!
# Areas cut in two

The functions that sum up their arguments do not see where one area ends and the next one begins.
An area may be cut below any of its rows, and the two parts passed in its place: every sum, mean,
extreme, count and truth value stays the same, bit for bit, and so does the error if there is one.

## Why a cut does not show

Such a function gathers a list from its arguments, one after the other and area by area in the order
of the cells, and looks at nothing else. The cells of an area are the cells of its first rows
followed by those of the others (`Block.CutAt.values_eq`), so the same list is gathered. Floating
point does not enter: no sum is split and put together again.

## What formulas need

In a formula the parts are two references, or the union of two. There the stack has to hold one more
entry than before, and a formula that is at the limit of the stack has no value once its range is
cut (`Machine.cut_overflows`). So room on the stack is a hypothesis, as are the limits on cells and
arguments.

## Main definitions

* `Matrix.firstRows`, `Matrix.rowsFrom`, `Block.CutAt` — the parts
* `IgnoresCuts` — a function of arguments that does not see them
* `Worksheet.aggregates` — the functions that sum up their arguments
* `CutCall` — a call before and after the cut

## Main results

* `ignoresCuts_gathered` — what is gathered cell by cell
* `Machine.ignoresCuts_callValue` — the value of a call
* `Worksheet.aggregates_ignore_cuts` — bodies and formulas
-/

namespace CellFormula

open Worksheet (Builtin FunctionInfo)

/-! ### Parts -/

namespace Matrix

variable {α : Type}

/-- The first rows. -/
def firstRows (k : Nat) (m : Matrix α) : Matrix α := ⟨k, m.cols, m.cells.take (k * m.cols)⟩

/-- The rows that come after the first ones. -/
def rowsFrom (k : Nat) (m : Matrix α) : Matrix α :=
  ⟨m.rows - k, m.cols, m.cells.drop (k * m.cols)⟩

theorem firstRows_tabulate {k rows cols : Nat} (h : k ≤ rows) (f : Nat → Nat → α) :
    (tabulate rows cols f).firstRows k = tabulate k cols f := by
  have hsize : k * cols ≤ rows * cols := Nat.mul_le_mul_right cols h
  rw [firstRows, tabulate, tabulate, mk.injEq]
  refine ⟨rfl, rfl, Array.ext ?_ fun i hi hi' => ?_⟩
  · simp [hsize]
  · simp

theorem rowsFrom_tabulate {k rows cols : Nat} (f : Nat → Nat → α) :
    (tabulate rows cols f).rowsFrom k = tabulate (rows - k) cols fun r c => f (k + r) c := by
  rw [rowsFrom, tabulate, tabulate, mk.injEq]
  refine ⟨rfl, rfl, Array.ext ?_ fun i hi hi' => ?_⟩
  · simp [Nat.sub_mul]
  · rw [Array.size_ofFn] at hi'
    have hcols : 0 < cols := Nat.pos_of_mul_pos_left (Nat.zero_lt_of_lt hi')
    simp [Nat.mul_comm k, Nat.mul_add_div hcols]

end Matrix

/-- The block is cut into its first rows and its other rows, wherever those are put. -/
structure Block.CutAt {α : Type} (whole : Block α) (k : Nat) (top bottom : Block α) : Prop where
  top : top.cells = whole.cells.firstRows k
  bottom : bottom.cells = whole.cells.rowsFrom k

/-- **The cells of a block are those of its parts**, one after the other. -/
theorem Block.CutAt.values_eq {α : Type} {whole top bottom : Block α} {k : Nat}
    (h : whole.CutAt k top bottom) : whole.values = top.values ++ bottom.values := by
  rw [values, values, values, h.top, h.bottom, Matrix.firstRows, Matrix.rowsFrom,
    Array.take_eq_extract, Array.drop_eq_extract, ← Array.toList_append,
    Array.extract_append_extract, Nat.zero_min,
    Array.extract_eq_self_of_le (Nat.le_max_right ..)]

/-! ### Functions that do not see a cut -/

/-- The function has the same value when an area among its arguments is cut in two. -/
def IgnoresCuts {γ : Type} (f : List Value → γ) : Prop :=
  ∀ (before after : List Value) (whole top bottom : Area),
    whole.values = top.values ++ bottom.values →
      f (before ++ .area top :: .area bottom :: after) = f (before ++ .area whole :: after)

theorem IgnoresCuts.comp {γ δ : Type} {f : List Value → γ} (h : IgnoresCuts f) (F : γ → δ) :
    IgnoresCuts fun args => F (f args) :=
  fun before after whole top bottom hvalues =>
    congrArg F (h before after whole top bottom hvalues)

section Gathered

variable {α : Type}

/-- Cells that are looked at one after the other can be looked at in two parts. -/
theorem filterMapM_append (f : Value → Except ErrorKind (Option α)) (as bs : List Value) :
    (as ++ bs).filterMapM f = do return (← as.filterMapM f) ++ (← bs.filterMapM f) := by
  induction as with
  | nil => simp
  | cons a as ih =>
    rw [List.cons_append, List.filterMapM_cons, List.filterMapM_cons, ih]
    cases f a with
    | error kind => rfl
    | ok cell =>
      cases cell with
      | none => rfl
      | some b => cases as.filterMapM f <;> cases bs.filterMapM f <;> rfl

/-- **What is gathered cell by cell** does not show a cut. -/
theorem ignoresCuts_gathered {g : Value → Except ErrorKind (List α)}
    {f : Value → Except ErrorKind (Option α)}
    (harea : ∀ block, g (.area block) = block.values.filterMapM f) : IgnoresCuts (gathered g) := by
  intro before after whole top bottom hvalues
  rw [gathered_append, gathered_append, gathered_cons, gathered_cons, gathered_cons, harea, harea,
    harea, hvalues, filterMapM_append]
  simp

end Gathered

theorem ignoresCuts_countOf {count : Value → Nat} {p : Value → Bool}
    (harea : ∀ block, count (.area block) = block.values.countP p) :
    IgnoresCuts (Worksheet.countOf count) := by
  intro before after whole top bottom hvalues
  simp only [Worksheet.countOf, List.map_append, List.map_cons, List.foldr_append, List.foldr_cons,
    harea, hvalues, List.countP_append, Nat.add_assoc]

/-- The first error that is an argument of its own does not lie in an area. -/
theorem ignoresCuts_findSome?_error : IgnoresCuts (List.findSome? Value.error?) := by
  intro before after whole top bottom _
  simp only [List.findSome?_append, List.findSome?_cons]
  rfl

namespace Worksheet

/-- The functions that sum up their arguments. -/
def aggregates : List Builtin :=
  [plainBuiltin "SUM" sum, plainBuiltin "AVERAGE" average, plainBuiltin "MIN" minimum,
   plainBuiltin "MAX" maximum, plainBuiltin "PRODUCT" product,
   inspectingBuiltin "COUNT" countNumbers, inspectingBuiltin "COUNTA" countValues,
   plainBuiltin "AND" allTrue, plainBuiltin "OR" anyTrue]

theorem aggregates_subset : aggregates ⊆ builtins := by
  simp only [aggregates, builtins, List.cons_subset, List.mem_cons, true_or, or_true,
    List.nil_subset, and_self]

theorem ignoresCuts_numbersOf : IgnoresCuts numbersOf :=
  ignoresCuts_gathered fun _ => rfl

theorem ignoresCuts_truthsOf : IgnoresCuts truthsOf :=
  ignoresCuts_gathered fun _ => rfl

/-- **No function that sums up sees a cut.** -/
theorem ignoresCuts_body {b : Builtin} (hb : b ∈ aggregates) (place : Place) :
    IgnoresCuts (b.body place) := by
  have haggregate (f) : IgnoresCuts (aggregate f) :=
    ignoresCuts_numbersOf.comp fun xs => Value.ofResult (xs >>= f)
  have htruths (f) : IgnoresCuts (aggregateTruths f) := by
    intro before after whole top bottom hvalues
    rw [aggregateTruths, aggregateTruths, ignoresCuts_truthsOf _ _ _ _ _ hvalues]
  simp only [aggregates, List.mem_cons, List.not_mem_nil, or_false] at hb
  obtain rfl | rfl | rfl | rfl | rfl | rfl | rfl | rfl | rfl := hb
  · exact haggregate _
  · exact haggregate _
  · exact haggregate _
  · exact haggregate _
  · exact haggregate _
  · exact ignoresCuts_countOf fun _ => rfl
  · exact ignoresCuts_countOf fun _ => rfl
  · exact htruths _
  · exact htruths _

end Worksheet

/-! ### Ranges -/

namespace Range

/-- The first rows. -/
def firstRows (k : Nat) (r : Range) : Range := { r with lastRow := r.firstRow + k - 1 }

/-- The rows that come after the first ones. -/
def rowsFrom (k : Nat) (r : Range) : Range := { r with firstRow := r.firstRow + k }

variable {k : Nat} {r : Range}

theorem rows_firstRows (hk : 1 ≤ k) : (r.firstRows k).rows = k := by
  simp only [rows, firstRows]
  omega

theorem rows_rowsFrom (hk : k < r.rows) : (r.rowsFrom k).rows = r.rows - k := by
  simp only [rows, rowsFrom] at hk ⊢
  omega

/-- A range with no more rows and the same columns has no more cells. -/
theorem cellCount_le {a : Range} (hrows : a.rows ≤ r.rows) (hcols : a.cols = r.cols) :
    a.cellCount ≤ r.cellCount := by
  have hcells : a.rows * a.cols ≤ r.rows * r.cols := hcols ▸ Nat.mul_le_mul_right _ hrows
  rw [cellCount, cellCount]
  omega

theorem cellCount_firstRows_le (hpos : 1 ≤ k) (hk : k ≤ r.rows) :
    (r.firstRows k).cellCount ≤ r.cellCount :=
  cellCount_le (by rwa [rows_firstRows hpos]) rfl

theorem cellCount_rowsFrom_le (hk : k < r.rows) : (r.rowsFrom k).cellCount ≤ r.cellCount :=
  cellCount_le (by rw [rows_rowsFrom hk]; exact Nat.sub_le ..) rfl

end Range

namespace Machine

variable {m : Machine}

/-- **A range that is cut** is read as an area that is cut. -/
theorem cutAt_cellBlock (m : Machine) {r : Range} {k : Nat} (hpos : 1 ≤ k) (hk : k < r.rows) :
    (m.cellBlock r).CutAt k (m.cellBlock (r.firstRows k)) (m.cellBlock (r.rowsFrom k)) where
  top := by
    have hrows : (r.firstRows k).rows = k := Range.rows_firstRows hpos
    rw [cellBlock, cellBlock, hrows, Matrix.firstRows_tabulate (Nat.le_of_lt hk)]
    rfl
  bottom := by
    have hrows : (r.rowsFrom k).rows = r.rows - k := Range.rows_rowsFrom hk
    rw [cellBlock, cellBlock, hrows, Matrix.rowsFrom_tabulate]
    simp only [Range.rowsFrom, Nat.add_assoc]
    rfl

end Machine

/-! ### Calls -/

namespace Worksheet

/-- What the catalogue says of the functions that sum up their arguments. -/
structure FunctionInfo.IsAggregate (info : FunctionInfo) : Prop where
  least : info.minArguments ≤ 1
  most : info.maxArguments = Worksheet.maxArguments
  classes : info.parameterClasses = [.reference]
  named : info.index ≠ userIndex

instance (info : FunctionInfo) : Decidable info.IsAggregate :=
  decidable_of_iff (info.minArguments ≤ 1 ∧ info.maxArguments = Worksheet.maxArguments ∧
      info.parameterClasses = [.reference] ∧ info.index ≠ userIndex)
    ⟨fun ⟨h₁, h₂, h₃, h₄⟩ => ⟨h₁, h₂, h₃, h₄⟩, fun ⟨h₁, h₂, h₃, h₄⟩ => ⟨h₁, h₂, h₃, h₄⟩⟩

theorem isAggregate_of_mem {b : Builtin} (hb : b ∈ aggregates) {info : FunctionInfo}
    (hinfo : functionNamed? b.name = some info) : info.IsAggregate := by
  have hall : ∀ b ∈ aggregates, ∀ info ∈ functionNamed? b.name, info.IsAggregate := by
    decide +kernel
  exact hall b hb info hinfo

end Worksheet

namespace Machine

variable {m : Machine}

/-- A function that takes references reads all its arguments whole. -/
theorem arguments_of_reference {info : FunctionInfo}
    (hclasses : info.parameterClasses = [.reference]) (operands : List Operand) :
    m.arguments info operands = operands.flatMap m.wholeValues := by
  have hwhole (position : Nat) : info.parameterClass (position + 0) ≠ .value := by
    cases position <;> simp [FunctionInfo.parameterClass, hclasses]
  exact flatten_argumentValues hwhole operands

/-- **The value of a call** does not show a cut. -/
theorem ignoresCuts_callValue {b : Builtin} (hb : b ∈ Worksheet.aggregates) (info : FunctionInfo) :
    IgnoresCuts (m.callValue info b.implementation) := by
  intro before after whole top bottom hvalues
  have hbody := Worksheet.ignoresCuts_body hb m.place before after whole top bottom hvalues
  have herror := ignoresCuts_findSome?_error before after whole top bottom hvalues
  rw [callValue, callValue, herror, Builtin.compute_implementation, Builtin.compute_implementation,
    hbody]

end Machine

/-! ### Formulas -/

/-- A call with a range among its arguments, and with the two parts of the range instead. -/
structure CutCall where
  /-- The arguments before the range. -/
  before : List Formula
  /-- The arguments after the range. -/
  after : List Formula
  whole : Formula
  top : Formula
  bottom : Formula
  /-- The call when the range is one argument. -/
  call : Token
  /-- The call when the parts are two arguments. -/
  longerCall : Token
  union : Token
  /-- Parentheses around the union. -/
  closing : Formula

namespace CutCall

/-- The call with the range. -/
def uncut (c : CutCall) : Formula := (c.before ++ c.whole :: c.after).flatten ++ [c.call]

/-- The call with the parts as two arguments. -/
def cut (c : CutCall) : Formula :=
  (c.before ++ c.top :: c.bottom :: c.after).flatten ++ [c.longerCall]

/-- The union of the parts. -/
def parts (c : CutCall) : Formula := c.top ++ c.bottom ++ [c.union] ++ c.closing

/-- The call with the union of the parts. -/
def joined (c : CutCall) : Formula := (c.before ++ c.parts :: c.after).flatten ++ [c.call]

/-- The call is one of this function, with this range cut below a row. -/
structure Cuts (c : CutCall) (m : Machine) (info : FunctionInfo) (r : Range) (k : Nat) : Prop where
  others : ∀ f ∈ c.before ++ c.after, ∃ o, m.Pushes f o
  whole : m.Pushes c.whole (.range r)
  top : m.Pushes c.top (.range (r.firstRows k))
  bottom : m.Pushes c.bottom (.range (r.rowsFrom k))
  call : c.call.action = .call info (c.before.length + c.after.length + 1)
  longerCall : c.longerCall.action = .call info (c.before.length + c.after.length + 2)
  union : c.union.action = .combine .union
  closing : ∀ t ∈ c.closing, t.action = .enclose

end CutCall

namespace Machine

variable {m : Machine}

/-- Parentheses change nothing. -/
theorem Pushes.enclosed {f closing : Formula} {o : Operand} (h : m.Pushes f o)
    (hclosing : ∀ t ∈ closing, t.action = .enclose) : m.Pushes (f ++ closing) o := by
  induction closing generalizing f with
  | nil => rwa [List.append_nil]
  | cons t closing ih =>
    obtain ⟨ht, hrest⟩ := List.forall_mem_cons.mp hclosing
    have hone : m.Pushes (f ++ [t]) o := h.append_pass fun index stack => by rw [step, ht]
    simpa using ih hone hrest

theorem pushes_union {top bottom : Formula} {rs rs' : List Range} (htop : m.Pushes top (.ranges rs))
    (hbottom : m.Pushes bottom (.ranges rs')) {t : Token} (ht : t.action = .combine .union) :
    m.Pushes (top ++ bottom ++ [t]) (.ranges (rs ++ rs')) := by
  have hparts : List.Forall₂ m.Pushes [top, bottom] [.ranges rs, .ranges rs'] :=
    .cons htop (.cons hbottom .nil)
  have hunion : m.applyOperator .union [.ranges rs, .ranges rs'] = .ranges (rs ++ rs') := rfl
  simpa [hunion] using pushes_combine hparts ht rfl

/-- A call of a built-in function that sums up its arguments. -/
theorem pushes_aggregate (hfunctions : m.functions = .builtin) {b : Builtin}
    (hb : b ∈ Worksheet.aggregates) {info : FunctionInfo}
    (hinfo : Worksheet.functionNamed? b.name = some info) {fs : List Formula} {os : List Operand}
    (h : List.Forall₂ m.Pushes fs os) (hpos : 1 ≤ fs.length)
    (hmost : fs.length ≤ Worksheet.maxArguments) {t : Token}
    (ht : t.action = .call info fs.length) :
    m.Pushes (fs.flatten ++ [t])
      (.value (m.callValue info b.implementation (os.flatMap m.wholeValues))) := by
  obtain ⟨hleast, hmax, hclasses, hnamed⟩ := Worksheet.isAggregate_of_mem hb hinfo
  have hfind : m.functions.find? info.index = some b.implementation := by
    rw [hfunctions]
    exact Worksheet.find?_builtin (Worksheet.aggregates_subset hb) (congrArg (Option.map _) hinfo)
  rw [h.length_eq] at hpos hmost ht
  have haccepts : info.accepts os.length = true := by
    simp only [FunctionInfo.accepts, hmax, Bool.and_eq_true, decide_eq_true_eq]
    omega
  refine pushes_call h ht ?_
  rw [applyFunction, haccepts, if_neg hnamed, hfind, arguments_of_reference hclasses]
  rfl

/-- **A call pushes the same value** for a range, for its parts, and for their union. -/
theorem exists_pushes_cutCall (hfunctions : m.functions = .builtin)
    (harea : m.source.area = CellSource.readArea m.source.cell) {b : Builtin}
    (hb : b ∈ Worksheet.aggregates) {info : FunctionInfo}
    (hinfo : Worksheet.functionNamed? b.name = some info) {r : Range} {k : Nat} (hpos : 1 ≤ k)
    (hk : k < r.rows) (hcells : r.cellCount ≤ m.limits.areaCells) {c : CutCall}
    (hc : c.Cuts m info r k)
    (hmost : c.before.length + c.after.length + 2 ≤ Worksheet.maxArguments) :
    ∃ v, m.Pushes c.uncut (.value v) ∧ m.Pushes c.cut (.value v) ∧
      m.Pushes c.joined (.value v) := by
  obtain ⟨before, hbefore⟩ := exists_forall₂ fun f hf => hc.others f (List.mem_append_left _ hf)
  obtain ⟨after, hafter⟩ := exists_forall₂ fun f hf => hc.others f (List.mem_append_right _ hf)
  -- As operands the calls have the range, its two parts, or the union of these.
  have hcall {fs : List Formula} {os : List Operand} (h : List.Forall₂ m.Pushes fs os)
      (hone : 1 ≤ fs.length) (htwo : fs.length ≤ 2) {t : Token}
      (ht : t.action = .call info (c.before.length + c.after.length + fs.length)) :
      m.Pushes ((c.before ++ (fs ++ c.after)).flatten ++ [t]) (.value (m.callValue info
        b.implementation ((before ++ (os ++ after)).flatMap m.wholeValues))) := by
    have hlength : (c.before ++ (fs ++ c.after)).length
        = c.before.length + c.after.length + fs.length := by
      simp only [List.length_append]
      omega
    have hall : List.Forall₂ m.Pushes (c.before ++ (fs ++ c.after)) (before ++ (os ++ after)) :=
      List.rel_append hbefore (List.rel_append h hafter)
    exact pushes_aggregate hfunctions hb hinfo hall (by omega) (by omega) (hlength ▸ ht)
  have htop := Nat.le_trans (Range.cellCount_firstRows_le hpos (Nat.le_of_lt hk)) hcells
  have hbottom := Nat.le_trans (Range.cellCount_rowsFrom_le hk) hcells
  have hvalue := ignoresCuts_callValue (m := m) hb info (before.flatMap m.wholeValues)
    (after.flatMap m.wholeValues) _ _ _ (m.cutAt_cellBlock hpos hk).values_eq
  have hparts : m.Pushes c.parts (.ranges [r.firstRows k, r.rowsFrom k]) :=
    (pushes_union hc.top hc.bottom hc.union).enclosed hc.closing
  have huncut := hcall (.cons hc.whole .nil) (by simp) (by simp) hc.call
  have hcut := hcall (.cons hc.top (.cons hc.bottom .nil)) (by simp) (by simp) hc.longerCall
  have hjoined := hcall (.cons hparts .nil) (by simp) (by simp) hc.call
  simp only [List.flatMap_append, List.flatMap_cons, wholeValues, Operand.range,
    List.map_cons, List.map_nil, readWhole_eq_area harea hcells, readWhole_eq_area harea htop,
    readWhole_eq_area harea hbottom, List.cons_append, List.nil_append,
    hvalue] at huncut hcut hjoined
  exact ⟨_, huncut, hcut, hjoined⟩

end Machine

namespace Worksheet

/-- **No function that sums up its arguments sees how a range is cut.** Its body has one value for
an area and for the parts of the area. In formulas, where areas are read cell by cell and the range
is within the limit on cells, the call has one value for the range, for its parts as two arguments,
if there may be so many, and for the union of the parts, whenever the stack has room. -/
theorem aggregates_ignore_cuts {b : Builtin} (hb : b ∈ aggregates) :
    (∀ (place : Place) (before after : List Value) (whole top bottom : Area) (k : Nat),
      whole.CutAt k top bottom →
        b.body place (before ++ .area top :: .area bottom :: after)
          = b.body place (before ++ .area whole :: after)) ∧
    ∀ (m : Machine) (info : FunctionInfo) (r : Range) (k : Nat) (c : CutCall),
      m.functions = .builtin → m.source.area = CellSource.readArea m.source.cell →
      functionNamed? b.name = some info → 1 ≤ k → k < r.rows → r.cellCount ≤ m.limits.areaCells →
      c.Cuts m info r k → c.before.length + c.after.length + 2 ≤ maxArguments →
        ∃ v, ∀ f ∈ [c.uncut, c.cut, c.joined],
          f.peak 0 ≤ m.limits.stackDepth → m.evaluate f = .ok v := by
  refine ⟨fun place before after whole top bottom k hcut => ?_, ?_⟩
  · exact ignoresCuts_body hb place before after whole top bottom hcut.values_eq
  · intro m info r k c hfunctions harea hinfo hpos hk hcells hc hmost
    obtain ⟨v, huncut, hcut, hjoined⟩ :=
      Machine.exists_pushes_cutCall hfunctions harea hb hinfo hpos hk hcells hc hmost
    refine ⟨m.result (.value v), ?_⟩
    simp only [List.forall_mem_cons]
    exact ⟨huncut.evaluate, hcut.evaluate, hjoined.evaluate, nofun⟩

/-- The catalogue's entry for `SUM`. -/
def sumInfo : FunctionInfo := ⟨4, "SUM", 0, maxArguments, .value, [.reference], false⟩

end Worksheet

/-- The sum of two cells, one below the other, cut between them. -/
def CutCall.sumOfTwo : CutCall where
  before := []
  after := []
  whole := [.reference (.area ⟨.relative 0 0, .relative 1 0⟩) .reference]
  top := [.reference (.cell (.relative 0 0)) .reference]
  bottom := [.reference (.cell (.relative 1 0)) .reference]
  call := .call (.counted 4 1 false false) .value
  longerCall := .call (.counted 4 2 false false) .value
  union := .operator .union
  closing := [.paren]

theorem CutCall.cuts_sumOfTwo (m : Machine) :
    sumOfTwo.Cuts m Worksheet.sumInfo ⟨.current, 0, 0, 1, 0⟩ 1 := by
  have hwhole : m.leafOperand (.reference (.area ⟨.relative 0 0, .relative 1 0⟩))
      = .range ⟨.current, 0, 0, 1, 0⟩ := rfl
  have hfirst : m.leafOperand (.reference (.cell (.relative 0 0)))
      = .range ⟨.current, 0, 0, 0, 0⟩ := rfl
  have hsecond : m.leafOperand (.reference (.cell (.relative 1 0)))
      = .range ⟨.current, 1, 0, 1, 0⟩ := rfl
  exact {
    others := fun _ hf => absurd hf List.not_mem_nil
    whole := hwhole ▸ Machine.pushes_leaf rfl
    top := hfirst ▸ Machine.pushes_leaf rfl
    bottom := hsecond ▸ Machine.pushes_leaf rfl
    call := rfl
    longerCall := rfl
    union := rfl
    closing := List.forall_mem_singleton.mpr rfl }

theorem Worksheet.sum_ignores_cut :
    let m : Machine := .over (.ofCells fun _ _ _ => .number 1.0)
    let c := CutCall.sumOfTwo
    plainBuiltin "SUM" sum ∈ aggregates ∧ m.functions = .builtin ∧
      ∃ v, m.evaluate c.uncut = .ok v ∧ m.evaluate c.cut = .ok v ∧ m.evaluate c.joined = .ok v := by
  intro m c
  have hb : plainBuiltin "SUM" sum ∈ aggregates := List.mem_cons_self
  have hfunctions : m.functions = .builtin := rfl
  have hinfo : functionNamed? (plainBuiltin "SUM" sum).name = some sumInfo := by decide +kernel
  obtain ⟨v, hv⟩ := (aggregates_ignore_cuts hb).2 m sumInfo ⟨.current, 0, 0, 1, 0⟩ 1 c hfunctions
    rfl hinfo (by decide) (by decide) (by decide) (CutCall.cuts_sumOfTwo m) (by decide)
  simp only [List.forall_mem_cons] at hv
  obtain ⟨huncut, hcut, hjoined, -⟩ := hv
  exact ⟨hb, hfunctions, v, huncut (by decide), hcut (by decide), hjoined (by decide)⟩

/-- **Room on the stack is needed.** With room for a single entry the sum of a range has a value and
the sum of its parts has none. -/
theorem Machine.cut_overflows :
    let m : Machine := { Machine.over (.ofCells fun _ _ _ => .number 1.0) with
      limits := { Limits.standard with stackDepth := 1 } }
    let c := CutCall.sumOfTwo
    c.Cuts m Worksheet.sumInfo ⟨.current, 0, 0, 1, 0⟩ 1 ∧ m.functions = .builtin ∧
      (∃ v, m.evaluate c.uncut = .ok v) ∧ m.evaluate c.cut = .error (.overflow 1 1) := by
  intro m c
  have hcuts := CutCall.cuts_sumOfTwo m
  have hfunctions : m.functions = .builtin := rfl
  have hinfo : Worksheet.functionNamed? "SUM" = some Worksheet.sumInfo := by decide +kernel
  have hvalue := pushes_aggregate hfunctions List.mem_cons_self hinfo (.cons hcuts.whole .nil)
    (by decide) (by decide) hcuts.call
  exact ⟨hcuts, hfunctions, ⟨_, hvalue.evaluate (by decide)⟩, rfl⟩

end CellFormula
