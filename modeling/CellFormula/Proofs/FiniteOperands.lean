import CellFormula.Proofs.AreaShapes
import CellFormula.Proofs.CountedNumbers
import CellFormula.Proofs.OverflowBound
import CellFormula.Proofs.ResultValues
import CellFormula.Proofs.WrittenToken

/-!
# Which operands are finite

A value that is no text is read as a finite number if it has one inside. A text is read as the
double nearest to what it spells, and that is infinite from `Number.overflowBound` on. So operators
and functions compute on finite numbers as long as no text overflows, and the one infinite operand
is a text that does: `Value.text_overflows` divides by such a text and gets a zero.

## What it means to compute on finite numbers

The functions that operators, worksheet functions and aggregates apply to numbers are exchanged for
other ones that give the same on finite numbers and may give anything else. The values stay the
same. Matrix functions go through matrices of numbers, and these have finite cells.

## Main definitions

* `Value.SpellsOverflow` — a text that spells a number past the largest double
* `Value.IsTame` — neither an infinite number nor such a text

## Main results

* `Value.isFinite_iff_of_toNumber` — which numbers are finite
* `Worksheet.liftNumber_congr`, `Worksheet.liftNumber2_congr`, `Worksheet.aggregate_congr`,
  `Operator.compute_arithmetic_congr` — what is computed on finite numbers
-/

namespace CellFormula

open Number

/-! ### Coercion -/

namespace Value

/-- The value is a text that spells a number past the largest double. -/
def SpellsOverflow : Value → Prop
  | text s => ∃ n percent, NumberText n percent s.toList ∧ overflowBound ≤ n.magnitude.value
  | _ => False

/-- The value is neither an infinite number nor a text that spells one. -/
structure IsTame (v : Value) : Prop where
  isFinite : v.IsFinite
  fits : ¬ v.SpellsOverflow

/-- What a text spells is finite if it is less than the bound, with a percent sign or without
one. -/
theorem isFinite_spelled_iff (n : Numeral) (percent : Bool) :
    (n.toFloat * percentFactor percent).isFinite = true ↔ n.magnitude.value < overflowBound := by
  rw [isFinite_mul_percentFactor, n.isFinite_toFloat_iff]

/-- **A number that is read from a value is finite** unless the value is a text that overflows. -/
theorem isFinite_iff_of_toNumber {v : Value} {x : Float} (hv : v.IsFinite)
    (h : v.toNumber = .ok x) : x.isFinite = true ↔ ¬ v.SpellsOverflow := by
  cases v with
  | number y =>
    cases h
    exact iff_of_true hv id
  | boolean b =>
    cases h
    refine iff_of_true ?_ id
    cases b <;> rfl
  | blank | missing =>
    cases h
    exact iff_of_true rfl id
  | error kind | area block => cases h
  | text s =>
    have hread : numberOfText? s = some x := toNumber_text_eq_ok.mp h
    obtain ⟨n, percent, htext, rfl⟩ := numberOfText?_eq_some_iff.mp hread
    constructor
    · rintro hfinite ⟨n', percent', htext', hover⟩
      -- A text spells one number only, so both numerals overflow or none.
      have hsame := hread.symm.trans (numberOfText?_eq_some_iff.mpr ⟨n', percent', htext', rfl⟩)
      rw [Option.some.inj hsame, isFinite_spelled_iff] at hfinite
      exact absurd hfinite (not_lt.mpr hover)
    · intro hfits
      rw [isFinite_spelled_iff]
      exact not_le.mp fun hover => hfits ⟨n, percent, htext, hover⟩

theorem IsTame.isFinite_of_toNumber {v : Value} (hv : v.IsTame) {x : Float}
    (h : v.toNumber = .ok x) : x.isFinite = true :=
  (isFinite_iff_of_toNumber hv.isFinite h).mpr hv.fits

/-- What is contributed has each property that the argument has throughout. -/
theorem Contributes.of_throughout {p : Value → Prop} {v e : Value} (h : v.Contributes e)
    (hv : v.Throughout p) : p e := by
  cases v with
  | area block => exact hv e (.cell h .self)
  | _ => exact hv e (h ▸ .self)

end Value

/-- All elements have each property that the arguments have throughout. -/
theorem forall_of_contributes {p : Value → Prop} {args elements : List Value}
    (helements : List.Forall₂ Value.Contributes args elements)
    (h : ∀ v ∈ args, v.Throughout p) : ∀ e ∈ elements, p e :=
  forall_of_forall₂ (fun _ _ he hv => he.of_throughout hv) helements h

/-! ### Functions of one number and of two -/

section

variable {α : Type} {v w : Value}

/-- A function of the number that a tame value is read as is applied to a finite number. -/
theorem Value.IsTame.bind_congr (hv : v.IsTame) {f g : Float → Except ErrorKind α}
    (h : ∀ x, x.isFinite = true → f x = g x) : v.toNumber >>= f = v.toNumber >>= g := by
  cases hx : v.toNumber with
  | error kind => rfl
  | ok x => exact h x (hv.isFinite_of_toNumber hx)

/-- A function of two such numbers is applied to finite numbers. -/
theorem Value.IsTame.bind_congr₂ (hv : v.IsTame) (hw : w.IsTame)
    {f g : Float → Float → Except ErrorKind α}
    (h : ∀ x y, x.isFinite = true → y.isFinite = true → f x y = g x y) :
    (do let x ← v.toNumber; let y ← w.toNumber; f x y)
      = (do let x ← v.toNumber; let y ← w.toNumber; g x y) :=
  hv.bind_congr fun x hx => hw.bind_congr fun y hy => h x y hx hy

end

/-- **Arithmetic operators compute on finite numbers** if their operands are tame. -/
theorem Operator.compute_arithmetic_congr {op : Operator} (hconcat : op ≠ .concat)
    (hcomparison : op.isComparison = false) {g : Float → Float → Except ErrorKind Float}
    (h : ∀ x y, x.isFinite = true → y.isFinite = true → op.arithmetic x y = g x y) {l r : Value}
    (hl : l.IsTame) (hr : r.IsTame) :
    op.compute [l, r] = .ofResult (do let x ← l.toNumber; let y ← r.toNumber; g x y) := by
  rw [compute, computeBinary, if_neg hconcat, if_neg (Bool.eq_false_iff.mp hcomparison),
    hl.bind_congr₂ hr h]

namespace Worksheet

variable {args : List Value}

/-- **Functions of one number compute on finite numbers** if their arguments are tame. -/
theorem liftNumber_congr {f g : Float → Except ErrorKind Float}
    (h : ∀ x, x.isFinite = true → f x = g x) (hargs : ∀ v ∈ args, v.Throughout Value.IsTame) :
    liftNumber f args = liftNumber g args := by
  refine broadcast_congr_contributed fun elements helements => ?_
  have htame := forall_of_contributes helements hargs
  match elements with
  | [v] => exact congrArg Value.ofResult ((htame v (by simp)).bind_congr h)
  | [] | _ :: _ :: _ => rfl

/-- **Functions of two numbers compute on finite numbers** if their arguments are tame. -/
theorem liftNumber2_congr {f g : Float → Float → Except ErrorKind Float}
    (h : ∀ x y, x.isFinite = true → y.isFinite = true → f x y = g x y)
    (hargs : ∀ v ∈ args, v.Throughout Value.IsTame) : liftNumber2 f args = liftNumber2 g args := by
  refine broadcast_congr_contributed fun elements helements => ?_
  have htame := forall_of_contributes helements hargs
  match elements with
  | [v, w] =>
    exact congrArg Value.ofResult ((htame v (by simp)).bind_congr₂ (htame w (by simp)) h)
  | [] | [_] | _ :: _ :: _ :: _ => rfl

/-! ### Functions of many numbers -/

/-- The numbers among some cells are finite if the cells are. -/
theorem isFinite_of_filterMapM_cellNumber {vs : List Value} {xs : List Float}
    (hvs : ∀ v ∈ vs, v.IsFinite) (h : vs.filterMapM cellNumber = .ok xs) :
    ∀ x ∈ xs, x.isFinite = true := by
  induction vs generalizing xs with
  | nil =>
    cases h
    exact fun x hx => absurd hx List.not_mem_nil
  | cons v vs ih =>
    obtain ⟨hv, hrest⟩ := List.forall_mem_cons.mp hvs
    rw [List.filterMapM_cons] at h
    cases hxs : vs.filterMapM cellNumber with
    | error kind =>
      rw [hxs] at h
      cases v <;> cases h
    | ok rest =>
      rw [hxs] at h
      cases v with
      | error kind => cases h
      | number x =>
        cases h
        exact List.forall_mem_cons.mpr ⟨hv, ih hrest hxs⟩
      | _ =>
        cases h
        exact ih hrest hxs

theorem isFinite_of_numbersOfArgument {v : Value} (hv : v.Throughout Value.IsTame)
    {xs : List Float} (h : numbersOfArgument v = .ok xs) : ∀ x ∈ xs, x.isFinite = true := by
  obtain ⟨block, rfl⟩ | hplain := v.exists_eq_area_or_not_isArea
  · exact isFinite_of_filterMapM_cellNumber (fun u hu => (hv u (.cell hu .self)).isFinite) h
  · have hread : numbersOfArgument v = do return [← v.toNumber] := by
      cases v with
      | area block => exact absurd trivial hplain
      | _ => rfl
    rw [hread] at h
    obtain ⟨x, hx, hxs⟩ := except_bind_eq_ok.mp h
    cases hxs
    exact List.forall_mem_singleton.mpr ((hv v .self).isFinite_of_toNumber hx)

/-- The numbers that tame arguments contribute are finite. -/
theorem isFinite_of_numbersOf (hargs : ∀ v ∈ args, v.Throughout Value.IsTame) {xs : List Float}
    (h : numbersOf args = .ok xs) : ∀ x ∈ xs, x.isFinite = true := by
  induction args generalizing xs with
  | nil =>
    cases h
    exact fun x hx => absurd hx List.not_mem_nil
  | cons v args ih =>
    obtain ⟨hv, hothers⟩ := List.forall_mem_cons.mp hargs
    obtain ⟨first, others, hfirst, hrest, rfl⟩ := exists_of_gathered_cons h
    exact List.forall_mem_append.mpr
      ⟨isFinite_of_numbersOfArgument hv hfirst, ih hothers hrest⟩

/-- **Aggregates compute on finite numbers** if their arguments are tame. -/
theorem aggregate_congr {f g : List Float → Except ErrorKind Float}
    (h : ∀ xs, (∀ x ∈ xs, x.isFinite = true) → f xs = g xs)
    (hargs : ∀ v ∈ args, v.Throughout Value.IsTame) : aggregate f args = aggregate g args := by
  rw [aggregate, aggregate]
  cases hxs : numbersOf args with
  | error kind => rfl
  | ok xs => exact congrArg Value.ofResult (h xs (isFinite_of_numbersOf hargs hxs))

/-! ### Matrix functions -/

theorem isFinite_of_matrixEntry {v : Value} {x : Float} (h : matrixEntry v = .ok x)
    (hv : v.IsTame) : x.isFinite = true := by
  cases v with
  | number y =>
    cases h
    exact hv.isFinite
  | _ => cases h

/-- **Matrix functions compute on finite numbers** if their arguments are tame. -/
theorem isFinite_of_numericMatrix {v : Value} (hv : v.Throughout Value.IsTame) {m : Matrix Float}
    (h : numericMatrix v = .ok m) : ∀ x ∈ m.cells.toList, x.isFinite = true := by
  obtain ⟨block, rfl⟩ | hplain := v.exists_eq_area_or_not_isArea
  · rw [numericMatrix, Matrix.traverse_eq] at h
    obtain ⟨xs, hxs, rfl⟩ := except_map_eq_ok.mp h
    have hread : List.Forall₂ (fun u x => matrixEntry u = .ok x) block.values xs :=
      mapM_eq_ok.mp hxs
    have htame : ∀ u ∈ block.values, u.IsTame := fun u hu => hv u (.cell hu .self)
    refine forall_of_forall₂ (fun u x h hu => ?_) hread htame
    exact isFinite_of_matrixEntry h hu
  · rw [numericMatrix_of_not_isArea hplain] at h
    obtain ⟨x, hx, rfl⟩ := except_map_eq_ok.mp h
    exact List.forall_mem_singleton.mpr ((hv v .self).isFinite_of_toNumber hx)

end Worksheet

/-! ### Values whose texts do not overflow -/

open Worksheet

/-- **Coercion makes no infinity but that of a text that overflows.** A number that is read from a
value with finite numbers is finite, unless the value is a text that spells a number past the
largest double. So all that is computed on tame operands is computed on finite numbers: by
arithmetic operators, by functions applied cell by cell, by aggregates and by matrix functions. -/
theorem Value.coerced_finite_unless_overflow (v w : Value) (args : List Value) :
    (∀ x : Float, v.IsFinite → v.toNumber = .ok x → (x.isFinite = true ↔ ¬ v.SpellsOverflow)) ∧
      (v.IsTame → ∀ f g : Float → Except ErrorKind Value,
        (∀ x, x.isFinite = true → f x = g x) → v.toNumber >>= f = v.toNumber >>= g) ∧
      (v.IsTame → w.IsTame → ∀ op : Operator, op ≠ .concat → op.isComparison = false →
        ∀ g : Float → Float → Except ErrorKind Float,
        (∀ x y, x.isFinite = true → y.isFinite = true → op.arithmetic x y = g x y) →
        op.compute [v, w] = .ofResult (do let x ← v.toNumber; let y ← w.toNumber; g x y)) ∧
      ((∀ u ∈ args, u.Throughout IsTame) →
        (∀ f g : Float → Except ErrorKind Float, (∀ x, x.isFinite = true → f x = g x) →
          liftNumber f args = liftNumber g args) ∧
        (∀ f g : Float → Float → Except ErrorKind Float,
          (∀ x y, x.isFinite = true → y.isFinite = true → f x y = g x y) →
          liftNumber2 f args = liftNumber2 g args) ∧
        (∀ f g : List Float → Except ErrorKind Float,
          (∀ xs, (∀ x ∈ xs, x.isFinite = true) → f xs = g xs) →
          aggregate f args = aggregate g args) ∧
        ∀ u ∈ args, ∀ m, numericMatrix u = .ok m → ∀ x ∈ m.cells.toList, x.isFinite = true) := by
  refine ⟨fun x => isFinite_iff_of_toNumber, fun hv f g => hv.bind_congr,
    fun hv hw op hconcat hcomparison g h =>
      Operator.compute_arithmetic_congr hconcat hcomparison h hv hw, fun hargs => ?_⟩
  exact ⟨fun f g h => liftNumber_congr h hargs, fun f g h => liftNumber2_congr h hargs,
    fun f g h => aggregate_congr h hargs, fun u hu m => isFinite_of_numericMatrix (hargs u hu)⟩

/-- The last text of seventeen digits that does not overflow, and the next one. The maximum of the
first is the one that a maximum gives that refuses infinite numbers. -/
theorem Value.coerced_finite_unless_overflow_last_text :
    let last : Value := .text "1.7976931348623158e308"
    let next : Value := .text "1.7976931348623159e308"
    let strict (xs : List Float) : Except ErrorKind Float :=
      if xs.all Float.isFinite then .ok (bestOf Number.greater xs) else .error .num
    last.IsTame ∧ next.IsFinite ∧ next.SpellsOverflow ∧
      maximum [last] = aggregate strict [last] := by
  intro last next strict
  have hread {s : String} {b : Bool} (h : (numberOfText? s).map Float.isFinite = some b) :
      ∃ x, (Value.text s).toNumber = .ok x ∧ x.isFinite = b := by
    obtain ⟨x, hx, hb⟩ := Option.map_eq_some_iff.mp h
    exact ⟨x, toNumber_text_eq_ok.mpr hx, hb⟩
  obtain ⟨x, hx, hfinite⟩ := hread (s := "1.7976931348623158e308") (b := true) (by decide +kernel)
  obtain ⟨y, hy, hinfinite⟩ :=
    hread (s := "1.7976931348623159e308") (b := false) (by decide +kernel)
  have hlast : last.IsTame :=
    ⟨trivial, ((coerced_finite_unless_overflow last next []).1 x trivial hx).mp hfinite⟩
  have hnext : next.SpellsOverflow := by
    by_contra hfits
    have := ((coerced_finite_unless_overflow next last []).1 y trivial hy).mpr hfits
    exact Bool.false_ne_true (hinfinite.symm.trans this)
  have hargs : ∀ v ∈ [last], v.Throughout IsTame :=
    List.forall_mem_singleton.mpr (throughout_of_not_isArea id hlast)
  have hlists := (coerced_finite_unless_overflow last next [last]).2.2.2 hargs
  refine ⟨hlast, trivial, hnext, hlists.2.2.1 _ _ ?_⟩
  intro xs hxs
  exact (if_pos (List.all_eq_true.mpr hxs)).symm

/-- **A text overflows.** It is read as an infinite number, and one divided by it is zero. -/
theorem Value.text_overflows :
    (Value.text "1e9999").IsFinite ∧
      (∃ x, (Value.text "1e9999").toNumber = .ok x ∧ x.isFinite = false) ∧
      Operator.divide.compute [.number 1.0, .text "1e9999"] = .number 0.0 :=
  ⟨trivial, ⟨_, rfl, rfl⟩, rfl⟩

end CellFormula
