import CellFormula.Evaluation.Operation
import CellFormula.Proofs.WordDouble
import CellFormula.Worksheet.Aggregate

/-!
# What is counted

A mean is a sum divided by a count. `AVERAGE` divides by the numbers that it has added up, and
`COUNT` counts numbers without adding them. The two agree on every argument but one: what stands for
nothing and is an argument of its own, a blank cell or an argument left out, is added up as zero and
is not counted. Inside an area both pass over it.

So there are as many numbers as `COUNT` says and as many more as there are such arguments
(`Worksheet.length_numbersOf`). Where there are none, `AVERAGE` is `SUM` divided by `COUNT`, also
where the sum is not finite and where there is nothing to add; that they cannot be left out is
`Worksheet.average_counts_missing`.

## How large a count can be

A count is a 64-bit word before it is a double. A list of arguments that is longer than words can
count does not exist anywhere but in a theorem, and the last one here excludes it.

## Main definitions

* `gathered` — what a list of arguments contributes

## Main results

* `Worksheet.length_numbersOf` — the numbers that are added up
* `Worksheet.average_eq_sum_divided_by_count` — the mean
-/

namespace CellFormula

/-! ### Lists gathered from arguments -/

section Gathered

variable {α : Type}

/-- The lists that the arguments contribute, one after the other, or the first error. -/
def gathered (g : Value → Except ErrorKind (List α)) (args : List Value) :
    Except ErrorKind (List α) := do
  return (← args.mapM g).flatten

theorem gathered_cons (g : Value → Except ErrorKind (List α)) (v : Value) (args : List Value) :
    gathered g (v :: args) = do return (← g v) ++ (← gathered g args) := by
  rw [gathered, gathered, List.mapM_cons]
  simp

theorem gathered_append (g : Value → Except ErrorKind (List α)) (as bs : List Value) :
    gathered g (as ++ bs) = do return (← gathered g as) ++ (← gathered g bs) := by
  rw [gathered, gathered, gathered, List.mapM_append]
  simp

/-- What is gathered is what the first argument contributes and what the others do. -/
theorem exists_of_gathered_cons {g : Value → Except ErrorKind (List α)} {v : Value}
    {args : List Value} {as : List α} (h : gathered g (v :: args) = .ok as) :
    ∃ first others, g v = .ok first ∧ gathered g args = .ok others ∧ as = first ++ others := by
  rw [gathered_cons] at h
  cases hfirst : g v with
  | error kind => rw [hfirst] at h; cases h
  | ok first =>
    cases hothers : gathered g args with
    | error kind => rw [hfirst, hothers] at h; cases h
    | ok others =>
      rw [hfirst, hothers] at h
      cases h
      exact ⟨first, others, rfl, rfl, rfl⟩

end Gathered

namespace Worksheet

/-! ### Numbers that are added up -/

/-- In an area the numbers are counted that are added up. -/
theorem length_filterMapM_cellNumber {vs : List Value} {xs : List Float}
    (h : vs.filterMapM cellNumber = .ok xs) : vs.countP isNumber = xs.length := by
  induction vs generalizing xs with
  | nil => cases h; rfl
  | cons v vs ih =>
    rw [List.filterMapM_cons] at h
    cases hrest : vs.filterMapM cellNumber with
    | error kind => rw [hrest] at h; cases v <;> cases h
    | ok rest =>
      rw [hrest] at h
      rw [List.countP_cons, ih hrest]
      cases v <;> cases h <;> rfl

/-- An argument holds as many numbers as are added up, one that stands for nothing apart. -/
theorem length_numbersOfArgument {v : Value} {xs : List Float}
    (h : numbersOfArgument v = .ok xs) :
    numbersIn v + (if v.isVoid then 1 else 0) = xs.length := by
  cases v with
  | area block => exact length_filterMapM_cellNumber h
  | text s =>
    cases hs : Number.numberOfText? s with
    | none => simp only [numbersOfArgument, Value.toNumber, hs] at h; cases h
    | some x =>
      simp only [numbersOfArgument, Value.toNumber, hs] at h
      cases h
      simp [numbersIn, hs, Value.isVoid]
  | error kind => cases h
  | _ => cases h; rfl

/-- **The numbers that are added up** are those that are counted and a zero for each argument that
stands for nothing. -/
theorem length_numbersOf {args : List Value} {xs : List Float} (h : numbersOf args = .ok xs) :
    (args.map numbersIn).sum + args.countP Value.isVoid = xs.length := by
  induction args generalizing xs with
  | nil => cases h; rfl
  | cons v args ih =>
    obtain ⟨first, others, hfirst, hothers, rfl⟩ := exists_of_gathered_cons h
    have hv := length_numbersOfArgument hfirst
    have hargs := ih hothers
    rw [List.map_cons, List.sum_cons, List.countP_cons, List.length_append]
    omega

/-! ### Means -/

/-- **A sum divided by a count**, both of them values. A sum that is not finite is an error already,
the one that its quotient would be. -/
theorem divide_ofNumber (x y : Float) :
    Operator.divide.compute [.ofNumber x, .number y]
      = if x.isFinite = true ∧ (y == 0.0) = true then .error .div0 else .ofNumber (x / y) := by
  have hcompute : Operator.divide.compute [.ofNumber x, .number y]
      = .ofResult ((Value.ofNumber x).toNumber >>= fun a => Operator.divide.arithmetic a y) := rfl
  rw [hcompute, Value.ofNumber]
  by_cases hx : x.isFinite = true
  · have harithmetic : Operator.divide.arithmetic x y
        = if (y == 0.0) = true then .error .div0 else Number.finite (x / y) := rfl
    have hnumber : (Value.number x).toNumber = .ok x := rfl
    rw [if_pos hx, hnumber]
    simp only [bind, Except.bind, harithmetic, hx, true_and]
    split
    · rfl
    · rw [Number.finite, Value.ofNumber]
      split
      · next hfinite => simp [Value.ofResult, Value.ofNumber, hfinite]
      · rfl
  · have hquotient : (x / y).isFinite = false :=
      Number.isFinite_div_eq_false (Bool.not_eq_true _ ▸ hx) y
    rw [if_neg hx, if_neg (fun h => hx h.1), Value.ofNumber, hquotient]
    rfl

/-- **`AVERAGE` divides by what `COUNT` counts**, where the numbers can be collected. What `COUNT`
counts and the arguments that stand for nothing make up the numbers that `AVERAGE` divides by. If
there are no such arguments, it is the sum divided by the count. -/
theorem average_eq_sum_divided_by_count {args : List Value} {xs : List Float}
    (h : numbersOf args = .ok xs) :
    let total := (args.map numbersIn).sum
    let void := args.countP Value.isVoid
    countNumbers args = .number (Number.ofCount total) ∧
      average args = .ofResult
        (if xs.isEmpty then .error .div0 else .ok (sumOf xs / Number.ofCount xs.length)) ∧
      total + void = xs.length ∧
      (void = 0 → xs.length < UInt64.size →
        average args = Operator.divide.compute [sum args, countNumbers args]) := by
  intro total void
  have hcount : countNumbers args = .number (Number.ofCount total) := rfl
  have hlength : total + void = xs.length := length_numbersOf h
  have haverage : average args = .ofResult
      (if xs.isEmpty then .error .div0 else .ok (sumOf xs / Number.ofCount xs.length)) := by
    rw [average, aggregate, h]
    rfl
  refine ⟨hcount, haverage, hlength, fun hvoid hfits => ?_⟩
  have hsum : sum args = .ofNumber (sumOf xs) := by
    rw [sum, aggregate, h]
    rfl
  have htotal : total = xs.length := by omega
  rw [haverage, hsum, hcount, htotal, divide_ofNumber]
  cases xs with
  | nil => rfl
  | cons x xs =>
    have hzero : (Number.ofCount (x :: xs).length == 0.0) = false :=
      Number.ofCount_ne_zero (Nat.succ_pos xs.length) hfits
    simp only [hzero, List.isEmpty_cons, Bool.false_eq_true, and_false, if_false]
    rfl

theorem average_of_three :
    let args : List Value := [.number 3.0, .boolean true,
      .area ⟨0, 0, ⟨1, 2, #[.number 2.0, .blank]⟩⟩]
    numbersOf args = .ok [3.0, 1.0, 2.0] ∧
      average args = Operator.divide.compute [sum args, countNumbers args] := by
  intro args
  have hnumbers : numbersOf args = .ok [3.0, 1.0, 2.0] := rfl
  have hvoid : args.countP Value.isVoid = 0 := rfl
  obtain ⟨-, -, -, hquotient⟩ := average_eq_sum_divided_by_count hnumbers
  exact ⟨hnumbers, hquotient hvoid (by decide)⟩

/-- **An argument that was left out is added up and not counted.** -/
theorem average_counts_missing :
    let args : List Value := [.number 1.0, .missing]
    numbersOf args = .ok [1.0, 0.0] ∧ countNumbers args = .number (Number.ofCount 1) ∧
      average args ≠ Operator.divide.compute [sum args, countNumbers args] := by
  intro args
  have hcount : countNumbers args = .number (Number.ofCount 1) := rfl
  have hsum : sum args = .ofNumber (sumOf [1.0, 0.0]) := rfl
  have hhalf : average args = .number 0.5 := rfl
  have hone : Operator.divide.compute [sum args, countNumbers args] = .number 1.0 := by
    have hnonzero : (Number.ofCount 1 == 0.0) = false :=
      Number.ofCount_ne_zero (by decide) (by decide)
    have hquotient : sumOf [1.0, 0.0] / Number.ofCount 1 = 1.0 := by decide +kernel
    have hfinite : (1.0 : Float).isFinite = true := by decide +kernel
    rw [hsum, hcount, divide_ofNumber, hnonzero, hquotient, Value.ofNumber, if_pos hfinite]
    simp
  have hdiffer : (0.5 : Float) ≠ 1.0 := by decide +kernel
  refine ⟨rfl, hcount, fun h => hdiffer ?_⟩
  rw [hhalf, hone] at h
  exact Value.number.inj h

end Worksheet

end CellFormula
