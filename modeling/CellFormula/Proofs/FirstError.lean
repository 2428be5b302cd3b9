import CellFormula.Proofs.ArrayFormula

/-!
# Which error an operator answers with

An operator on values is given operands, and some of them are errors. Its answer is the error of the
leftmost one, whatever the others are, with one exception: an arithmetic operator reads the number
of its left operand before it looks at the right one. A text that spells no number stops it there,
and an error to the right of the text is never seen.

## Where the exception comes from

Arithmetic coerces from left to right, and a coercion that fails is a value error like any other.
Comparisons look for errors before they compare, and every text can be joined to another value, so
they have no such exception; nor has a call, whose errors are looked for among its arguments.

## Main definitions

* `Operator.isArithmetic`, `Operator.StopsAtText` — operators that read numbers, and where they stop

## Main results

* `Value.toNumber_eq_error_iff`, `Value.toText_eq_error_iff` — what cannot be read
* `Operator.compute_first_error` — the error of the leftmost operand
* `Operator.text_hides_error` — a text that hides an error
-/

namespace CellFormula

/-! ### What cannot be read -/

namespace Value

variable {v : Value} {kind : ErrorKind}

/-- Besides errors only a text that spells no number cannot be read as a number. -/
theorem toNumber_eq_error_iff (hv : ¬ v.IsArea) :
    v.toNumber = .error kind ↔
      v = .error kind ∨ kind = .value ∧ ∃ s, v = .text s ∧ Number.numberOfText? s = none := by
  cases v with
  | area block => exact absurd trivial hv
  | text s =>
    rw [toNumber]
    cases hs : Number.numberOfText? s <;> simp [hs, eq_comm]
  | _ => simp [toNumber]

/-- Everything but an error can be read as text. -/
theorem toText_eq_error_iff (hv : ¬ v.IsArea) : v.toText = .error kind ↔ v = .error kind := by
  cases v with
  | area block => exact absurd trivial hv
  | _ => simp [toText]

theorem error?_eq_some_iff : v.error? = some kind ↔ v = .error kind := by
  cases v <;> simp [error?]

end Value

namespace Operator

/-- The operator computes a number from two numbers. -/
def isArithmetic : Operator → Bool
  | add | subtract | multiply | divide | power => true
  | _ => false

/-- The operator reads a number from its left operand, and that is a text that spells none. -/
inductive StopsAtText (op : Operator) : List Value → Prop
  | text {s : String} {r : Value} (arithmetic : op.isArithmetic = true)
    (noNumber : Number.numberOfText? s = none) : StopsAtText op [.text s, r]

variable {op : Operator} {kind : ErrorKind} {l : Value}

/-! ### Errors among the operands -/

theorem computeUnary_error (hop : op.isUnary = true) :
    op.computeUnary (.error kind) = .error kind := by
  cases op <;> first | rfl | cases hop

/-- An error on the left is the answer. -/
theorem computeBinary_error_left (r : Value) : op.computeBinary (.error kind) r = .error kind := by
  cases op <;> rfl

/-- What is no reference operator and has two operands joins texts, compares, or computes a
number. -/
theorem binary_cases (hop : op.isUnary = false) (hvalue : op.combinesReferences = false) :
    op = concat ∨ op.isComparison = true ∨ op.isArithmetic = true := by
  cases op <;> simp_all [isUnary, combinesReferences, isComparison, isArithmetic]

theorem joined_error_right (hl : ¬ l.IsArea) (hleft : l.error? = none) :
    joined l (.error kind) = .error kind := by
  rw [joined]
  cases htext : l.toText with
  | ok s => rfl
  | error kind' =>
    rw [(Value.toText_eq_error_iff hl).mp htext] at hleft
    cases hleft

theorem order_error_right (hleft : l.error? = none) : l.order (.error kind) = .error kind := by
  cases l <;> first | rfl | cases hleft

/-- An arithmetic operator comes to see an error on the right if its left operand is a number. -/
theorem computeBinary_of_isArithmetic (harith : op.isArithmetic = true) (r : Value) :
    op.computeBinary l r = .ofResult (do op.arithmetic (← l.toNumber) (← r.toNumber)) := by
  cases op <;> first | rfl | cases harith

/-- An error on the right is the answer if the operator does not stop before. -/
theorem computeBinary_error_right (hop : op.isUnary = false)
    (hvalue : op.combinesReferences = false) (hl : ¬ l.IsArea) (hleft : l.error? = none)
    (hstops : ¬ op.StopsAtText [l, .error kind]) :
    op.computeBinary l (.error kind) = .error kind := by
  obtain rfl | hcompares | harith := binary_cases hop hvalue
  · rw [computeBinary, if_pos rfl, joined_error_right hl hleft]
  · have hconcat : op ≠ concat := by rintro rfl; cases hcompares
    rw [computeBinary, if_neg hconcat, if_pos hcompares, order_error_right hleft]
  · rw [computeBinary_of_isArithmetic harith]
    cases hnumber : l.toNumber with
    | ok x => rfl
    | error kind' =>
      obtain rfl | ⟨-, s, rfl, hs⟩ := (Value.toNumber_eq_error_iff hl).mp hnumber
      · cases hleft
      · exact absurd (.text harith hs) hstops

theorem StopsAtText.compute {operands : List Value} (h : op.StopsAtText operands) :
    op.compute operands = .error .value := by
  obtain ⟨harith, hs⟩ := h
  rw [Operator.compute, computeBinary_of_isArithmetic harith, Value.toNumber, hs]
  rfl

/-! ### The leftmost error -/

/-- **The leftmost error wins unless a text stops arithmetic before it.** Let an operator on values
be given as many operands as it takes, none of them an area, and let some of them be errors. Its
answer is the error of the leftmost of these. Only when it computes a number of two, and the left
operand is a text that spells none, is the answer a value error, whatever the right operand is. -/
theorem compute_first_error {operands : List Value} (hvalue : op.combinesReferences = false)
    (hcount : operands.length = op.arity) (hscalar : ∀ v ∈ operands, ¬ v.IsArea)
    (hfirst : operands.findSome? Value.error? = some kind) :
    (¬ op.StopsAtText operands → op.compute operands = .error kind) ∧
      (op.StopsAtText operands → op.compute operands = .error .value) := by
  refine ⟨fun hstops => ?_, StopsAtText.compute⟩
  match operands with
  | [] => cases hfirst
  | [v] =>
    have hop : op.isUnary = true := by
      by_contra hbinary
      simp [arity, hbinary] at hcount
    rw [List.findSome?_singleton, Value.error?_eq_some_iff] at hfirst
    rw [hfirst]
    exact computeUnary_error hop
  | [l, r] =>
    have hop : op.isUnary = false := by
      by_contra hunary
      simp [arity, hunary] at hcount
    rw [List.findSome?_cons, List.findSome?_singleton] at hfirst
    cases hleft : l.error? with
    | some kind' =>
      rw [hleft] at hfirst
      cases hfirst
      rw [Value.error?_eq_some_iff.mp hleft]
      exact computeBinary_error_left r
    | none =>
      rw [hleft] at hfirst
      rw [Value.error?_eq_some_iff.mp hfirst] at hstops ⊢
      exact computeBinary_error_right hop hvalue (hscalar l (List.mem_cons_self ..)) hleft hstops
  | _ :: _ :: _ :: _ =>
    rw [arity] at hcount
    split at hcount <;> cases hcount

/-- A text that spells a number lets an error to its right through. -/
theorem compute_first_error_numeral :
    let operands : List Value := [.text "12%", .error .ref]
    subtract.combinesReferences = false ∧ operands.length = subtract.arity ∧
      (∀ v ∈ operands, ¬ v.IsArea) ∧ operands.findSome? Value.error? = some .ref ∧
      ¬ subtract.StopsAtText operands ∧ subtract.compute operands = .error .ref := by
  intro operands
  have hscalar : ∀ v ∈ operands, ¬ v.IsArea :=
    List.forall_mem_cons.mpr ⟨id, List.forall_mem_singleton.mpr id⟩
  have hstops : ¬ subtract.StopsAtText operands := by
    intro h
    change subtract.StopsAtText [.text "12%", .error .ref] at h
    obtain ⟨-, hs⟩ := h
    have hnumeral : (Number.numberOfText? "12%").isSome = true := by decide
    rw [hs] at hnumeral
    cases hnumeral
  exact ⟨rfl, rfl, hscalar, rfl, hstops, (compute_first_error rfl rfl hscalar rfl).1 hstops⟩

/-- **A text that spells no number hides the error to its right.** The only error among the operands
is not the answer. -/
theorem text_hides_error :
    let operands : List Value := [.text "abc", .error .ref]
    (add.combinesReferences = false ∧ operands.length = add.arity ∧
        (∀ v ∈ operands, ¬ v.IsArea) ∧ operands.findSome? Value.error? = some .ref) ∧
      add.compute operands ≠ .error .ref := by
  intro operands
  have hscalar : ∀ v ∈ operands, ¬ v.IsArea :=
    List.forall_mem_cons.mpr ⟨id, List.forall_mem_singleton.mpr id⟩
  have hstops : add.StopsAtText operands := .text rfl (by decide)
  refine ⟨⟨rfl, rfl, hscalar, rfl⟩, ?_⟩
  rw [hstops.compute]
  nofun

end Operator

end CellFormula
