import CellFormula.Proofs.FirstError
import Mathlib

/-!
# Comparing values

Six operators compare two values, and all of them ask for the order of the two. This module says
that the answers fit together: whichever side is looked at first, a comparison succeeds or fails
alike, and the two orders are each other's reverse. Among numbers, texts and truth values the order
is that of a chain, in which only texts that differ in case, and the two zeros, share a place.

## Places

`Value.place` puts a value into a linear order: the kind goes first, then the place of the number
among the doubles, the text in capitals, or the truth value. Once the order of two values is known
to be that of their places (`order_eq_compare_place`), reflexivity, transitivity and totality are
those of the linear order, and no triple of kinds is ever looked at.

## What has no place

A value that stands for nothing is taken for zero beside a number, for an empty text beside a text
and for a false truth value beside a truth value; it is equal to all three, and they are not equal
to each other. A NaN is equal to every number. Both are compared coherently from either side
(`order_swap`), but no chain has room for them.

## Main definitions

* `Number.place`, `Value.place` — where a double and a value stand
* `Value.IsOrdered`, `Value.Precedes`, `Value.Decided`

## Main results

* `Value.order_swap` — a comparison from the other side
* `Value.order_eq_compare_place` — the order of values that have a place
* `Value.order_coherent` — the comparisons fit together
-/

namespace CellFormula

/-! ### Doubles -/

namespace Number

open Float.Model

/-- Where a double stands: the sign and the kind first, then the exponent and the mantissa. Among
negative numbers the larger magnitude comes first. -/
def place : UnpackedFloat → ℤ ×ₗ ℤ ×ₗ ℤ
  | .infinity .negative => toLex (-2, toLex (0, 0))
  | .finite .negative mantissa exponent _ => toLex (-1, toLex (-exponent, -(mantissa : ℤ)))
  | .zero _ | .notANumber => toLex (0, toLex (0, 0))
  | .finite .positive mantissa exponent _ => toLex (1, toLex (exponent, (mantissa : ℤ)))
  | .infinity .positive => toLex (2, toLex (0, 0))

theorem compare_neg (a b : ℤ) : compare (-a) (-b) = (compare a b).swap := by
  have hanti : StrictAnti fun n : ℤ => -n := fun _ _ h => neg_lt_neg h
  rw [← cmp_eq_compare, hanti.cmp_map_eq, cmp_eq_compare, Std.OrientedOrd.eq_swap]

theorem compare_natCast (m n : ℕ) : compare (m : ℤ) (n : ℤ) = compare m n := by
  rw [← cmp_eq_compare, ← cmp_eq_compare]
  exact (Nat.strictMono_cast (α := ℤ)).cmp_map_eq m n

/-- Doubles that are no NaN are compared by their places. -/
theorem compare_eq_compare_place {u v : UnpackedFloat} (hu : u ≠ .notANumber)
    (hv : v ≠ .notANumber) : u.compare v = some (compare (place u) (place v)) := by
  have hlex (k e e' m m' : ℤ) : compare (toLex (k, toLex (e, m))) (toLex (k, toLex (e', m')))
      = (compare e e').then (compare m m') := by
    simp [Prod.Lex.compare_def, compareLex, compareOn]
  cases u with
  | notANumber => exact absurd rfl hu
  | infinity s =>
    cases v with
    | notANumber => exact absurd rfl hv
    | zero => cases s <;> rfl
    | infinity s' | finite s' => cases s <;> cases s' <;> rfl
  | zero s =>
    cases v with
    | notANumber => exact absurd rfl hv
    | zero => rfl
    | infinity s' | finite s' => cases s' <;> rfl
  | finite s mantissa exponent =>
    cases v with
    | notANumber => exact absurd rfl hv
    | zero => cases s <;> rfl
    | infinity s' => cases s <;> cases s' <;> rfl
    | finite s' mantissa' exponent' =>
      cases s <;> cases s'
      case positive.negative | negative.positive => rfl
      case negative.negative =>
        rw [place, place, hlex, compare_neg, compare_neg, compare_natCast, ← Ordering.swap_then]
        rfl
      case positive.positive =>
        rw [place, place, hlex, compare_natCast]
        rfl

/-- A comparison from the other side is the reverse. A NaN cannot be compared from either side. -/
theorem compare_swap (u v : UnpackedFloat) : v.compare u = (u.compare v).map Ordering.swap := by
  by_cases hu : u = .notANumber
  · subst hu
    cases v <;> rfl
  · by_cases hv : v = .notANumber
    · subst hv
      cases u <;> rfl
    · rw [compare_eq_compare_place hu hv, compare_eq_compare_place hv hu, Option.map_some,
        Std.OrientedOrd.eq_swap]

theorem lt_iff_compare (x y : Float) :
    x < y ↔ x.toModel.unpack.compare y.toModel.unpack = some .lt := by
  show decide (x.toModel.unpack.lt y.toModel.unpack = true) = true ↔ _
  rw [decide_eq_true_eq, UnpackedFloat.lt, beq_iff_eq]

/-- The order of two numbers is the comparison of the doubles, and equality if there is none. -/
theorem orderNumbers_eq (x y : Float) :
    Value.orderNumbers x y = (x.toModel.unpack.compare y.toModel.unpack).getD .eq := by
  rw [Value.orderNumbers, if_congr (lt_iff_compare x y) rfl rfl,
    if_congr (lt_iff_compare y x) rfl rfl, compare_swap x.toModel.unpack y.toModel.unpack]
  cases x.toModel.unpack.compare y.toModel.unpack with
  | none => rfl
  | some o => cases o <;> rfl

theorem orderNumbers_swap (x y : Float) :
    Value.orderNumbers y x = (Value.orderNumbers x y).swap := by
  rw [orderNumbers_eq, orderNumbers_eq, compare_swap]
  cases x.toModel.unpack.compare y.toModel.unpack <;> rfl

theorem unpack_ne_notANumber {x : Float} (h : x.isNaN = false) :
    x.toModel.unpack ≠ .notANumber := by
  intro hnan
  have hmodel : x.toModel.unpack.isNaN = false := h
  rw [hnan] at hmodel
  cases hmodel

theorem orderNumbers_eq_compare_place {x y : Float} (hx : x.isNaN = false)
    (hy : y.isNaN = false) :
    Value.orderNumbers x y = compare (place x.toModel.unpack) (place y.toModel.unpack) := by
  rw [orderNumbers_eq, compare_eq_compare_place (unpack_ne_notANumber hx) (unpack_ne_notANumber hy),
    Option.getD_some]

end Number

namespace Value

variable {l r : Value} {o : Ordering}

/-! ### Comparisons from the other side -/

theorem orderTexts_eq (a b : String) :
    orderTexts a b = compare (Text.capitalForm a) (Text.capitalForm b) :=
  (LinearOrder.compare_eq_compareOfLessAndEq ..).symm

theorem orderFilled_swap (a b : Value) : orderFilled b a = (orderFilled a b).swap := by
  cases a with
  | number x =>
    cases b with
    | number y => exact Number.orderNumbers_swap x y
    | _ => rfl
  | text s =>
    cases b with
    | text t =>
      rw [orderFilled, orderFilled, orderTexts_eq, orderTexts_eq,
        Std.OrientedOrd.eq_swap]
    | _ => rfl
  | boolean p =>
    cases b with
    | boolean q => cases p <;> cases q <;> rfl
    | _ => rfl
  | _ => cases b <;> rfl

/-- Values that are no errors compare unless one of them is an area. -/
theorem order_eq_ok (hl : l.error? = none) (hr : r.error? = none) (hlarea : ¬ l.IsArea)
    (hrarea : ¬ r.IsArea) : l.order r = .ok (orderFilled (l.filledIn r) (r.filledIn l)) := by
  cases l with
  | error kind => cases hl
  | area block => exact absurd trivial hlarea
  | _ =>
    cases r with
    | error kind => cases hr
    | area block => exact absurd trivial hrarea
    | _ => rfl

theorem order_eq_error (hl : l.error? = none) (hr : r.error? = none)
    (harea : l.IsArea ∨ r.IsArea) : l.order r = .error .value := by
  cases l with
  | error kind => cases hl
  | area block =>
    cases r with
    | error kind => cases hr
    | _ => rfl
  | _ =>
    cases r with
    | error kind => cases hr
    | area block => rfl
    | _ => exact absurd harea (not_or.mpr ⟨id, id⟩)

/-- **From the other side** the same two values compare, and in the reverse order. -/
theorem order_swap (hl : l.error? = none) (hr : r.error? = none) :
    r.order l = (l.order r).map Ordering.swap := by
  by_cases harea : l.IsArea ∨ r.IsArea
  · rw [order_eq_error hl hr harea, order_eq_error hr hl harea.symm]
    rfl
  · obtain ⟨hlarea, hrarea⟩ := not_or.mp harea
    rw [order_eq_ok hl hr hlarea hrarea, order_eq_ok hr hl hrarea hlarea, orderFilled_swap]
    rfl

/-! ### The chain of values -/

/-- The value has a place in the order: it is a truth value, a text or a number, and no NaN. -/
def IsOrdered : Value → Prop
  | number x => x.isNaN = false
  | text _ | boolean _ => True
  | _ => False

/-- Where a value stands: the kind first, then the number, the text in capitals or the truth value.
What has no place of its own is put at the beginning. -/
def place : Value → ℕ ×ₗ (ℤ ×ₗ ℤ ×ₗ ℤ) ×ₗ String ×ₗ Bool
  | number x => toLex (1, toLex (Number.place x.toModel.unpack, toLex ("", false)))
  | text s => toLex (2, toLex (toLex (0, toLex (0, 0)), toLex (Text.capitalForm s, false)))
  | boolean b => toLex (3, toLex (toLex (0, toLex (0, 0)), toLex ("", b)))
  | _ => toLex (0, toLex (toLex (0, toLex (0, 0)), toLex ("", false)))

/-- **Values that have a place** are ordered by their places. -/
theorem order_eq_compare_place (hl : l.IsOrdered) (hr : r.IsOrdered) :
    l.order r = .ok (compare l.place r.place) := by
  cases l with
  | number x =>
    cases r with
    | number y =>
      show Except.ok (orderNumbers x y) = _
      rw [Number.orderNumbers_eq_compare_place hl hr]
      simp [place, Prod.Lex.compare_def, compareLex, compareOn]
    | text t | boolean q => rfl
    | _ => exact absurd hr id
  | text s =>
    cases r with
    | text t =>
      show Except.ok (orderTexts s t) = _
      rw [orderTexts_eq]
      simp [place, Prod.Lex.compare_def, compareLex, compareOn]
    | number y | boolean q => rfl
    | _ => exact absurd hr id
  | boolean p =>
    cases r with
    | boolean q => cases p <;> cases q <;> rfl
    | number y | text t => rfl
    | _ => exact absurd hr id
  | _ => exact absurd hl id

/-! ### The six comparisons -/

/-- The left value does not come after the right one. -/
def Precedes (l r : Value) : Prop := l.order r = .ok .lt ∨ l.order r = .ok .eq

/-- The six comparisons of the two values are answered with truth values, of which exactly one of
`<`, `=` and `>` is true, and each of the others is the opposite of one of these. -/
def Decided (l r : Value) : Prop :=
  ∃ below same above : Bool,
    [below, same, above].count true = 1 ∧
      Operator.less.compute [l, r] = .boolean below ∧
      Operator.equal.compute [l, r] = .boolean same ∧
      Operator.greater.compute [l, r] = .boolean above ∧
      Operator.greaterEqual.compute [l, r] = .boolean (!below) ∧
      Operator.notEqual.compute [l, r] = .boolean (!same) ∧
      Operator.lessEqual.compute [l, r] = .boolean (!above)

/-- A comparison is answered with what it makes of the order, or with the error of having none. -/
theorem compute_comparison {op : Operator} (hop : op.isComparison = true) (l r : Value) :
    op.compute [l, r] = match (l.order r).map op.holds with
      | .ok b => .boolean b
      | .error kind => .error kind := by
  have hconcat : op ≠ .concat := by rintro rfl; cases hop
  rw [Operator.compute, Operator.computeBinary, if_neg hconcat, if_pos hop]
  cases l.order r <;> rfl

theorem compute_of_order {op : Operator} (hop : op.isComparison = true) (h : l.order r = .ok o) :
    op.compute [l, r] = .boolean (op.holds o) := by
  rw [compute_comparison hop, h]
  rfl

theorem decided_of_order (h : l.order r = .ok o) : l.Decided r := by
  refine ⟨o == .lt, o == .eq, o == .gt, by cases o <;> rfl, ?_⟩
  rw [compute_of_order rfl h, compute_of_order rfl h, compute_of_order rfl h,
    compute_of_order rfl h, compute_of_order rfl h, compute_of_order rfl h]
  exact ⟨rfl, rfl, rfl, rfl, rfl, rfl⟩

/-- Asking whether the left value is below is asking, from the other side, whether it is above. -/
theorem less_eq_greater (hl : l.error? = none) (hr : r.error? = none) :
    Operator.less.compute [l, r] = Operator.greater.compute [r, l] := by
  rw [compute_comparison rfl, compute_comparison rfl, order_swap hl hr]
  cases l.order r with
  | error kind => rfl
  | ok o => cases o <;> rfl

theorem precedes_iff (hl : l.IsOrdered) (hr : r.IsOrdered) : l.Precedes r ↔ l.place ≤ r.place := by
  rw [Precedes, order_eq_compare_place hl hr, Except.ok.injEq, Except.ok.injEq,
    compare_lt_iff_lt, compare_eq_iff_eq, le_iff_lt_or_eq]

/-- **Comparisons fit together.** Of two values that are no errors, a comparison fails from one side
if it fails from the other, which it does beside an area and only there; otherwise the two orders
are reverse to each other, and of the six comparison operators those hold that the order asks for.
Numbers but NaN, texts and truth values make up a chain: each precedes itself, of two one precedes
the other, and two of equal rank stand alike to every third. In it all numbers come before all
texts, and these before the truth values. -/
theorem order_coherent :
    (∀ l r : Value, l.error? = none → r.error? = none →
      ((∃ kind, l.order r = .error kind) ↔ ∃ kind, r.order l = .error kind) ∧
      ((∃ kind, l.order r = .error kind) ↔ l.IsArea ∨ r.IsArea) ∧
      (∀ o, l.order r = .ok o → r.order l = .ok o.swap ∧ l.Decided r) ∧
      Operator.less.compute [l, r] = Operator.greater.compute [r, l]) ∧
    (∀ a b c : Value, a.IsOrdered → b.IsOrdered → c.IsOrdered →
      a.order a = .ok .eq ∧ (a.Precedes b ∨ b.Precedes a) ∧
      (a.Precedes b → b.Precedes c → a.Precedes c) ∧
      (a.order b = .ok .eq → a.order c = b.order c ∧ c.order a = c.order b)) ∧
    ∀ (x : Float) (s : String) (b : Bool), (number x).order (text s) = .ok .lt ∧
      (text s).order (boolean b) = .ok .lt ∧ (number x).order (boolean b) = .ok .lt := by
  refine ⟨fun l r hl hr => ?_, fun a b c ha hb hc => ?_, fun x s b => ⟨rfl, rfl, rfl⟩⟩
  · have hswap := order_swap hl hr
    refine ⟨?_, ?_, fun o ho => ⟨by rw [hswap, ho]; rfl, decided_of_order ho⟩,
      less_eq_greater hl hr⟩
    · rw [hswap]
      cases l.order r <;> simp [Except.map]
    · by_cases harea : l.IsArea ∨ r.IsArea
      · simp [order_eq_error hl hr harea, harea]
      · obtain ⟨hlarea, hrarea⟩ := not_or.mp harea
        simp [order_eq_ok hl hr hlarea hrarea, harea]
  · rw [precedes_iff ha hb, precedes_iff hb ha, precedes_iff hb hc, precedes_iff ha hc,
      order_eq_compare_place ha ha, order_eq_compare_place ha hb, order_eq_compare_place ha hc,
      order_eq_compare_place hb hc, order_eq_compare_place hc ha, order_eq_compare_place hc hb]
    refine ⟨congrArg _ (compare_eq_iff_eq.mpr rfl), le_total .., le_trans, fun hplace => ?_⟩
    have hsame : a.place = b.place := compare_eq_iff_eq.mp (Except.ok.inj hplace)
    exact ⟨by rw [hsame], by rw [hsame]⟩

/-- A blank cell and a text, from both sides, and two spellings of a word before a truth value. -/
theorem order_coherent_spellings :
    (blank.error? = none ∧ (text "a").error? = none ∧ blank.order (text "a") = .ok .lt ∧
        (text "a").order blank = .ok .gt ∧ blank.Decided (text "a")) ∧
      (text "Straße").IsOrdered ∧ (text "STRASSE").IsOrdered ∧ (boolean false).IsOrdered ∧
      (text "Straße").order (text "STRASSE") = .ok .eq ∧
      (text "Straße").order (boolean false) = (text "STRASSE").order (boolean false) := by
  have hbelow : blank.order (text "a") = .ok .lt := by decide
  have hsame : (text "Straße").order (text "STRASSE") = .ok .eq := by decide
  obtain ⟨habove, hdecided⟩ := (order_coherent.1 blank (text "a") rfl rfl).2.2.1 .lt hbelow
  obtain ⟨-, -, -, hthird⟩ :=
    order_coherent.2.1 (text "Straße") (text "STRASSE") (boolean false) trivial trivial trivial
  exact ⟨⟨rfl, rfl, hbelow, habove, hdecided⟩, trivial, trivial, trivial, hsame, (hthird hsame).1⟩

end Value

end CellFormula
