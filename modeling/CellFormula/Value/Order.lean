import CellFormula.Value.Coercion

/-!
# The order of values

Comparison operators order all values that are not errors or areas: numbers come before texts and
texts before truth values. Texts are compared by their capital forms, character by character. A
value that stands for nothing takes on the kind of the other side, and next to another such value
it is equal.

## Implementation notes

Numbers are compared as doubles. A NaN is neither above nor below, and the comparison then answers
that the two are equal; the order laws hold for the other numbers.

## Main definitions

* `Value.order` — the order of two values, or the error that one of them is
-/

namespace CellFormula.Value

/-- The value that a void value stands for next to another one. -/
def likeKindOf : Value → Value
  | number _ => number 0.0
  | boolean _ => boolean false
  | text _ => text ""
  | _ => blank

/-- The value, or what it stands for next to `other` when it is void. -/
def filledIn (v other : Value) : Value := if v.isVoid then other.likeKindOf else v

/-- The order of two numbers. -/
def orderNumbers (a b : Float) : Ordering := if a < b then .lt else if b < a then .gt else .eq

/-- The order of two texts: that of their capital forms by code points. -/
def orderTexts (a b : String) : Ordering :=
  compareOfLessAndEq (Text.capitalForm a) (Text.capitalForm b)

/-- The place of a value's kind: nothing, numbers, texts, truth values. -/
def kindRank : Value → Nat
  | number _ => 1
  | text _ => 2
  | boolean _ => 3
  | _ => 0

/-- The order of two values of which none is an error, an area or void next to another kind. -/
def orderFilled : Value → Value → Ordering
  | number a, number b => orderNumbers a b
  | text a, text b => orderTexts a b
  | boolean a, boolean b => compare a.toNat b.toNat
  | a, b => compare a.kindRank b.kindRank

/-- The order of two values. The error of the left one goes first; an area cannot be compared. -/
def order : Value → Value → Except ErrorKind Ordering
  | error kind, _ => .error kind
  | _, error kind => .error kind
  | area _, _ => .error .value
  | _, area _ => .error .value
  | a, b => .ok (orderFilled (a.filledIn b) (b.filledIn a))

end CellFormula.Value
