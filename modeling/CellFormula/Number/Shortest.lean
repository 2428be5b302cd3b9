import CellFormula.Number.Binary64

/-!
# Decimals near a double

A positive finite double is the rational `significand * 2 ^ exponent`. Two decimals are taken from
it: the one with a given count of digits that lies nearest, and the shortest one that lies nearer
to this double than to any other.

## The method

All arithmetic is on `Nat`, so nothing is lost on the way. The reals that round to a double form
an interval around it, its ends included exactly when the significand is even. For 1, 2, 3, …
digits the two neighbours of the double on that decimal grid are held against the interval: if any
point of the grid lies inside, one of the two does, so the first grid with a hit is the coarsest
one. Seventeen digits always suffice.

## Main definitions

* `Dyadic`, `Dyadic.ofFloat` — the magnitude of a finite double, exactly
* `Decimal` — digits and a power of ten
* `Dyadic.rounded` — the nearest decimal with a count of digits, ties going to the even digit
* `Dyadic.shortest` — the shortest decimal that reads back as the double
-/

namespace CellFormula.Number

/-- The rational `significand * 2 ^ exponent`. -/
structure Dyadic where
  significand : Nat
  exponent : Int
deriving DecidableEq, Repr

/-- The number `digits * 10 ^ exponent`. -/
structure Decimal where
  digits : Nat
  exponent : Int
deriving DecidableEq, Repr

/-- A non-negative rational, as a numerator and a denominator. -/
structure Ratio where
  num : Nat
  den : Nat
deriving DecidableEq, Repr

namespace Ratio

/-- The rational times a power of a base. -/
def scale (r : Ratio) (base : Nat) (power : Int) : Ratio :=
  if 0 ≤ power then ⟨r.num * base.pow power.toNat, r.den⟩
  else ⟨r.num, r.den * base.pow (-power).toNat⟩

/-- The first rational is at most the second. -/
def le (a b : Ratio) : Bool := a.num * b.den ≤ b.num * a.den

/-- The first rational is less than the second. -/
def lt (a b : Ratio) : Bool := a.num * b.den < b.num * a.den

/-- The largest natural number that is not larger. -/
def floor (r : Ratio) : Nat := r.num / r.den

/-- The power of ten of the leading digit of a positive rational. -/
def leadingPower (r : Ratio) : Int :=
  if r.den ≤ r.num then
    ((Nat.toDigits 10 (r.num / r.den)).length : Int) - 1
  else
    -((Nat.toDigits 10 ((r.den - 1) / r.num)).length : Int)

end Ratio

/-- The least significand with a full set of bits. Below it doubles are evenly spaced. -/
def fullSignificand : Nat := 1 <<< 52

/-- The exponent of the doubles next to zero. -/
def leastExponent : Int := -1074

namespace Dyadic

/-- The magnitude of a finite double. -/
def ofFloat (x : Float) : Dyadic :=
  let bits := x.toBits.toNat
  let field := bits / fullSignificand % (1 <<< 11)
  let fraction := bits % fullSignificand
  if field = 0 then ⟨fraction, leastExponent⟩
  else ⟨fullSignificand + fraction, leastExponent + (field - 1 : Nat)⟩

/-- The rational that the double stands for. -/
def toRatio (d : Dyadic) : Ratio := (Ratio.mk d.significand 1).scale 2 d.exponent

/-- The number halfway to the next double below. The gap below a power of two is half as wide. -/
def lowerEnd (d : Dyadic) : Ratio :=
  if d.significand = fullSignificand ∧ leastExponent < d.exponent then
    (Ratio.mk (4 * d.significand - 1) 4).scale 2 d.exponent
  else
    (Ratio.mk (2 * d.significand - 1) 2).scale 2 d.exponent

/-- The number halfway to the next double above. -/
def upperEnd (d : Dyadic) : Ratio := (Ratio.mk (2 * d.significand + 1) 2).scale 2 d.exponent

/-- The rational rounds to the double. An end of the interval does when the significand is even. -/
def attracts (d : Dyadic) (r : Ratio) : Bool :=
  if d.significand % 2 = 0 then d.lowerEnd.le r && r.le d.upperEnd
  else d.lowerEnd.lt r && r.lt d.upperEnd

/-- The nearest decimal with `count` digits, a tie going to the even last digit. -/
def rounded (d : Dyadic) (count : Nat) : Decimal :=
  let power := d.toRatio.leadingPower + 1 - count
  let scaled := d.toRatio.scale 10 (-power)
  let below := scaled.floor
  let twice := 2 * (scaled.num - below * scaled.den)
  let up := scaled.den < twice || (scaled.den = twice && below % 2 = 1)
  ⟨if up then below + 1 else below, power⟩

/-- The nearer of the neighbours on the grid with `count` digits that round to the double. -/
def gridHit? (d : Dyadic) (count : Nat) : Option Decimal :=
  let power := d.toRatio.leadingPower + 1 - count
  let scaled := d.toRatio.scale 10 (-power)
  let below := scaled.floor
  let twice := 2 * (scaled.num - below * scaled.den)
  let lowerHits := d.attracts ((Ratio.mk below 1).scale 10 power)
  let upperHits := d.attracts ((Ratio.mk (below + 1) 1).scale 10 power)
  if lowerHits && (!upperHits || twice < scaled.den) then some ⟨below, power⟩
  else if upperHits then some ⟨below + 1, power⟩
  else none

/-- The shortest decimal that reads back as the double. -/
def shortest (d : Dyadic) : Decimal :=
  ((List.range 17).findSome? fun i => d.gridHit? (i + 1)).getD (d.rounded 17)

end Dyadic

/-- The decimal without zeros at the end of its digits, looking at no more than `fuel` of them. -/
def Decimal.stripZeros : Nat → Decimal → Decimal
  | 0, d => d
  | fuel + 1, d =>
    if d.digits ≠ 0 ∧ d.digits % 10 = 0 then stripZeros fuel ⟨d.digits / 10, d.exponent + 1⟩ else d

/-- The decimal with the same value whose digits do not end in a zero. -/
def Decimal.normalized (d : Decimal) : Decimal := d.stripZeros (Nat.toDigits 10 d.digits).length

end CellFormula.Number
