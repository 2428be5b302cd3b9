/-!
# Sums and differences that overflow

The sum of two words may be too large for a word, and the difference of two words is no word if more
is taken away than is there. What comes of it depends on how a program is built: with checks it stops
there, and without them the result wraps around. A computation on `Overflowing` takes both ways at
once. It goes on with what has wrapped around, and it remembers that something has.

## Main definitions

* `Overflowing` — what comes of a computation, and whether something in it overflowed
* `Overflowing.checked?` — what comes of it with checks
* `Overflowing.add`, `Overflowing.sub` — the sum and the difference of two words
-/

namespace CellFormula

/-- What comes of a computation with words. -/
structure Overflowing (α : Type) where
  /-- What comes of it without checks. -/
  wrapped : α
  /-- A sum or a difference overflowed. -/
  overflows : Bool

namespace Overflowing

variable {α w : Type}

instance : Coe α (Overflowing α) := ⟨fun a => ⟨a, false⟩⟩

instance : Monad Overflowing where
  pure a := ⟨a, false⟩
  bind o f := ⟨(f o.wrapped).wrapped, o.overflows || (f o.wrapped).overflows⟩

/-- What comes of a computation with checks: nothing as soon as something overflows. -/
def checked? (o : Overflowing α) : Option α := if o.overflows then none else some o.wrapped

/-- The sum of two words. One that has wrapped around is less than its parts. -/
def add [Add w] [LT w] [DecidableLT w] (a b : w) : Overflowing w := ⟨a + b, a + b < a⟩

/-- The difference of two words. -/
def sub [Sub w] [LT w] [DecidableLT w] (a b : w) : Overflowing w := ⟨a - b, a < b⟩

@[simp]
theorem checked?_eq_none_iff {o : Overflowing α} : o.checked? = none ↔ o.overflows = true := by
  simp [checked?]

@[simp]
theorem checked?_eq_some_iff {o : Overflowing α} {a : α} :
    o.checked? = some a ↔ o.overflows = false ∧ o.wrapped = a := by
  simp [checked?]

end Overflowing

end CellFormula
