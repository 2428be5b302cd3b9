import CellFormula.Formula.Action

/-!
# Going through a formula with a stack

Evaluating a formula and writing it out are two walks through its tokens. Each keeps a stack of
entries of its own kind, and what can go wrong with the stack alone is the same for both.

## Why the depth is stored

A limit on the depth is checked at every entry. Counting the entries each time would make a long
formula of many leaves cost the square of its length, so the stack carries the count, with a proof
that it is one.

## Main definitions

* `Stack`, `Stack.push`, `Stack.take?` — entries, the last one first
* `StackFault` — what can be wrong with a formula as a program for a stack
* `walk` — the tokens of a formula, one after the other
* `Stack.only?` — the one entry that a formula leaves
-/

namespace CellFormula

/-- Entries, the last one first. -/
structure Stack (α : Type) where
  entries : List α
  /-- The number of entries. -/
  depth : Nat
  depth_eq : depth = entries.length

namespace Stack

variable {α : Type}

/-- The stack without entries. -/
def empty : Stack α := ⟨[], 0, rfl⟩

/-- The stack with one more entry. -/
def push (s : Stack α) (a : α) : Stack α := ⟨a :: s.entries, s.depth + 1, by simp [s.depth_eq]⟩

/-- The last `count` entries, in the order in which they were pushed, and the stack below. -/
def take? (s : Stack α) (count : Nat) : Option (List α × Stack α) :=
  if count ≤ s.depth then
    some ((s.entries.take count).reverse,
      ⟨s.entries.drop count, s.depth - count, by simp [s.depth_eq]⟩)
  else none

/-- The entry of a stack that has only one. -/
def only? (s : Stack α) : Option α :=
  match s.entries with
  | [a] => some a
  | _ => none

theorem ext {s s' : Stack α} (h : s.entries = s'.entries) : s = s' := by
  obtain ⟨xs, n, hn⟩ := s
  obtain ⟨xs', n', hn'⟩ := s'
  subst hn hn'
  cases h
  rfl

@[simp] theorem entries_push (s : Stack α) (a : α) : (s.push a).entries = a :: s.entries := rfl

@[simp] theorem depth_push (s : Stack α) (a : α) : (s.push a).depth = s.depth + 1 := rfl

theorem take?_eq_some {s below : Stack α} {count : Nat} {taken : List α}
    (h : s.take? count = some (taken, below)) :
    s.entries = taken.reverse ++ below.entries ∧ taken.length = count := by
  unfold take? at h
  split at h
  · next fits =>
    cases h
    rw [s.depth_eq] at fits
    simp [Nat.min_eq_left fits]
  · cases h

theorem take?_eq_none {s : Stack α} {count : Nat} : s.take? count = none ↔ s.depth < count := by
  unfold take?
  split <;> simp <;> omega

end Stack

/-- What is wrong with a formula as a program for a stack. Tokens are counted from zero. -/
inductive StackFault
  /-- A token takes more entries than there are. -/
  | underflow (index : Nat) (opcode : UInt8) (needed available : Nat)
  /-- The formula ends with no entry, or with more than one. -/
  | notSingular (depth : Nat)
  /-- A token calls a function that is not in the catalogue. -/
  | unknownFunction (index : Nat) (function : UInt16)
  /-- A token stands for the formula of another cell. -/
  | unresolved (index : Nat)
deriving DecidableEq, Repr

/-- The operands of the token at a place in the formula, and the stack below. -/
def Stack.operands {α : Type} (s : Stack α) (index : Nat) (t : Token) (count : Nat) :
    Except StackFault (List α × Stack α) :=
  match s.take? count with
  | some taken => .ok taken
  | none => .error (.underflow index t.opcode count s.depth)

/-- The tokens of a formula one after the other, each with its place in the formula. -/
def walk {ε σ : Type} (step : Nat → Token → σ → Except ε σ) (index : Nat) (state : σ) :
    Formula → Except ε σ
  | [] => .ok state
  | t :: ts =>
    match step index t state with
    | .ok next => walk step (index + 1) next ts
    | .error e => .error e

theorem walk_append {ε σ : Type} (step : Nat → Token → σ → Except ε σ) (index : Nat) (state : σ)
    (f g : Formula) :
    walk step index state (f ++ g)
      = (walk step index state f).bind fun next => walk step (index + f.length) next g := by
  induction f generalizing index state with
  | nil => rfl
  | cons t ts ih =>
    simp only [walk, List.cons_append, List.length_cons]
    cases step index t state with
    | ok next => simpa [Nat.add_assoc, Nat.add_comm 1] using ih (index + 1) next
    | error e => rfl

end CellFormula
