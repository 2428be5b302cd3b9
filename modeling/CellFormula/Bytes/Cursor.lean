import CellFormula.Bytes.LittleEndian

/-!
# A cursor over a byte buffer

A `Cursor` is a place in a buffer: how many bytes lie before it, and the bytes that lie after it.
Every read is a step `Cursor → answer × Cursor`, and a read that does not fit answers `ShortRead`
and leaves the cursor where it was.

## Why the state survives a failure

`Reads` is the state monad in which a failure keeps the state (`EStateM`), not one that throws it
away. A caller that reads a list of constants goes on after a bad one from the place where reading
stopped, so that place is part of the answer.

## Main definitions

* `Cursor`, `Cursor.opened` — a place in a buffer, and the cursor opened at an offset
* `Cursor.take` — the next `n` bytes, the one read that all others are made of
* `Cursor.byte`, `Cursor.word`, `Cursor.quad`, `Cursor.skip`, `Cursor.peek?`
-/

namespace CellFormula

/-- A read asked for more bytes than the buffer still holds. -/
structure ShortRead where
  /-- How many bytes the read asked for. -/
  needed : Nat
  /-- How many bytes were left. -/
  remaining : Nat
deriving DecidableEq, Repr

/-- A place in a byte buffer. -/
structure Cursor where
  /-- The number of bytes that lie before the cursor. -/
  position : Nat
  /-- The bytes that lie after it. -/
  rest : List UInt8
deriving DecidableEq, Repr

/-- A read from a cursor. A failure carries a cause and keeps the cursor it stopped at. -/
abbrev Reads (ε α : Type) := EStateM ε Cursor α

/-- The list has at least `n` elements. Only the first `n` are looked at. -/
def hasAtLeast {α : Type} : Nat → List α → Bool
  | 0, _ => true
  | _ + 1, [] => false
  | n + 1, _ :: xs => hasAtLeast n xs

/-- Read `count` things of one kind, in order; the first failure ends the reading. -/
def Reads.times {ε α : Type} (count : Nat) (one : Reads ε α) : Reads ε (List α) :=
  go count []
where
  /-- The reading of `count` more things after those in `done`, the last of them first. -/
  go : Nat → List α → Reads ε (List α)
    | 0, done => pure done.reverse
    | count + 1, done => do
      let a ← one
      go count (a :: done)

namespace Cursor

/-- The cursor at `offset`, or at the end of the buffer when it is shorter than that. -/
def opened (bytes : List UInt8) (offset : Nat) : Cursor where
  position := min offset bytes.length
  rest := bytes.drop offset

/-- How many bytes are left. -/
def remaining (c : Cursor) : Nat := c.rest.length

/-- Nothing is left to read. -/
def isEmpty (c : Cursor) : Bool := c.rest.isEmpty

/-- The next byte, which stays unread. -/
def peek? (c : Cursor) : Option UInt8 := c.rest.head?

/-- The next `n` bytes. A read that does not fit leaves the cursor where it was. -/
def take (n : Nat) : Reads ShortRead (List UInt8) := fun c =>
  if hasAtLeast n c.rest then
    .ok (c.rest.take n) ⟨c.position + n, c.rest.drop n⟩
  else
    .error ⟨n, c.rest.length⟩ c

/-- Pass over `n` bytes. -/
def skip (n : Nat) : Reads ShortRead Unit := do
  let _ ← take n

/-- The next byte. -/
def byte : Reads ShortRead UInt8 := fun c =>
  match c.rest with
  | b :: rest => .ok b ⟨c.position + 1, rest⟩
  | [] => .error ⟨1, 0⟩ c

/-- The next 16-bit word. -/
def word : Reads ShortRead UInt16 := fun c =>
  match c.rest with
  | low :: high :: rest => .ok (wordOf low high) ⟨c.position + 2, rest⟩
  | short => .error ⟨2, short.length⟩ c

/-- The next 64-bit word. -/
def quad : Reads ShortRead UInt64 := do
  return quadOf (← take 8)

end Cursor

/-! ### What one read does -/

theorem hasAtLeast_iff {α : Type} {n : Nat} {xs : List α} :
    hasAtLeast n xs = true ↔ n ≤ xs.length := by
  induction n generalizing xs with
  | zero => simp [hasAtLeast]
  | succ n ih => cases xs <;> simp [hasAtLeast, ih]

namespace Cursor

theorem take_ok {n : Nat} {c c' : Cursor} {taken : List UInt8} (h : take n c = .ok taken c') :
    c.rest = taken ++ c'.rest ∧ taken.length = n ∧ c'.position = c.position + n := by
  unfold take at h
  split at h
  · next fits =>
    cases h
    have := hasAtLeast_iff.1 fits
    simp [Nat.min_eq_left this]
  · cases h

end Cursor

end CellFormula
