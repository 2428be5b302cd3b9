import CellFormula.Bytes.Cursor

/-!
# Reads go forward

A cursor never goes back, and what lies behind it is what it has read. `LeadsTo c c'` says that a
cursor became another one by reading some bytes, and a read is `Forward` when it leads from every
cursor to the one it ends at, whether it succeeds or not. All reads of this library are made from
`take`, `byte` and `word` by the combinators below, so they all are; a loop over reads ends because
what is left gets shorter.

## Main definitions

* `Cursor.LeadsTo`, `Reads.Forward`

## Main results

* `Reads.Forward.ite`, `Reads.Forward.bind`, `Reads.Forward.adapt`, `Reads.Forward.times`
* `Cursor.forward_take`, `Cursor.forward_byte`, `Cursor.forward_word`, `Cursor.forward_quad`
-/

namespace CellFormula

/-- The second cursor is the first one after some bytes were read. -/
def Cursor.LeadsTo (c c' : Cursor) : Prop :=
  ∃ taken, c.rest = taken ++ c'.rest ∧ c'.position = c.position + taken.length

namespace Cursor.LeadsTo

theorem refl (c : Cursor) : c.LeadsTo c := ⟨[], by simp⟩

theorem trans {a b c : Cursor} (hab : a.LeadsTo b) (hbc : b.LeadsTo c) : a.LeadsTo c := by
  obtain ⟨xs, hx, hxp⟩ := hab
  obtain ⟨ys, hy, hyp⟩ := hbc
  exact ⟨xs ++ ys, by simp [hx, hy], by simp [hxp, hyp]; omega⟩

theorem length_le {c c' : Cursor} (h : c.LeadsTo c') : c'.rest.length ≤ c.rest.length := by
  obtain ⟨xs, hx, -⟩ := h
  simp [hx]

end Cursor.LeadsTo

namespace Reads

variable {ε ε' α β : Type}

/-- The cursor that a read ends at. -/
def endOf : EStateM.Result ε Cursor α → Cursor
  | .ok _ c => c
  | .error _ c => c

/-- The read goes forward from every cursor. -/
def Forward (step : Reads ε α) : Prop := ∀ c : Cursor, c.LeadsTo (endOf (step c))

theorem Forward.ok {step : Reads ε α} (h : Forward step) {c c' : Cursor} {a : α}
    (hs : step c = .ok a c') : c.LeadsTo c' := by
  have := h c
  rwa [hs] at this

theorem Forward.pure (a : α) : Forward (Pure.pure a : Reads ε α) := fun c => .refl c

theorem Forward.throw (e : ε) : Forward (MonadExcept.throw e : Reads ε α) := fun c => .refl c

theorem Forward.ite {p : Prop} [Decidable p] {yes no : Reads ε α} (hy : Forward yes)
    (hn : Forward no) : Forward (if p then yes else no) := by
  split
  · exact hy
  · exact hn

theorem Forward.bind {step : Reads ε α} {next : α → Reads ε β} (h : Forward step)
    (hn : ∀ a, Forward (next a)) : Forward (step >>= next) := by
  intro c
  have hc := h c
  show c.LeadsTo (endOf (EStateM.bind step next c))
  unfold EStateM.bind
  cases hs : step c with
  | ok a c' =>
    rw [hs] at hc
    exact hc.trans (hn a c')
  | error e c' =>
    rw [hs] at hc
    exact hc

theorem Forward.adapt {step : Reads ε α} (f : ε → ε') (h : Forward step) :
    Forward (EStateM.adaptExcept f step) := by
  intro c
  have hc := h c
  show c.LeadsTo (endOf (EStateM.adaptExcept f step c))
  unfold EStateM.adaptExcept
  cases hs : step c with
  | ok a c' => rw [hs] at hc; exact hc
  | error e c' => rw [hs] at hc; exact hc

theorem Forward.times {one : Reads ε α} (h : Forward one) (count : Nat) :
    Forward (times count one) := by
  suffices hgo : ∀ (count : Nat) (done : List α), Forward (times.go one count done) from
    hgo count []
  intro count
  induction count with
  | zero => intro done; exact Forward.pure _
  | succ count ih => intro done; exact Forward.bind h fun a => ih (a :: done)

end Reads

namespace Cursor

theorem forward_take (n : Nat) : Reads.Forward (take n) := by
  intro c
  unfold take
  split
  · next fits =>
    have := hasAtLeast_iff.1 fits
    exact ⟨c.rest.take n, by simp [Reads.endOf], by simp [Reads.endOf, Nat.min_eq_left this]⟩
  · exact .refl c

theorem forward_skip (n : Nat) : Reads.Forward (skip n) :=
  Reads.Forward.bind (forward_take n) fun _ => Reads.Forward.pure _

theorem forward_byte : Reads.Forward byte := by
  intro c
  unfold byte
  split
  · next b rest h => exact ⟨[b], by simp [Reads.endOf, h], rfl⟩
  · exact .refl c

theorem forward_word : Reads.Forward word := by
  intro c
  unfold word
  split
  · next low high rest h => exact ⟨[low, high], by simp [Reads.endOf, h], rfl⟩
  · exact .refl c

theorem forward_quad : Reads.Forward quad :=
  Reads.Forward.bind (forward_take 8) fun _ => Reads.Forward.pure _

end Cursor

end CellFormula
