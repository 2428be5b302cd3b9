import CellFormula.Proofs.FirstFailure
import CellFormula.Proofs.RowLoops

/-!
# What matrices can be made

Nothing in the type of matrices keeps one from having no rows or too few cells. But no operation
makes such a matrix, of whatever it is given: those that take cells or a shape refuse what does not
fit, and those that take matrices keep the fit of their cells. `Made` is the family of all matrices
that come about, by any operations in any order, and `Made.wellFormed` goes through its
constructors.

## Main definitions

* `Matrix.Made` — the matrices that operations make

## Main results

* `Matrix.shape_of_multiply`, `Matrix.shape_of_inverse` — the shapes of computed matrices
* `Matrix.get?_transpose`, `Matrix.transpose_transpose` — rows and columns exchanged
* `Matrix.Made.wellFormed` — what is made is well formed
-/

namespace CellFormula

namespace Matrix

variable {α β ε : Type} {m : Matrix α} {rows cols r c : Nat}

/-! ### Single operations -/

theorem shape_of_ofCells {cells : Array α} (h : ofCells rows cols cells = .ok m) :
    m.rows = rows ∧ m.cols = cols := by
  rw [ofCells] at h
  split at h
  · cases h
  · split at h
    · cases h
      exact ⟨rfl, rfl⟩
    · cases h

theorem wellFormed_of_filled {x : α} (h : filled rows cols x = .ok m) : m.WellFormed := by
  rw [filled] at h
  split at h
  · cases h
  · obtain ⟨hr, hc⟩ : 0 < rows ∧ 0 < cols := by omega
    cases h
    exact ⟨hr, hc, Array.size_replicate⟩

theorem wellFormed_single (x : α) : (single x).WellFormed := ⟨Nat.one_pos, Nat.one_pos, rfl⟩

theorem wellFormed_of_set? {m' : Matrix α} {x : α} (h : m.WellFormed)
    (hset : m.set? r c x = some m') : m'.WellFormed := by
  rw [set?] at hset
  split at hset
  · cases hset
    refine ⟨h.1, h.2.1, ?_⟩
    rw [Array.size_setIfInBounds]
    exact h.2.2
  · cases hset

/-- **A matrix that is turned around** has each cell with its row and its column exchanged. -/
theorem get?_transpose (h : m.WellFormed) (r c : Nat) : m.transpose.get? c r = m.get? r c := by
  obtain ⟨cell, hcell⟩ := exists_eq_tabulate h
  rw [hcell, transpose_tabulate, get?_tabulate_eq, get?_tabulate_eq]
  exact if_congr and_comm rfl rfl

theorem wellFormed_transpose (h : m.WellFormed) : m.transpose.WellFormed := by
  obtain ⟨cell, hcell⟩ := exists_eq_tabulate h
  rw [hcell, transpose_tabulate]
  exact wellFormed_tabulate _ h.2.1 h.1

/-- **Turned around twice** it is the matrix that it was. -/
theorem transpose_transpose (h : m.WellFormed) : m.transpose.transpose = m := by
  obtain ⟨cell, hcell⟩ := exists_eq_tabulate h
  rw [hcell, transpose_tabulate, transpose_tabulate]

section

variable [PivotNumber α] {a b : Matrix α}

theorem shape_of_multiply (h : a.multiply b = .ok m) :
    a.cols = b.rows ∧ m.rows = a.rows ∧ m.cols = b.cols := by
  rw [multiply] at h
  split at h
  · next hinner => exact ⟨hinner, shape_of_ofCells h⟩
  · cases h

theorem wellFormed_of_multiply (h : a.multiply b = .ok m) : m.WellFormed := by
  rw [multiply] at h
  split at h
  · exact wellFormed_of_ofCells h
  · cases h

/-- There is no inverse but of a square matrix. -/
theorem rows_eq_cols_of_inverse (h : a.inverse = .ok m) : a.rows = a.cols := by
  rw [inverse] at h
  split at h
  · next hsquare => exact hsquare
  · cases h

/-- The inverse is a square matrix like the one that is inverted. -/
theorem shape_of_inverse (h : a.inverse = .ok m) :
    m.WellFormed ∧ m.rows = a.rows ∧ m.cols = a.cols := by
  have hsquare := rows_eq_cols_of_inverse h
  rw [inverse, if_pos hsquare] at h
  obtain ⟨unit, -, h⟩ := except_bind_eq_ok.mp h
  obtain ⟨cells, -, h⟩ := except_bind_eq_ok.mp h
  obtain ⟨hrows, hcols⟩ := shape_of_ofCells h
  exact ⟨wellFormed_of_ofCells h, hrows, hcols.trans hsquare⟩

end

/-! ### Any operations in any order -/

/-- The matrices that operations make, of cells, of shapes, and of matrices that they have made. -/
inductive Made : {α : Type} → Matrix α → Prop
  | ofCells {α : Type} {m : Matrix α} {rows cols : Nat} {cells : Array α}
    (h : Matrix.ofCells rows cols cells = .ok m) : Made m
  | generate {α : Type} {m : Matrix α} {rows cols : Nat} {f : Nat → Nat → α}
    (h : Matrix.generate rows cols f = .ok m) : Made m
  | filled {α : Type} {m : Matrix α} {rows cols : Nat} {x : α}
    (h : Matrix.filled rows cols x = .ok m) : Made m
  | single {α : Type} (x : α) : Made (Matrix.single x)
  | identity {α : Type} [PivotNumber α] {m : Matrix α} {n : Nat}
    (h : Matrix.identity n = .ok m) : Made m
  | set {α : Type} {m m' : Matrix α} {r c : Nat} {x : α} (hm : Made m)
    (h : m.set? r c x = some m') : Made m'
  | map {α β : Type} {m : Matrix α} (f : α → β) (hm : Made m) : Made (m.map f)
  | traverse {α β ε : Type} {m : Matrix α} {m' : Matrix β} {f : α → Except ε β} (hm : Made m)
    (h : m.traverse f = .ok m') : Made m'
  | transpose {α : Type} {m : Matrix α} (hm : Made m) : Made m.transpose
  | multiply {α : Type} [PivotNumber α] {a b m : Matrix α} (ha : Made a) (hb : Made b)
    (h : a.multiply b = .ok m) : Made m
  | inverse {α : Type} [PivotNumber α] {a m : Matrix α} (ha : Made a)
    (h : a.inverse = .ok m) : Made m

/-- **What is made is well formed.** The induction is on how the matrix was made. -/
theorem Made.wellFormed (h : Made m) : m.WellFormed := by
  induction h with
  | ofCells h => exact wellFormed_of_ofCells h
  | generate h => exact wellFormed_of_generate h
  | filled h => exact wellFormed_of_filled h
  | single x => exact wellFormed_single x
  | identity h => exact wellFormed_of_generate h
  | set _ h ih => exact wellFormed_of_set? ih h
  | map f _ ih => exact wellFormed_map f ih
  | traverse _ h ih => exact ((traverse_eq_ok_iff ih).mp h).1
  | transpose _ ih => exact wellFormed_transpose ih
  | multiply _ _ h => exact wellFormed_of_multiply h
  | inverse _ h _ => exact (shape_of_inverse h).1

end Matrix

end CellFormula
