import CellFormula.Evaluation.Broadcast
import Mathlib.Data.List.Forall2
import Mathlib.Order.Bounds.Basic

/-!
# Functions applied cell by cell

`broadcast` finds the shape of its result by going through the areas, and each cell by going through
all arguments. Both are said here without the way they are found: the extents of the result are the
greatest ones among the areas, and a cell is made of one element of each argument, or of none at all
as soon as one argument has no element there.

## Why the shape is asked to be positive

An area is not required to have cells, since its type cannot require it. Of areas without cells
nothing is computed, so the extents have to be known to be positive before the result is an area.
One position inside one area is enough for that.

## Main definitions

* `areaExtents` — the extents of the areas among some values

## Main results

* `isGreatest_foldl_max`, `exists_isGreatest_areaExtents` — the greatest extent
* `broadcast_of_isGreatest` — the result, by its extents and its cells
* `elementsAt?_eq_some_iff`, `elementsAt?_eq_none_iff` — the elements of a cell
-/

namespace CellFormula

variable {args : List Value}

/-! ### Extents -/

theorem mem_areasOf {block : Area} : block ∈ areasOf args ↔ .area block ∈ args := by
  rw [areasOf, List.mem_filterMap]
  constructor
  · rintro ⟨v, hv, hblock⟩
    cases v with
    | area b => cases hblock; exact hv
    | _ => cases hblock
  · intro hblock
    exact ⟨.area block, hblock, rfl⟩

theorem exists_areasOf_eq_cons {block : Area} (h : .area block ∈ args) :
    ∃ anchor others, areasOf args = anchor :: others :=
  List.exists_cons_of_ne_nil (List.ne_nil_of_mem (mem_areasOf.mpr h))

/-- The extents that the areas among the values have along an axis. -/
def areaExtents (extent : Area → Nat) (args : List Value) : Set Nat :=
  {n | ∃ block, .area block ∈ args ∧ extent block = n}

/-- The search for the greatest extent finds it, beginning with any number. -/
theorem isGreatest_foldl_max_insert (extent : Area → Nat) (blocks : List Area) (n : Nat) :
    IsGreatest {k | k = n ∨ ∃ block ∈ blocks, extent block = k}
      (blocks.foldl (fun k block => max k (extent block)) n) := by
  induction blocks generalizing n with
  | nil =>
    refine ⟨.inl rfl, ?_⟩
    rintro k (rfl | ⟨block, hblock, -⟩)
    · exact Nat.le_refl _
    · exact absurd hblock List.not_mem_nil
  | cons block blocks ih =>
    obtain ⟨hmem, hbound⟩ := ih (max n (extent block))
    have hstart : max n (extent block) ≤ _ := hbound (.inl rfl)
    refine ⟨?_, ?_⟩
    · obtain hmax | ⟨other, hother, hextent⟩ := hmem
      · rcases Nat.le_total n (extent block) with h | h
        · exact .inr ⟨block, List.mem_cons_self, (hmax.trans (Nat.max_eq_right h)).symm⟩
        · exact .inl (hmax.trans (Nat.max_eq_left h))
      · exact .inr ⟨other, List.mem_cons_of_mem _ hother, hextent⟩
    · rintro k (rfl | ⟨other, hother, rfl⟩)
      · exact (Nat.le_max_left ..).trans hstart
      · obtain rfl | hother := List.mem_cons.mp hother
        · exact (Nat.le_max_right ..).trans hstart
        · exact hbound (.inr ⟨other, hother, rfl⟩)

/-- **The search among the areas finds the greatest extent.** -/
theorem isGreatest_foldl_max {anchor : Area} {others : List Area}
    (h : areasOf args = anchor :: others) (extent : Area → Nat) :
    IsGreatest (areaExtents extent args)
      (others.foldl (fun n block => max n (extent block)) (extent anchor)) := by
  have hset : areaExtents extent args
      = {k | k = extent anchor ∨ ∃ block ∈ others, extent block = k} := by
    ext n
    change (∃ block, .area block ∈ args ∧ extent block = n) ↔ n = extent anchor ∨ _
    simp only [← mem_areasOf, h, List.mem_cons, or_and_right, exists_or, exists_eq_left,
      eq_comm (a := n)]
  rw [hset]
  exact isGreatest_foldl_max_insert extent others (extent anchor)

theorem exists_isGreatest_areaExtents {block : Area} (h : .area block ∈ args)
    (extent : Area → Nat) : ∃ n, IsGreatest (areaExtents extent args) n := by
  obtain ⟨anchor, others, hareas⟩ := exists_areasOf_eq_cons h
  exact ⟨_, isGreatest_foldl_max hareas extent⟩

/-- **What is computed cell by cell** has the greatest extents of the areas among the arguments, and
its cells are computed one by one. Where it begins does not depend on the function. -/
theorem broadcast_of_isGreatest {rows cols : Nat}
    (hrows : IsGreatest (areaExtents Block.rows args) rows)
    (hcols : IsGreatest (areaExtents Block.cols args) cols) (hrowsPos : 0 < rows)
    (hcolsPos : 0 < cols) :
    ∃ firstRow firstCol, ∀ f, broadcast args f
      = .area ⟨firstRow, firstCol, Matrix.tabulate rows cols (broadcastCell args f)⟩ := by
  obtain ⟨block, hblock, -⟩ := hrows.1
  obtain ⟨anchor, others, hareas⟩ := exists_areasOf_eq_cons hblock
  refine ⟨anchor.firstRow, anchor.firstCol, fun f => ?_⟩
  have hgenerate : Matrix.generate rows cols (broadcastCell args f)
      = .ok (Matrix.tabulate rows cols (broadcastCell args f)) := if_neg (by omega)
  simp only [broadcast, hareas, (isGreatest_foldl_max hareas Block.rows).unique hrows,
    (isGreatest_foldl_max hareas Block.cols).unique hcols, hgenerate]

/-! ### Elements -/

/-- **A position has these elements** if each argument contributes its own. -/
theorem elementsAt?_eq_some_iff {row col : Nat} {elements : List Value} :
    elementsAt? args row col = some elements ↔
      List.Forall₂ (fun v e => elementAt? row col v = some e) args elements := by
  rw [elementsAt?]
  induction args generalizing elements with
  | nil =>
    rw [List.mapM_nil, List.forall₂_nil_left_iff]
    exact ⟨fun h => (Option.some.inj h).symm, fun h => congrArg some h.symm⟩
  | cons v args ih =>
    rw [List.mapM_cons, List.forall₂_cons_left_iff]
    constructor
    · intro h
      obtain ⟨e, he, h⟩ := Option.bind_eq_some_iff.mp h
      obtain ⟨es, hes, h⟩ := Option.bind_eq_some_iff.mp h
      exact ⟨e, es, he, ih.mp hes, (Option.some.inj h).symm⟩
    · rintro ⟨e, es, he, hes, rfl⟩
      rw [he, ih.mpr hes]
      rfl

/-- **It has none** as soon as one argument contributes nothing. -/
theorem elementsAt?_eq_none_iff {row col : Nat} :
    elementsAt? args row col = none ↔ ∃ v ∈ args, elementAt? row col v = none := by
  rw [elementsAt?]
  induction args with
  | nil => exact iff_of_false nofun fun ⟨v, hv, _⟩ => List.not_mem_nil hv
  | cons v args ih =>
    rw [List.mapM_cons, List.exists_mem_cons_iff, ← ih]
    cases elementAt? row col v with
    | none => exact iff_of_true rfl (.inl rfl)
    | some e => cases List.mapM (elementAt? row col) args <;> simp

end CellFormula
