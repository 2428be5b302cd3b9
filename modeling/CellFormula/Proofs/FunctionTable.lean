import CellFormula.Worksheet.Table
import Mathlib.Data.List.Nodup

/-!
# What a function table binds

Binding an index changes what is found under that index and nothing else, whatever order the
bindings are kept in. The built-in functions are bound under the indices that the catalogue gives
to their names, no two of them under the same one, so each of them is found.

## Main results

* `find?_bind` — what is found after binding
* `find?_builtin` — every built-in function is found
* `exists_builtin_of_find?` — and nothing else is
-/

namespace CellFormula.Worksheet

theorem lookup_binding (i index : UInt16) (f : Implementation)
    (rest : List (UInt16 × Implementation)) :
    ((index, f) :: rest).lookup i = if i = index then some f else rest.lookup i := by
  rw [List.lookup_cons]
  by_cases h : i = index
  · rw [if_pos h, beq_iff_eq.mpr h]
  · rw [if_neg h, beq_eq_false_iff_ne.mpr h]

theorem lookup_insertBinding (index i : UInt16) (f : Implementation)
    (bindings : List (UInt16 × Implementation)) :
    (insertBinding index f bindings).lookup i
      = if i = index then some f else bindings.lookup i := by
  induction bindings with
  | nil => exact lookup_binding i index f []
  | cons binding rest ih =>
    obtain ⟨j, g⟩ := binding
    rw [insertBinding]
    by_cases hbefore : index < j
    · rw [if_pos hbefore, lookup_binding]
    · rw [if_neg hbefore]
      by_cases hsame : index = j
      · subst hsame
        rw [if_pos rfl, lookup_binding, lookup_binding]
        by_cases h : i = index <;> simp [h]
      · rw [if_neg hsame, lookup_binding, lookup_binding, ih]
        by_cases hj : i = j
        · have hother : ¬ i = index := fun h => hsame (h.symm.trans hj)
          rw [if_pos hj, if_neg hother, if_pos hj]
        · rw [if_neg hj, if_neg hj]

namespace FunctionTable

/-- **Binding an index** changes what is found there and nowhere else. -/
theorem find?_bind (t : FunctionTable) (index i : UInt16) (f : Implementation) :
    (t.bind index f).find? i = if i = index then some f else t.find? i :=
  lookup_insertBinding index i f t.bindings

end FunctionTable

/-! ### The built-in functions -/

/-- The index that the catalogue gives to the function. -/
def Builtin.index? (b : Builtin) : Option UInt16 := (functionNamed? b.name).map (·.index)

namespace FunctionTable

theorem find?_withBuiltin (t : FunctionTable) (b : Builtin) (i : UInt16) :
    (t.withBuiltin b).find? i
      = if b.index? = some i then some b.implementation else t.find? i := by
  rw [withBuiltin, bindNamed?, Builtin.index?]
  cases functionNamed? b.name with
  | none => simp
  | some info =>
    simp only [Option.map_some, find?_bind, Option.some.injEq, eq_comm]

theorem find?_foldl_of_ne {bs : List Builtin} {i : UInt16} (h : ∀ b ∈ bs, b.index? ≠ some i)
    (t : FunctionTable) : (bs.foldl withBuiltin t).find? i = t.find? i := by
  induction bs generalizing t with
  | nil => rfl
  | cons b bs ih =>
    obtain ⟨hb, hbs⟩ := List.forall_mem_cons.mp h
    rw [List.foldl_cons, ih hbs, find?_withBuiltin, if_neg hb]

/-- Of functions with different indices, each is found. -/
theorem find?_foldl {bs : List Builtin} (hdistinct : (bs.map Builtin.index?).Nodup) {b : Builtin}
    (hb : b ∈ bs) {i : UInt16} (hi : b.index? = some i) (t : FunctionTable) :
    (bs.foldl withBuiltin t).find? i = some b.implementation := by
  induction bs generalizing t with
  | nil => cases hb
  | cons b' bs ih =>
    rw [List.map_cons, List.nodup_cons] at hdistinct
    obtain ⟨hfirst, hrest⟩ := hdistinct
    rw [List.foldl_cons]
    cases hb with
    | head =>
      have hothers : ∀ b' ∈ bs, b'.index? ≠ some i := by
        intro b' hb' hsame
        rw [← hi] at hsame
        exact hfirst (List.mem_map.mpr ⟨b', hb', hsame⟩)
      rw [find?_foldl_of_ne hothers, find?_withBuiltin, if_pos hi]
    | tail _ hb => exact ih hrest hb _

end FunctionTable

/-- The indices of the built-in functions, in the order of their names. -/
theorem map_index?_builtins : builtins.map Builtin.index? =
    [24, 36, 5, 100, 77, 336, 16, 0, 169, 21, 35, 1, 25, 129, 126, 3, 198, 2, 128, 127, 115, 32, 22,
     109, 23, 112, 7, 163, 31, 6, 164, 165, 39, 10, 38, 37, 19, 337, 183, 116, 27, 213, 212, 76, 26,
     15, 20, 4, 17, 83, 118, 34, 197, 113].map some := by
  decide +kernel

theorem nodup_index?_builtins : (builtins.map Builtin.index?).Nodup := by
  rw [map_index?_builtins]
  decide +kernel

/-- **Every built-in function is found** under the index that the catalogue gives to its name. -/
theorem find?_builtin {b : Builtin} (hb : b ∈ builtins) {i : UInt16} (hi : b.index? = some i) :
    FunctionTable.builtin.find? i = some b.implementation :=
  FunctionTable.find?_foldl nodup_index?_builtins hb hi .empty

/-- **What is found is a built-in function**, the one whose name has the index. -/
theorem exists_builtin_of_find? {i : UInt16} {f : Implementation}
    (h : FunctionTable.builtin.find? i = some f) :
    ∃ b ∈ builtins, b.index? = some i ∧ b.implementation = f := by
  by_cases hbound : ∃ b ∈ builtins, b.index? = some i
  · obtain ⟨b, hb, hi⟩ := hbound
    exact ⟨b, hb, hi, Option.some.inj ((find?_builtin hb hi).symm.trans h)⟩
  · have hnone : ∀ b ∈ builtins, b.index? ≠ some i := fun b hb hi => hbound ⟨b, hb, hi⟩
    rw [FunctionTable.builtin, FunctionTable.find?_foldl_of_ne hnone] at h
    cases h

end CellFormula.Worksheet
