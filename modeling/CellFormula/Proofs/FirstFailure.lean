import CellFormula.Proofs.Accepts
import CellFormula.Proofs.RowMajor

/-!
# The first failure wins

Going through a list with a function that may fail gives all the answers, or the failure of the
first element that has one. The same holds of matrices, whose cells are gone through row by row:
what is first there is said in rows and columns, not in places of a list.

## Main results

* `mapM_eq_ok`, `mapM_eq_error_iff` — lists
* `Matrix.traverse_eq_ok_iff`, `Matrix.traverse_eq_error_iff` — matrices
-/

namespace CellFormula

/-! ### Answers that are changed -/

section

variable {α β ε : Type} {f : α → β} {x : Except ε α}

theorem except_map_eq_ok {b : β} : x.map f = .ok b ↔ ∃ a, x = .ok a ∧ f a = b := by
  cases x <;> simp [Except.map]

theorem except_map_eq_error {e : ε} : x.map f = .error e ↔ x = .error e := by
  cases x <;> simp [Except.map]

end

/-! ### Lists -/

/-- Either all elements have a property, or there is a first one that does not. -/
theorem forall_mem_or_exists_first {α : Type} (p : α → Prop) (as : List α) :
    (∀ a ∈ as, p a) ∨
      ∃ before a after, as = before ++ a :: after ∧ (∀ b ∈ before, p b) ∧ ¬ p a := by
  induction as with
  | nil => exact .inl fun a ha => absurd ha List.not_mem_nil
  | cons a as ih =>
    by_cases ha : p a
    · obtain hall | ⟨before, b, after, rfl, hbefore, hb⟩ := ih
      · exact .inl (List.forall_mem_cons.mpr ⟨ha, hall⟩)
      · exact .inr ⟨a :: before, b, after, rfl, List.forall_mem_cons.mpr ⟨ha, hbefore⟩, hb⟩
    · exact .inr ⟨[], a, as, rfl, fun b hb => absurd hb List.not_mem_nil, ha⟩

section

variable {α β ε : Type} {f : α → Except ε β} {as : List α} {e : ε}

theorem mapM_eq_ok {bs : List β} :
    as.mapM f = .ok bs ↔ List.Forall₂ (fun a b => f a = .ok b) as bs := by
  induction as generalizing bs with
  | nil =>
    rw [List.mapM_nil, List.forall₂_nil_left_iff]
    exact ⟨fun h => (Except.ok.inj h).symm, fun h => congrArg Except.ok h.symm⟩
  | cons a as ih =>
    rw [List.mapM_cons, List.forall₂_cons_left_iff, except_bind_eq_ok]
    constructor
    · rintro ⟨b, ha, h⟩
      obtain ⟨bs', hbs', h⟩ := except_bind_eq_ok.mp h
      cases h
      exact ⟨b, bs', ha, ih.mp hbs', rfl⟩
    · rintro ⟨b, bs', ha, hbs', rfl⟩
      exact ⟨b, ha, except_bind_eq_ok.mpr ⟨bs', ih.mpr hbs', rfl⟩⟩

theorem exists_mapM_eq_ok (h : ∀ a ∈ as, ∃ b, f a = .ok b) : ∃ bs, as.mapM f = .ok bs := by
  induction as with
  | nil => exact ⟨[], rfl⟩
  | cons a as ih =>
    obtain ⟨⟨b, hb⟩, has⟩ := List.forall_mem_cons.mp h
    obtain ⟨bs, hbs⟩ := ih has
    exact ⟨b :: bs, by rw [List.mapM_cons, hb, hbs]; rfl⟩

/-- Going through a list fails as its first failing element does. -/
theorem mapM_eq_error {before after : List α} {a : α}
    (hbefore : ∀ b ∈ before, ∃ c, f b = .ok c)
    (ha : f a = .error e) : (before ++ a :: after).mapM f = .error e := by
  obtain ⟨cs, hcs⟩ := exists_mapM_eq_ok hbefore
  rw [List.mapM_append, hcs, List.mapM_cons, ha]
  rfl

/-- It fails in no other way. -/
theorem mapM_eq_error_iff :
    as.mapM f = .error e ↔ ∃ before a after, as = before ++ a :: after ∧
      (∀ b ∈ before, ∃ c, f b = .ok c) ∧ f a = .error e := by
  constructor
  · intro h
    rcases forall_mem_or_exists_first (fun a => ∃ b, f a = .ok b) as with
      hall | ⟨before, a, after, rfl, hbefore, ha⟩
    · obtain ⟨bs, hbs⟩ := exists_mapM_eq_ok hall
      rw [hbs] at h
      cases h
    · cases hfa : f a with
      | ok b => exact absurd ⟨b, hfa⟩ ha
      | error e' =>
        have hfirst : (before ++ a :: after).mapM f = .error e' := mapM_eq_error hbefore hfa
        rw [h] at hfirst
        cases hfirst
        exact ⟨before, a, after, rfl, hbefore, hfa⟩
  · rintro ⟨before, a, after, rfl, hbefore, ha⟩
    exact mapM_eq_error hbefore ha

end

/-! ### Matrices -/

namespace Matrix

variable {α β ε : Type} {f : α → Except ε β} {m : Matrix α} {m' : Matrix β} {e : ε}

theorem traverse_eq (f : α → Except ε β) (m : Matrix α) :
    m.traverse f = (m.cells.toList.mapM f).map fun bs => ⟨m.rows, m.cols, bs.toArray⟩ := by
  rw [traverse, ← Array.toList_mapM]
  cases m.cells.mapM f <;> rfl

/-- A cell and what it becomes are at the same place. -/
theorem exists_of_traverse (h : m.traverse f = .ok m') :
    m'.rows = m.rows ∧ m'.cols = m.cols ∧ m'.cells.size = m.cells.size ∧
      ∀ r c x, m.get? r c = some x → ∃ y, f x = .ok y ∧ m'.get? r c = some y := by
  rw [traverse_eq] at h
  obtain ⟨bs, hbs, rfl⟩ := except_map_eq_ok.mp h
  obtain ⟨hlength, heach⟩ := List.forall₂_iff_get.mp (mapM_eq_ok.mp hbs)
  refine ⟨rfl, rfl, hlength.symm, fun r c x hx => ?_⟩
  obtain ⟨hr, hc⟩ := lt_of_get?_eq_some hx
  rw [get?_of_lt hr hc] at hx
  obtain ⟨hplace, hcell⟩ := Array.getElem?_eq_some_iff.mp hx
  have hplace' : r * m.cols + c < bs.length := hlength ▸ hplace
  refine ⟨bs[r * m.cols + c], ?_, ?_⟩
  · rw [← hcell]
    exact heach _ hplace hplace'
  · have hinside : r * m.cols + c < bs.toArray.size := hplace'
    exact (if_pos ⟨hr, hc⟩).trans (Array.getElem?_eq_getElem hinside)

/-- If it fails, then as a cell does before which none fails, row by row. -/
theorem exists_first_of_traverse (hm : m.WellFormed) (h : m.traverse f = .error e) :
    ∃ r c x, m.get? r c = some x ∧ f x = .error e ∧
      ∀ r' c' x', r' < r ∨ r' = r ∧ c' < c → m.get? r' c' = some x' → ∃ y, f x' = .ok y := by
  rw [traverse_eq, except_map_eq_error, mapM_eq_error_iff] at h
  obtain ⟨before, a, after, hcells, hbefore, ha⟩ := h
  have hplace : before.length < m.rows * m.cols := by
    rw [← hm.2.2, ← Array.length_toList, hcells]
    simp
  obtain ⟨r, hr, c, hc, hat⟩ := exists_place hplace
  refine ⟨r, c, a, ?_, ha, fun r' c' x' hprecedes hx' => ?_⟩
  · rw [get?_of_lt hr hc, ← hat, ← Array.getElem?_toList, hcells, List.getElem?_append_right le_rfl,
      Nat.sub_self]
    rfl
  · obtain ⟨hr', hc'⟩ := lt_of_get?_eq_some hx'
    have hlt : r' * m.cols + c' < before.length := hat ▸ (place_lt_place_iff hc' hc).mpr hprecedes
    rw [get?_of_lt hr' hc', ← Array.getElem?_toList, hcells, List.getElem?_append_left hlt] at hx'
    exact hbefore x' (List.mem_of_getElem? hx')

/-- **It fails as the first failing cell does**, row by row. -/
theorem traverse_eq_error_iff (hm : m.WellFormed) :
    m.traverse f = .error e ↔ ∃ r c x, m.get? r c = some x ∧ f x = .error e ∧
      ∀ r' c' x', r' < r ∨ r' = r ∧ c' < c → m.get? r' c' = some x' → ∃ y, f x' = .ok y := by
  refine ⟨exists_first_of_traverse hm, ?_⟩
  rintro ⟨r, c, x, hx, hfails, hbefore⟩
  cases h : m.traverse f with
  | ok m' =>
    obtain ⟨y, hy, -⟩ := (exists_of_traverse h).2.2.2 r c x hx
    rw [hfails] at hy
    cases hy
  | error e' =>
    obtain ⟨r', c', x', hx', hfails', hbefore'⟩ := exists_first_of_traverse hm h
    -- Neither of the two cells comes before the other, because it would not fail then.
    have hnot : ¬ (r < r' ∨ r = r' ∧ c < c') := fun hprecedes => by
      obtain ⟨y, hy⟩ := hbefore' r c x hprecedes hx
      rw [hfails] at hy
      cases hy
    have hnot' : ¬ (r' < r ∨ r' = r ∧ c' < c) := fun hprecedes => by
      obtain ⟨y, hy⟩ := hbefore r' c' x' hprecedes hx'
      rw [hfails'] at hy
      cases hy
    obtain ⟨rfl, rfl⟩ : r = r' ∧ c = c' := by omega
    rw [hx] at hx'
    cases hx'
    rw [hfails] at hfails'
    rw [Except.error.inj hfails']

/-- **If no cell fails there is a matrix** of the same shape with what the cells become. -/
theorem traverse_eq_ok_iff (hm : m.WellFormed) :
    m.traverse f = .ok m' ↔ m'.WellFormed ∧ m'.rows = m.rows ∧ m'.cols = m.cols ∧
      ∀ r c x, m.get? r c = some x → ∃ y, f x = .ok y ∧ m'.get? r c = some y := by
  constructor
  · intro h
    obtain ⟨hrows, hcols, hsize, hcells⟩ := exists_of_traverse h
    refine ⟨⟨hrows.symm ▸ hm.1, hcols.symm ▸ hm.2.1, ?_⟩, hrows, hcols, hcells⟩
    rw [hsize, hrows, hcols]
    exact hm.2.2
  · rintro ⟨hm', hrows, hcols, hcells⟩
    cases h : m.traverse f with
    | error e =>
      obtain ⟨r, c, x, hx, hfails, -⟩ := exists_first_of_traverse hm h
      obtain ⟨y, hy, -⟩ := hcells r c x hx
      rw [hfails] at hy
      cases hy
    | ok m'' =>
      obtain ⟨hrows', hcols', hsize, hcells'⟩ := exists_of_traverse h
      refine congrArg Except.ok (ext_get? ?_ hm'.2.2 (hrows'.trans hrows.symm)
        (hcols'.trans hcols.symm) fun r hr c hc => ?_)
      · rw [hsize, hrows', hcols']
        exact hm.2.2
      · obtain ⟨x, hx⟩ := Option.isSome_iff_exists.mp
          ((isSome_get?_iff hm).mpr ⟨hrows' ▸ hr, hcols' ▸ hc⟩)
        obtain ⟨y, hy, hat⟩ := hcells r c x hx
        obtain ⟨y', hy', hat'⟩ := hcells' r c x hx
        rw [hy] at hy'
        rw [hat, hat', Except.ok.inj hy']

end Matrix

end CellFormula
