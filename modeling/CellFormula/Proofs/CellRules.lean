import CellFormula.Proofs.ArrayFormula

/-!
# Rules for the cells of areas

That no cell is an area again, that nothing was left out, that numbers are finite: these are facts
about what the cells of areas may be. A `CellRule` is such a fact. It allows every plain value, and
if it allows an area it allows the cells of it.

## What a value has to do with a rule

A value obeys a rule if its cells are allowed, or the value itself if it is no area. An argument
that was left out obeys every rule as long as it is an argument. It is put to the test when it
becomes a cell, and so is an area. Functions that are applied cell by cell never see an area as a
whole: an argument contributes a cell or, if it is no area, itself (`Value.Contributes`).

## Main definitions

* `CellRule`, `CellRule.plain`, `CellRule.throughout` — rules
* `Value.Obeys` — a value whose cells are allowed
* `Value.Occurs`, `Value.Throughout` — what is inside a value, at any depth
* `Value.Contributes` — what an argument contributes

## Main results

* `Value.obeys_of_obeys_plain` — plain cells obey every rule
* `obeys_broadcast` — functions that are applied cell by cell
* `CellRule.allows_compute` — operators
-/

namespace CellFormula

/-! ### Rules -/

/-- What the cells of areas may be. -/
structure CellRule where
  /-- The value may stand in a cell. -/
  Allows : Value → Prop
  /-- What is plain may stand in a cell. -/
  allows_of_isPlain : ∀ {v : Value}, v.IsPlain → Allows v
  /-- The cells of an area that may stand in a cell may do so too. -/
  allows_of_mem : ∀ {block : Area} {v : Value}, Allows (.area block) → v ∈ block.values → Allows v

/-- The strictest rule: all cells are plain. -/
def CellRule.plain : CellRule where
  Allows := Value.IsPlain
  allows_of_isPlain h := h
  allows_of_mem h := absurd h id

namespace Value

/-- The cells of the value are allowed, or the value itself if it is no area. -/
def Obeys (rule : CellRule) : Value → Prop
  | area block => ∀ v ∈ block.values, rule.Allows v
  | missing => True
  | v => rule.Allows v

/-- The first value is the second one, or it is inside a cell of it. -/
inductive Occurs (u : Value) : Value → Prop
  | self : Occurs u u
  | cell {block : Area} {v : Value} (mem : v ∈ block.values) (inside : Occurs u v) :
    Occurs u (area block)

/-- All that is inside the value has the property, the value itself included. -/
def Throughout (p : Value → Prop) (v : Value) : Prop := ∀ u, u.Occurs v → p u

variable {p : Value → Prop} {v : Value} {block : Area}

theorem throughout_area_iff :
    (area block).Throughout p ↔ p (area block) ∧ ∀ v ∈ block.values, v.Throughout p := by
  constructor
  · intro h
    exact ⟨h _ .self, fun v hv u hu => h u (.cell hv hu)⟩
  · rintro ⟨harea, hcells⟩ u hu
    cases hu with
    | self => exact harea
    | cell hmem hinside => exact hcells _ hmem u hinside

theorem throughout_of_not_isArea (hv : ¬ v.IsArea) (h : p v) : v.Throughout p := by
  intro u hu
  cases hu with
  | self => exact h
  | cell => exact absurd trivial hv

end Value

/-- The rule that a property holds throughout each cell. -/
def CellRule.throughout (p : Value → Prop) (hplain : ∀ v : Value, v.IsPlain → p v) : CellRule where
  Allows := Value.Throughout p
  allows_of_isPlain h := Value.throughout_of_not_isArea (Value.not_isArea_of_isPlain h) (hplain _ h)
  allows_of_mem h hmem := (Value.throughout_area_iff.mp h).2 _ hmem

namespace Value

variable {rule : CellRule} {v : Value}

/-- What may stand in a cell obeys the rule. -/
theorem obeys_of_allows (h : rule.Allows v) : v.Obeys rule := by
  cases v with
  | area block => exact fun u hu => rule.allows_of_mem h hu
  | missing => trivial
  | _ => exact h

theorem obeys_of_isPlain (h : v.IsPlain) : v.Obeys rule :=
  obeys_of_allows (rule.allows_of_isPlain h)

/-- **Plain cells obey every rule.** -/
theorem obeys_of_obeys_plain (h : v.Obeys .plain) : v.Obeys rule := by
  cases v with
  | area block => exact fun u hu => rule.allows_of_isPlain (h u hu)
  | missing => trivial
  | _ => exact rule.allows_of_isPlain h

theorem allows_of_obeys (h : v.Obeys rule) (harea : ¬ v.IsArea) (hgiven : v ≠ .missing) :
    rule.Allows v := by
  cases v with
  | area block => exact absurd trivial harea
  | missing => exact absurd rfl hgiven
  | _ => exact h

/-- A number that is not finite is replaced by a number error, and nothing else changes. -/
theorem Obeys.normalize (h : v.Obeys rule) : v.normalize.Obeys rule := by
  cases v with
  | number x => exact obeys_of_isPlain (isPlain_ofNumber x)
  | _ => exact h

end Value

/-! ### Cell by cell -/

/-- What an argument contributes to a function that is applied cell by cell: one of its cells, or
itself if it is no area. -/
def Value.Contributes (v e : Value) : Prop :=
  match v with
  | area block => e ∈ block.values
  | v => e = v

namespace Value

variable {rule : CellRule} {v e : Value}

theorem contributes_of_not_isArea (h : ¬ v.IsArea) : v.Contributes v := by
  cases v with
  | area block => exact absurd trivial h
  | _ => rfl

/-- What is contributed may stand in a cell, unless it is an argument that was left out. -/
theorem Contributes.allows_or (h : v.Contributes e) (hv : v.Obeys rule) :
    rule.Allows e ∨ v = .missing ∧ e = .missing := by
  cases v with
  | area block => exact .inl (hv e h)
  | missing => exact .inr ⟨rfl, h⟩
  | _ => cases h; exact .inl hv

end Value

namespace Matrix

variable {α : Type} {rows cols row col : Nat}

theorem mem_of_get? {m : Matrix α} {a : α} (h : m.get? row col = some a) : a ∈ m.cells.toList := by
  rw [get?] at h
  split at h
  · exact Array.mem_toList_iff.mpr (Array.mem_of_getElem? h)
  · cases h

theorem exists_of_mem_generate {f : Nat → Nat → α} {m : Matrix α} (h : generate rows cols f = .ok m)
    {a : α} (ha : a ∈ m.cells.toList) : ∃ row col, f row col = a := by
  rw [generate] at h
  split at h
  · cases h
  · cases h
    obtain ⟨i, hi⟩ := Array.mem_ofFn.mp (Array.mem_toList_iff.mp ha)
    exact ⟨_, _, hi⟩

end Matrix

/-- What the related members of one list have, the members of the other list have. -/
theorem forall_of_forall₂ {α β : Type} {R : α → β → Prop} {p : α → Prop} {q : β → Prop}
    (hR : ∀ a b, R a b → p a → q b) {as : List α} {bs : List β} (h : List.Forall₂ R as bs)
    (has : ∀ a ∈ as, p a) : ∀ b ∈ bs, q b := by
  induction h with
  | nil => exact fun b hb => absurd hb List.not_mem_nil
  | cons hab _ ih =>
    obtain ⟨ha, hrest⟩ := List.forall_mem_cons.mp has
    exact List.forall_mem_cons.mpr ⟨hR _ _ hab ha, ih hrest⟩

theorem CellRule.allows_or_of_contributes {rule : CellRule} {args elements : List Value}
    (helements : List.Forall₂ Value.Contributes args elements) (h : ∀ v ∈ args, v.Obeys rule) :
    ∀ e ∈ elements, rule.Allows e ∨ e = .missing :=
  forall_of_forall₂ (fun _ _ he hv => (he.allows_or hv).imp_right And.right) helements h

theorem contributes_of_elementAt? {v e : Value} {row col : Nat}
    (h : elementAt? row col v = some e) :
    v.Contributes e := by
  cases v with
  | area block => exact Matrix.mem_of_get? h
  | _ => exact (Option.some.inj h).symm

theorem contributes_of_elementsAt? {args elements : List Value} {row col : Nat}
    (h : elementsAt? args row col = some elements) :
    List.Forall₂ Value.Contributes args elements :=
  (elementsAt?_eq_some_iff.mp h).imp fun _ _ => contributes_of_elementAt?

/-- Arguments without an area among them contribute themselves. -/
theorem contributes_self {args : List Value} (h : areasOf args = []) :
    List.Forall₂ Value.Contributes args args := by
  refine List.forall₂_same.mpr fun v hv => Value.contributes_of_not_isArea fun harea => ?_
  cases v with
  | area block => exact absurd (mem_areasOf.mpr hv) (by rw [h]; exact List.not_mem_nil)
  | _ => exact harea

/-- **A function that is applied cell by cell** obeys the rule if it makes allowed values of what
its arguments contribute. -/
theorem obeys_broadcast {rule : CellRule} {args : List Value} {f : List Value → Value}
    (hf : ∀ elements, List.Forall₂ Value.Contributes args elements → rule.Allows (f elements)) :
    (broadcast args f).Obeys rule := by
  rw [broadcast]
  split
  · next hareas => exact Value.obeys_of_allows (hf args (contributes_self hareas))
  · next anchor others hareas =>
    dsimp only
    split
    · next cells hcells =>
      intro v hv
      obtain ⟨row, col, rfl⟩ := Matrix.exists_of_mem_generate hcells hv
      rw [broadcastCell]
      split
      · next elements helements => exact hf elements (contributes_of_elementsAt? helements)
      · exact rule.allows_of_isPlain trivial
    · exact Value.obeys_of_isPlain trivial

/-- Two functions give the same, cell by cell, if they agree on what the arguments contribute. -/
theorem broadcast_congr_contributed {args : List Value} {f g : List Value → Value}
    (h : ∀ elements, List.Forall₂ Value.Contributes args elements → f elements = g elements) :
    broadcast args f = broadcast args g := by
  have hcell : broadcastCell args f = broadcastCell args g := by
    funext row col
    rw [broadcastCell, broadcastCell]
    cases helements : elementsAt? args row col with
    | none => rfl
    | some elements => exact h elements (contributes_of_elementsAt? helements)
  rw [broadcast, broadcast, hcell]
  cases hareas : areasOf args with
  | nil => exact h args (contributes_self hareas)
  | cons anchor others => rfl

/-! ### Operators -/

namespace CellRule

variable {rule : CellRule}

/-- Of operators only a plus sign hands on its operand, and it makes one that was left out a blank
cell. -/
theorem allows_compute (op : Operator) {elements : List Value}
    (h : ∀ e ∈ elements, rule.Allows e ∨ e = .missing) : rule.Allows (op.compute elements) := by
  match elements with
  | [] => exact rule.allows_of_isPlain trivial
  | [e] =>
    have he := h e (List.mem_singleton.mpr rfl)
    cases op with
    | unaryPlus =>
      obtain hallows | rfl := he
      · cases e with
        | missing => exact rule.allows_of_isPlain trivial
        | _ => exact hallows
      · exact rule.allows_of_isPlain trivial
    | unaryMinus | percent => exact rule.allows_of_isPlain (Value.isPlain_ofResult _)
    | _ => exact rule.allows_of_isPlain trivial
  | [l, r] => exact rule.allows_of_isPlain (op.isPlain_computeBinary l r)
  | _ :: _ :: _ :: _ => exact rule.allows_of_isPlain trivial

/-- **Operators obey every rule** that their operands obey. -/
theorem obeys_broadcast_compute (op : Operator) {args : List Value}
    (h : ∀ v ∈ args, v.Obeys rule) : (broadcast args op.compute).Obeys rule :=
  obeys_broadcast fun _ helements => allows_compute op (allows_or_of_contributes helements h)

end CellRule

end CellFormula
