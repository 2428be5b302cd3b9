import CellFormula.Bytes.Progress
import CellFormula.Proofs.Digits
import Mathlib.Algebra.GroupWithZero.Nat
import Mathlib.Data.List.Forall2

/-!
# Layouts, and the reads that accept them

A layout says which bytes are a stored form of a value. It is a relation and not a function: fields
that carry nothing may hold anything, so one value has many stored forms. A read *accepts* a layout
when it succeeds exactly on the stored forms, gives the value, and stops right behind it.

## One statement for both directions

`Reads.Accepts` is an equivalence about a single read. From left to right it is soundness: what was
read is a stored form of the answer. From right to left it is completeness, and since it speaks of
whatever lies behind the stored form it composes. That no buffer begins with two stored forms is a
consequence, `Reads.Accepts.unique`, and is never assumed.

## Main definitions

* `Cursor.Passes` — one cursor lies some given bytes behind another
* `Layout`, `Layout.each` — stored forms of a value, and of a list of values one after the other
* `Reads.Accepts` — the read succeeds exactly on the stored forms; `Reads.Sound` is one half

## Main results

* `Reads.Accepts.bind`, `Reads.Accepts.map`, `Reads.Accepts.times`, `Reads.Accepts.located`
* `Cursor.accepts_take`, `Cursor.accepts_byte`, `Cursor.accepts_word`, `Cursor.accepts_quad`
* `Reads.Accepts.unique`
-/

namespace CellFormula

/-! ### Passing over bytes -/

/-- The second cursor lies behind these bytes, and they are what the first one has next. -/
def Cursor.Passes (c : Cursor) (bytes : List UInt8) (c' : Cursor) : Prop :=
  c.rest = bytes ++ c'.rest ∧ c'.position = c.position + bytes.length

namespace Cursor

theorem passes_nil {c c' : Cursor} : c.Passes [] c' ↔ c' = c := by
  obtain ⟨p, rest⟩ := c
  obtain ⟨p', rest'⟩ := c'
  simp only [Passes, List.nil_append, List.length_nil, Nat.add_zero, mk.injEq]
  constructor
  · rintro ⟨rfl, rfl⟩
    exact ⟨rfl, rfl⟩
  · rintro ⟨rfl, rfl⟩
    exact ⟨rfl, rfl⟩

theorem passes_append {c c'' : Cursor} {xs ys : List UInt8} :
    c.Passes (xs ++ ys) c'' ↔ ∃ c', c.Passes xs c' ∧ c'.Passes ys c'' := by
  constructor
  · rintro ⟨hrest, hposition⟩
    refine ⟨⟨c.position + xs.length, ys ++ c''.rest⟩, ⟨by simpa using hrest, rfl⟩, rfl, ?_⟩
    simpa [Nat.add_assoc] using hposition
  · rintro ⟨c', ⟨hrest, hposition⟩, hrest', hposition'⟩
    refine ⟨by rw [hrest, hrest', List.append_assoc], ?_⟩
    rw [hposition', hposition, List.length_append, Nat.add_assoc]

/-- The cursor behind the bytes that a buffer begins with. -/
theorem passes_mk (position : Nat) (bytes rest : List UInt8) :
    Passes ⟨position, bytes ++ rest⟩ bytes ⟨position + bytes.length, rest⟩ := ⟨rfl, rfl⟩

end Cursor

/-! ### Layouts -/

/-- Which bytes are a stored form of which value. -/
abbrev Layout (α : Type) := α → List UInt8 → Prop

/-- The stored forms of a list: a stored form of each element, one after the other. -/
def Layout.each {α : Type} (layout : Layout α) : Layout (List α) := fun as bytes =>
  ∃ pieces, List.Forall₂ layout as pieces ∧ pieces.flatten = bytes

namespace Layout

variable {α : Type} {layout : Layout α}

theorem each_nil {bytes : List UInt8} : layout.each [] bytes ↔ bytes = [] := by
  constructor
  · rintro ⟨pieces, hpieces, rfl⟩
    rw [List.forall₂_nil_left_iff.mp hpieces]
    rfl
  · rintro rfl
    exact ⟨[], .nil, rfl⟩

theorem each_cons {a : α} {as : List α} {bytes : List UInt8} :
    layout.each (a :: as) bytes ↔
      ∃ xs ys, layout a xs ∧ layout.each as ys ∧ xs ++ ys = bytes := by
  constructor
  · rintro ⟨pieces, hpieces, rfl⟩
    obtain ⟨xs, others, hxs, hothers, rfl⟩ := List.forall₂_cons_left_iff.mp hpieces
    exact ⟨xs, others.flatten, hxs, ⟨others, hothers, rfl⟩, rfl⟩
  · rintro ⟨xs, ys, hxs, ⟨others, hothers, rfl⟩, rfl⟩
    exact ⟨xs :: others, .cons hxs hothers, rfl⟩

/-- Two lists one after the other are stored one after the other. -/
theorem each_append {as as' : List α} {bytes : List UInt8} :
    layout.each (as ++ as') bytes ↔
      ∃ xs ys, layout.each as xs ∧ layout.each as' ys ∧ xs ++ ys = bytes := by
  induction as generalizing bytes with
  | nil => simp [each_nil]
  | cons a as ih =>
    rw [List.cons_append, each_cons]
    constructor
    · rintro ⟨xs, _, hxs, h, rfl⟩
      obtain ⟨ys, zs, hys, hzs, rfl⟩ := ih.mp h
      exact ⟨xs ++ ys, zs, each_cons.mpr ⟨xs, ys, hxs, hys, rfl⟩, hzs, List.append_assoc ..⟩
    · rintro ⟨_, zs, h, hzs, rfl⟩
      obtain ⟨xs, ys, hxs, hys, rfl⟩ := each_cons.mp h
      exact ⟨xs, ys ++ zs, hxs, ih.mpr ⟨ys, zs, hys, hzs, rfl⟩, (List.append_assoc ..).symm⟩

/-- If the stored forms of a value have one length, so have those of a list. -/
theorem length_of_each {size : α → Nat} {as : List α} {bytes : List UInt8}
    (h : layout.each as bytes) (hsize : ∀ a piece, layout a piece → piece.length = size a) :
    bytes.length = (as.map size).sum := by
  induction as generalizing bytes with
  | nil => rw [each_nil.mp h]; rfl
  | cons a as ih =>
    obtain ⟨xs, ys, hxs, hys, rfl⟩ := each_cons.mp h
    rw [List.length_append, hsize a xs hxs, ih hys, List.map_cons, List.sum_cons]

/-- If every value has one stored form only, so has every list. -/
theorem each_iff_flatMap {write : α → List UInt8}
    (hwrite : ∀ a bytes, layout a bytes ↔ bytes = write a) {as : List α} {bytes : List UInt8} :
    layout.each as bytes ↔ bytes = as.flatMap write := by
  induction as generalizing bytes with
  | nil => exact each_nil
  | cons a as ih =>
    rw [each_cons, List.flatMap_cons]
    constructor
    · rintro ⟨xs, ys, hxs, hys, rfl⟩
      rw [(hwrite a xs).mp hxs, ih.mp hys]
    · rintro rfl
      exact ⟨write a, as.flatMap write, (hwrite a _).mpr rfl, ih.mpr rfl, rfl⟩

/-- If no value has two stored forms that one buffer can begin with, then no buffer begins with a
list of values in two ways. -/
theorem pieces_unique {as : List α} {pieces pieces' : List (List UInt8)} {rest rest' : List UInt8}
    (h : List.Forall₂ layout as pieces) (h' : List.Forall₂ layout as pieces')
    (heq : pieces.flatten ++ rest = pieces'.flatten ++ rest')
    (hunique : ∀ {a : α} {xs ys xs' ys' : List UInt8}, layout a xs → layout a ys →
      xs ++ xs' = ys ++ ys' → xs = ys) : pieces = pieces' := by
  induction h generalizing pieces' with
  | nil => rw [List.forall₂_nil_left_iff.mp h']
  | cons hxs _ ih =>
    obtain ⟨ys, others, hys, hothers, rfl⟩ := List.forall₂_cons_left_iff.mp h'
    rw [List.flatten_cons, List.flatten_cons, List.append_assoc, List.append_assoc] at heq
    obtain rfl := hunique hxs hys heq
    rw [ih hothers (List.append_cancel_left heq)]

/-- If every stored form has one of another kind that is not longer, so have the stored forms of
a list. -/
theorem exists_shorter {other : Layout α} {as : List α} {pieces : List (List UInt8)}
    (h : List.Forall₂ layout as pieces) (hshorter : ∀ a bytes, layout a bytes →
      ∃ bytes', other a bytes' ∧ bytes'.length ≤ bytes.length) :
    ∃ pieces', List.Forall₂ other as pieces' ∧ pieces'.flatten.length ≤ pieces.flatten.length := by
  induction h with
  | nil => exact ⟨[], .nil, Nat.le_refl _⟩
  | cons hxs _ ih =>
    obtain ⟨xs', hxs', hle⟩ := hshorter _ _ hxs
    obtain ⟨others', hothers', hle'⟩ := ih
    refine ⟨xs' :: others', .cons hxs' hothers', ?_⟩
    simp only [List.flatten_cons, List.length_append]
    exact Nat.add_le_add hle hle'

end Layout

/-! ### Answers that are not errors -/

/-- Two computations one after the other give an answer if both do. -/
theorem except_bind_eq_ok {ε α β : Type} {x : Except ε α} {next : α → Except ε β} {b : β} :
    x >>= next = .ok b ↔ ∃ a, x = .ok a ∧ next a = .ok b := by
  cases x with
  | error e =>
    constructor
    · intro h
      cases h
    · rintro ⟨a, h, -⟩
      cases h
  | ok a =>
    constructor
    · intro h
      exact ⟨a, rfl, h⟩
    · rintro ⟨a', h, hnext⟩
      cases h
      exact hnext

/-! ### Reads that accept a layout -/

namespace Reads

variable {ε ε' α β : Type}

/-- The read succeeds exactly on the stored forms: it gives the value and stops behind it. -/
def Accepts (step : Reads ε α) (layout : Layout α) : Prop :=
  ∀ c a c', step c = .ok a c' ↔ ∃ bytes, layout a bytes ∧ c.Passes bytes c'

theorem bind_eq_ok {step : Reads ε α} {next : α → Reads ε β} {c c'' : Cursor} {b : β} :
    (step >>= next) c = .ok b c'' ↔ ∃ a c', step c = .ok a c' ∧ next a c' = .ok b c'' := by
  change EStateM.bind step next c = .ok b c'' ↔ _
  rw [EStateM.bind]
  cases hs : step c with
  | ok a c' =>
    constructor
    · intro h
      exact ⟨a, c', rfl, h⟩
    · rintro ⟨a', d, h, hn⟩
      cases h
      exact hn
  | error e c' =>
    constructor
    · intro h
      cases h
    · rintro ⟨a', d, h, -⟩
      cases h

theorem adaptExcept_eq_ok {step : Reads ε α} {f : ε → ε'} {c c' : Cursor} {a : α} :
    EStateM.adaptExcept f step c = .ok a c' ↔ step c = .ok a c' := by
  rw [EStateM.adaptExcept]
  cases step c with
  | ok b d =>
    constructor
    · intro h
      cases h
      rfl
    · intro h
      cases h
      rfl
  | error e d =>
    constructor
    · intro h
      cases h
    · intro h
      cases h

/-- One half of acceptance: what the read gives comes from a stored form. A read that tries one
kind of value after the other is treated by this half kind by kind. -/
def Sound (step : Reads ε α) (layout : Layout α) : Prop :=
  ∀ c a c', step c = .ok a c' → ∃ bytes, layout a bytes ∧ c.Passes bytes c'

theorem Sound.ite {p : Prop} [Decidable p] {yes no : Reads ε α} {layout : Layout α}
    (hyes : p → Sound yes layout) (hno : ¬ p → Sound no layout) :
    Sound (if p then yes else no) layout := by
  by_cases hp : p
  · rw [if_pos hp]
    exact hyes hp
  · rw [if_neg hp]
    exact hno hp

theorem Sound.throw (e : ε) (layout : Layout α) :
    Sound (MonadExcept.throw e : Reads ε α) layout := by
  intro c a c' h
  cases h

namespace Accepts

variable {step : Reads ε α} {layout other : Layout α}

theorem of_sound (hs : Sound step layout) (hc : ∀ a bytes c c', layout a bytes →
    c.Passes bytes c' → step c = .ok a c') : Accepts step layout := by
  intro c a c'
  constructor
  · exact hs c a c'
  · rintro ⟨bytes, hbytes, hpasses⟩
    exact hc a bytes c c' hbytes hpasses

theorem mono (h : Accepts step layout) (himp : ∀ a bytes, layout a bytes → other a bytes) :
    Sound step other := by
  intro c a c' hs
  obtain ⟨bytes, hbytes, hc⟩ := (h c a c').mp hs
  exact ⟨bytes, himp a bytes hbytes, hc⟩

theorem complete (h : Accepts step layout) {c c' : Cursor} {a : α} {bytes : List UInt8}
    (hbytes : layout a bytes) (hc : c.Passes bytes c') : step c = .ok a c' :=
  (h c a c').mpr ⟨bytes, hbytes, hc⟩

theorem sound (h : Accepts step layout) {c c' : Cursor} {a : α} (hs : step c = .ok a c') :
    ∃ bytes, layout a bytes ∧ c.Passes bytes c' :=
  (h c a c').mp hs

/-- **No buffer begins with two stored forms.** The value, the bytes and what lies behind them are
all determined. -/
theorem unique (h : Accepts step layout) {a b : α} {xs ys xs' ys' : List UInt8}
    (ha : layout a xs) (hb : layout b ys) (heq : xs ++ xs' = ys ++ ys') :
    a = b ∧ xs = ys ∧ xs' = ys' := by
  have hfirst := h.complete ha (Cursor.passes_mk 0 xs xs')
  have hsecond := h.complete hb (Cursor.passes_mk 0 ys ys')
  rw [heq, hsecond] at hfirst
  simp only [EStateM.Result.ok.injEq, Cursor.mk.injEq] at hfirst
  obtain ⟨rfl, -, rfl⟩ := hfirst
  exact ⟨rfl, List.append_cancel_right heq, rfl⟩

theorem congr (h : Accepts step layout) (hiff : ∀ a bytes, layout a bytes ↔ other a bytes) :
    Accepts step other := by
  intro c a c'
  rw [h c a c']
  exact exists_congr fun bytes => and_congr_left fun _ => hiff a bytes

theorem pure (a : α) : Accepts (Pure.pure a : Reads ε α) fun b bytes => b = a ∧ bytes = [] := by
  intro c b c'
  constructor
  · intro h
    cases h
    exact ⟨[], ⟨rfl, rfl⟩, Cursor.passes_nil.mpr rfl⟩
  · rintro ⟨bytes, ⟨rfl, rfl⟩, hc⟩
    rw [Cursor.passes_nil.mp hc]
    rfl

theorem throw (e : ε) : Accepts (MonadExcept.throw e : Reads ε α) fun _ _ => False := by
  intro c a c'
  constructor
  · intro h
    cases h
  · rintro ⟨bytes, h, -⟩
    exact h.elim

/-- A read that looks its answer up takes nothing, and fails where there is none. -/
theorem lookup {step : Reads ε α} (found : Option β) (wrap : β → α) (e : ε)
    (hsome : ∀ b, found = some b → step = Pure.pure (wrap b))
    (hnone : found = none → step = MonadExcept.throw e) :
    Accepts step fun a bytes => (∃ b, found = some b ∧ wrap b = a) ∧ bytes = [] := by
  cases hfound : found with
  | none =>
    rw [hnone hfound]
    refine (Accepts.throw e).congr fun a bytes => ?_
    simp
  | some b =>
    rw [hsome b hfound]
    refine (Accepts.pure (wrap b)).congr fun a bytes => ?_
    simp [eq_comm]

/-- A read that checks a condition takes nothing, and fails where it does not hold. -/
theorem check {p : Prop} [Decidable p] (a : α) (e : ε) :
    Accepts (if p then Pure.pure a else MonadExcept.throw e : Reads ε α) fun b bytes =>
      p ∧ b = a ∧ bytes = [] := by
  by_cases hp : p
  · rw [if_pos hp]
    exact (Accepts.pure a).congr fun b bytes => (and_iff_right hp).symm
  · rw [if_neg hp]
    exact (Accepts.throw e).congr fun b bytes => (iff_of_false id fun h => hp h.1)

theorem adapt (h : Accepts step layout) (f : ε → ε') :
    Accepts (EStateM.adaptExcept f step) layout :=
  fun c a c' => adaptExcept_eq_ok.trans (h c a c')

/-- One read after the other: the stored form of the first answer, and behind it one of the second,
whose layout may depend on the first answer. -/
theorem bind {next : α → Reads ε β} {layouts : α → Layout β} (h : Accepts step layout)
    (hnext : ∀ a, Accepts (next a) (layouts a)) :
    Accepts (step >>= next) fun b bytes =>
      ∃ a xs ys, layout a xs ∧ layouts a b ys ∧ xs ++ ys = bytes := by
  intro c b c''
  rw [bind_eq_ok]
  constructor
  · rintro ⟨a, c', hs, hn⟩
    obtain ⟨xs, hxs, hc⟩ := h.sound hs
    obtain ⟨ys, hys, hc'⟩ := (hnext a).sound hn
    exact ⟨xs ++ ys, ⟨a, xs, ys, hxs, hys, rfl⟩, Cursor.passes_append.mpr ⟨c', hc, hc'⟩⟩
  · rintro ⟨bytes, ⟨a, xs, ys, hxs, hys, rfl⟩, hc⟩
    obtain ⟨c', hc, hc'⟩ := Cursor.passes_append.mp hc
    exact ⟨a, c', h.complete hxs hc, (hnext a).complete hys hc'⟩

theorem map (h : Accepts step layout) (f : α → β) :
    Accepts (do return f (← step)) fun b bytes => ∃ a, layout a bytes ∧ f a = b := by
  refine (h.bind fun a => Accepts.pure (f a)).congr fun b bytes => ?_
  constructor
  · rintro ⟨a, xs, ys, hxs, ⟨rfl, rfl⟩, rfl⟩
    exact ⟨a, by simpa using hxs, rfl⟩
  · rintro ⟨a, ha, rfl⟩
    exact ⟨a, bytes, [], ha, ⟨rfl, rfl⟩, by simp⟩

/-- A read may look up where it begins, for its failures to name the place. -/
theorem located {step : Nat → Reads ε α} (h : ∀ offset, Accepts (step offset) layout) :
    Accepts (do step (← get).position) layout :=
  fun c a c' => h c.position c a c'

theorem times_go (h : Accepts step layout) (count : Nat) (done : List α) :
    Accepts (times.go step count done) fun as bytes =>
      ∃ rest, as = done.reverse ++ rest ∧ rest.length = count ∧ layout.each rest bytes := by
  induction count generalizing done with
  | zero =>
    refine (Accepts.pure done.reverse).congr fun as bytes => ?_
    constructor
    · rintro ⟨rfl, rfl⟩
      exact ⟨[], by simp, rfl, Layout.each_nil.mpr rfl⟩
    · rintro ⟨rest, rfl, hrest, hbytes⟩
      obtain rfl := List.length_eq_zero_iff.mp hrest
      exact ⟨by simp, Layout.each_nil.mp hbytes⟩
  | succ count ih =>
    refine (h.bind fun a => ih (a :: done)).congr fun as bytes => ?_
    constructor
    · rintro ⟨a, xs, ys, hxs, ⟨rest, rfl, hrest, hys⟩, rfl⟩
      exact ⟨a :: rest, by simp, by simp [hrest], Layout.each_cons.mpr ⟨xs, ys, hxs, hys, rfl⟩⟩
    · rintro ⟨_ | ⟨a, rest⟩, rfl, hrest, hbytes⟩
      · simp at hrest
      · obtain ⟨xs, ys, hxs, hys, rfl⟩ := Layout.each_cons.mp hbytes
        exact ⟨a, xs, ys, hxs, ⟨rest, by simp, by simpa using hrest, hys⟩, rfl⟩

/-- **A counted list.** So many stored forms, one after the other. -/
theorem times (h : Accepts step layout) (count : Nat) :
    Accepts (Reads.times count step) fun as bytes => as.length = count ∧ layout.each as bytes := by
  refine (h.times_go count []).congr fun as bytes => ?_
  constructor
  · rintro ⟨rest, rfl, hrest, hbytes⟩
    exact ⟨hrest, hbytes⟩
  · rintro ⟨hcount, hbytes⟩
    exact ⟨as, rfl, hcount, hbytes⟩

end Accepts

end Reads

/-! ### The reads of a cursor -/

namespace Cursor

theorem accepts_take (n : Nat) :
    Reads.Accepts (take n) fun taken bytes => bytes = taken ∧ taken.length = n := by
  intro c taken c'
  constructor
  · intro h
    obtain ⟨hrest, hlength, hposition⟩ := take_ok h
    exact ⟨taken, ⟨rfl, hlength⟩, hrest, by rw [hposition, hlength]⟩
  · rintro ⟨bytes, ⟨rfl, rfl⟩, hrest, hposition⟩
    obtain ⟨p', rest'⟩ := c'
    dsimp only at hrest hposition
    have fits : hasAtLeast bytes.length c.rest = true := by
      rw [hasAtLeast_iff, hrest, List.length_append]
      omega
    rw [take, if_pos fits, hrest, hposition, List.take_left, List.drop_left]

theorem accepts_skip (n : Nat) : Reads.Accepts (skip n) fun _ bytes => bytes.length = n := by
  refine ((accepts_take n).bind fun _ => Reads.Accepts.pure ()).congr fun _ bytes => ?_
  constructor
  · rintro ⟨taken, xs, ys, ⟨rfl, hlength⟩, ⟨-, rfl⟩, rfl⟩
    simpa using hlength
  · intro hlength
    exact ⟨bytes, bytes, [], ⟨rfl, hlength⟩, ⟨rfl, rfl⟩, by simp⟩

theorem accepts_byte : Reads.Accepts byte fun b bytes => bytes = [b] := by
  rintro ⟨p, _ | ⟨b, rest⟩⟩ a ⟨p', rest'⟩
  · simp [byte, Passes]
  · simp only [byte, Passes, EStateM.Result.ok.injEq, mk.injEq]
    constructor
    · rintro ⟨rfl, rfl, rfl⟩
      exact ⟨[b], rfl, rfl, rfl⟩
    · rintro ⟨bytes, rfl, hrest, rfl⟩
      obtain ⟨rfl, rfl⟩ := List.cons.inj hrest
      exact ⟨rfl, rfl, rfl⟩

theorem accepts_word : Reads.Accepts word fun w bytes => bytes = wordBytes w := by
  have hwrite (w : UInt16) : wordBytes w = [w.toNat.toUInt8, (w.toNat / 256).toUInt8] := rfl
  rintro ⟨p, rest⟩ w ⟨p', rest'⟩
  simp only [hwrite, Passes]
  constructor
  · intro h
    rw [word] at h
    split at h
    · next low high rest hrest =>
      cases h
      have hbytes := wordBytes_wordOf low high
      rw [hwrite] at hbytes
      refine ⟨_, rfl, ?_, rfl⟩
      rw [hbytes]
      exact hrest
    · cases h
  · rintro ⟨bytes, rfl, rfl, rfl⟩
    simp only [word, List.cons_append, List.nil_append, wordOf_wordBytes]
    rfl

theorem accepts_quad : Reads.Accepts quad fun w bytes => bytes = quadBytes w := by
  refine ((accepts_take 8).map quadOf).congr fun w bytes => ?_
  constructor
  · rintro ⟨taken, ⟨rfl, hlength⟩, rfl⟩
    exact (quadBytes_quadOf hlength).symm
  · rintro rfl
    exact ⟨quadBytes w, ⟨rfl, length_quadBytes w⟩, quadOf_quadBytes w⟩

end Cursor

end CellFormula
