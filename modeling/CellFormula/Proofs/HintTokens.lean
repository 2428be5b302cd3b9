import CellFormula.Proofs.RelabelledFailures
import Mathlib.Order.Monotone.Basic

/-!
# Tokens that do nothing

Memory tokens say how far a reference reaches in the stream, and attributes say where to jump, that
a formula is volatile, or which blanks were typed. Whoever evaluates a formula token by token can
pass over all of them, in whatever combination their bits stand and whether or not an operand is
there yet. Only the attribute for sums is a call. Parentheses are passed over too when a formula is
evaluated, but its text has them.

So such tokens may be put in or taken out anywhere. Nothing changes, except that the tokens behind
them have other places, and a failure names a place.

## Putting in and taking out

Both are the same relation between two formulas, read in one direction or the other (`Padded`). It
says where each token of the shorter formula is in the longer one, because that is what happens to
the places in failures. Several changes, one after the other, are again one (`Padded.trans`).

## Main definitions

* `Token.IsHint`, `Token.IsSilent` — tokens that do nothing to a text, and to a value
* `Padded` — one formula with more tokens than the other
* `StackFault.moved`, `EvalError.moved` — a failure with other places

## Main results

* `Padded.insert`, `Padded.trans` — one change at any place, and then others
* `walk_padded` — all tokens
* `Formula.same_outcomes_padded` — values, texts and failures are the same
-/

namespace CellFormula

/-! ### Tokens that do nothing -/

/-- The token does nothing to a text or a value: a memory token, or an attribute that is not the one
for sums. -/
def Token.IsHint : Token → Prop
  | mem .. => True
  | hint a => ¬ a.isSum = true
  | _ => False

/-- The token does nothing to a value. -/
def Token.IsSilent (t : Token) : Prop := t = .paren ∨ t.IsHint

section

variable {t : Token}

theorem Token.IsHint.action (h : t.IsHint) : t.action = .pass := by
  cases t with
  | mem m cls => rfl
  | hint a => exact if_neg h
  | _ => exact h.elim

theorem Labels.step_of_isHint (labels : Labels) (h : t.IsHint) (index : Nat)
    (stack : Stack Phrase) : labels.step index t stack = .ok stack := by
  rw [step, h.action]

theorem Machine.step_of_isSilent (m : Machine) (h : t.IsSilent) (index : Nat)
    (stack : Stack Operand) : m.step index t stack = .ok stack := by
  obtain rfl | h := h
  · rfl
  · rw [step, h.action]

end

/-! ### Formulas with more tokens -/

/-- The second formula is the first one with more tokens, all of which are of a kind. Tokens keep
their order, and `place` says where they are in the second formula. -/
structure Padded (kind : Token → Prop) (place : Nat → Nat) (f g : Formula) : Prop where
  mono : StrictMono place
  /-- Nothing is lost, and nothing else is behind the end. -/
  kept : ∀ k, f[k]? = g[place k]?
  added : ∀ i t, g[i]? = some t → (∀ k, i ≠ place k) → kind t

/-- The place of a token after so many tokens were put in somewhere. -/
def placeBeside (somewhere count k : Nat) : Nat := if k < somewhere then k else k + count

namespace Padded

variable {kind kind' : Token → Prop} {place place' : Nat → Nat} {f g h : Formula}

theorem imp (hkind : ∀ t, kind t → kind' t) (hfg : Padded kind place f g) :
    Padded kind' place f g :=
  ⟨hfg.mono, hfg.kept, fun i t ht hnew => hkind t (hfg.added i t ht hnew)⟩

/-- **Tokens can be put in anywhere.** -/
theorem insert (before after : Formula) {tokens : Formula} (htokens : ∀ t ∈ tokens, kind t) :
    Padded kind (placeBeside before.length tokens.length) (before ++ after)
      (before ++ (tokens ++ after)) where
  mono := by
    intro k l hkl
    simp only [placeBeside]
    split <;> split <;> omega
  kept := by
    intro k
    rw [placeBeside]
    split
    · next hk => rw [List.getElem?_append_left hk, List.getElem?_append_left hk]
    · next hk =>
      rw [List.getElem?_append_right (by omega), List.getElem?_append_right (by omega),
        List.getElem?_append_right (by omega)]
      congr 1
      omega
  added := by
    intro i t ht hnew
    have hbefore : before.length ≤ i := by
      by_contra hlt
      exact hnew i (if_pos (Nat.not_le.mp hlt)).symm
    have htokensEnd : i - before.length < tokens.length := by
      by_contra hge
      refine hnew (i - tokens.length) ?_
      rw [placeBeside, if_neg (by omega)]
      omega
    rw [List.getElem?_append_right hbefore, List.getElem?_append_left htokensEnd] at ht
    exact htokens t (List.mem_of_getElem? ht)

/-- Two changes are one. -/
theorem trans (hfg : Padded kind place f g) (hgh : Padded kind place' g h) :
    Padded kind (place' ∘ place) f h where
  mono := hgh.mono.comp hfg.mono
  kept k := (hfg.kept k).trans (hgh.kept (place k))
  added i t ht hnew := by
    -- A token of `h` is new if it came with the second change, or is an old one of `g` that is new.
    by_cases hi : ∃ j, i = place' j
    · obtain ⟨j, rfl⟩ := hi
      exact hfg.added j t ((hgh.kept j).trans ht) fun k hk => hnew k (congrArg place' hk)
    · exact hgh.added i t ht (not_exists.mp hi)

/-- Behind the first token of the longer formula everything is one place nearer. What the shorter
formula had at that first place is left out. -/
theorem tail {u : Token} (hfg : Padded kind place f (u :: g)) (count : Nat)
    (hfirst : ∀ k < count, place k = 0) (hplace : ∀ k, place (k + count) = place' k + 1) :
    Padded kind place' (f.drop count) g where
  mono := by
    intro k l hkl
    have hlt : place (k + count) < place (l + count) := hfg.mono (Nat.add_lt_add_right hkl count)
    rw [hplace, hplace] at hlt
    exact Nat.lt_of_succ_lt_succ hlt
  kept := by
    intro k
    rw [List.getElem?_drop, Nat.add_comm, hfg.kept, hplace, List.getElem?_cons_succ]
  added := by
    intro i t ht hnew
    refine hfg.added (i + 1) t ht fun k hk => ?_
    obtain hlt | hle := Nat.lt_or_ge k count
    · rw [hfirst k hlt] at hk
      cases hk
    · rw [← Nat.sub_add_cancel hle, hplace] at hk
      exact hnew (k - count) (Nat.succ.inj hk)

/-- The longer formula begins with the first token of the shorter one, or with a token of the
kind. -/
theorem cons_cases {u : Token} (hfg : Padded kind place f (u :: g)) :
    (∃ f' place', f = u :: f' ∧ place 0 = 0 ∧ (∀ k, place (k + 1) = place' k + 1) ∧
      Padded kind place' f' g) ∨
    kind u ∧ ∃ place', (∀ k, place k = place' k + 1) ∧ Padded kind place' f g := by
  by_cases hfirst : place 0 = 0
  · have hpos (k : Nat) : 0 < place (k + 1) := hfirst ▸ hfg.mono k.succ_pos
    have hplace (k : Nat) : place (k + 1) = place (k + 1) - 1 + 1 :=
      (Nat.succ_pred_eq_of_pos (hpos k)).symm
    have hhead : f[0]? = some u := by rw [hfg.kept, hfirst]; rfl
    cases f with
    | nil => cases hhead
    | cons t f' =>
      obtain rfl : t = u := Option.some.inj hhead
      have hrest := hfg.tail 1 (fun k hk => by rwa [Nat.lt_one_iff.mp hk]) hplace
      exact .inl ⟨f', _, rfl, hfirst, hplace, hrest⟩
  · have hpos (k : Nat) : 0 < place k :=
      Nat.lt_of_lt_of_le (Nat.pos_of_ne_zero hfirst) (hfg.mono.monotone k.zero_le)
    have hplace (k : Nat) : place k = place k - 1 + 1 := (Nat.succ_pred_eq_of_pos (hpos k)).symm
    have hrest := hfg.tail 0 (fun k hk => absurd hk k.not_lt_zero) hplace
    exact .inr ⟨hfg.added 0 u rfl fun k => (hpos k).ne, _, hplace, hrest⟩

/-- Only the empty formula has nothing more. -/
theorem eq_nil (hf : Padded kind place f []) : f = [] := by
  have hnone : f[0]? = none := hf.kept 0
  exact List.length_eq_zero_iff.mp (Nat.le_zero.mp (List.getElem?_eq_none_iff.mp hnone))

end Padded

/-! ### Failures -/

/-- The fault with other places. -/
def StackFault.moved (place : Nat → Nat) : StackFault → StackFault :=
  relabelled place fun _ opcode => opcode

/-- The failure with other places. -/
def EvalError.moved (place : Nat → Nat) : EvalError → EvalError :=
  relabelled place fun _ opcode => opcode

theorem StackFault.moved_injective {place : Nat → Nat} (h : place.Injective) :
    (moved place).Injective := by
  intro fault fault' heq
  cases fault <;> cases fault' <;> simp_all [moved, relabelled, h.eq_iff]

theorem EvalError.moved_injective {place : Nat → Nat} (h : place.Injective) :
    (moved place).Injective := by
  intro e e' heq
  cases e with
  | stack fault =>
    cases e' with
    | stack fault' => exact congrArg stack (StackFault.moved_injective h (stack.inj heq))
    | _ => cases heq
  | _ => cases e' <;> simp_all [moved, relabelled, h.eq_iff]

/-- Failures that are replaced by other ones without confusion are still told apart. -/
theorem mapError_eq_error_apply_iff {ε ε' α : Type} {x : Except ε α} {φ : ε → ε'}
    (h : φ.Injective) {e : ε} : x.mapError φ = .error (φ e) ↔ x = .error e := by
  rw [mapError_eq_error_iff]
  constructor
  · rintro ⟨e', hx, heq⟩
    rwa [h heq]
  · exact fun hx => ⟨e, hx, rfl⟩

/-! ### All tokens -/

/-- **A walk through a formula with more tokens** ends alike if the walk passes over these, and if
its other steps are the same at other places. -/
theorem walk_padded {ε σ : Type} {step : Nat → Token → σ → Except ε σ} {kind : Token → Prop}
    {newPlace : Nat → Nat} {moved : ε → ε}
    (hmoved : ∀ index t state,
      step (newPlace index) t state = (step index t state).mapError moved)
    (hpassed : ∀ index t state, kind t → step index t state = .ok state)
    {place : Nat → Nat} {f g : Formula} (h : Padded kind place f g) {index index' : Nat}
    (hplaces : ∀ k, newPlace (index + k) = index' + place k) (state : σ) :
    walk step index' state g = (walk step index state f).mapError moved := by
  -- On the longer formula: each of its tokens is either passed over or the next of both. The walks
  -- are at different places by then, and `hplaces` says how their places still correspond.
  induction g generalizing place f index index' state with
  | nil =>
    rw [h.eq_nil]
    rfl
  | cons u g ih =>
    obtain ⟨f', place', rfl, hfirst, hplace, hrest⟩ | ⟨hu, place', hplace, hrest⟩ := h.cons_cases
    · obtain rfl : newPlace index = index' := by simpa [hfirst] using hplaces 0
      rw [walk, walk, hmoved]
      cases step index u state with
      | error e => rfl
      | ok next =>
        refine ih hrest (fun k => ?_) next
        rw [Nat.add_right_comm, Nat.add_assoc, hplaces, hplace]
        omega
    · rw [walk, hpassed index' u state hu]
      refine ih hrest (fun k => ?_) state
      rw [hplaces, hplace]
      omega

section

variable {place : Nat → Nat} {f g : Formula}

theorem Machine.evaluate_padded (m : Machine) (h : Padded Token.IsSilent place f g) :
    m.evaluate g = (m.evaluate f).mapError (EvalError.moved place) :=
  evaluate_relabelled <| walk_padded (fun _ _ stack => m.step_relabelled rfl rfl stack)
    (fun index _ stack ht => m.step_of_isSilent ht index stack) h
    (fun k => by rw [Nat.zero_add, Nat.zero_add]) .empty

theorem Formula.text_padded (labels : Labels) (h : Padded Token.IsHint place f g) :
    g.text labels = (f.text labels).mapError (StackFault.moved place) :=
  text_relabelled <| walk_padded (fun _ _ stack => labels.step_relabelled rfl rfl stack)
    (fun index _ stack ht => labels.step_of_isHint ht index stack) h
    (fun k => by rw [Nat.zero_add, Nat.zero_add]) .empty

/-- **Tokens that do nothing may be put in and taken out.** However many of them there are and
wherever they stand, every machine computes the same value with them and without them, or fails at
the same token, which has another place. If there are no parentheses among them, this is true of the
text as well. -/
theorem Formula.same_outcomes_padded (h : Padded Token.IsSilent place f g) :
    (∀ m : Machine, (∀ v, m.evaluate g = .ok v ↔ m.evaluate f = .ok v) ∧
      ∀ e, m.evaluate g = .error (e.moved place) ↔ m.evaluate f = .error e) ∧
    (Padded Token.IsHint place f g → ∀ labels : Labels,
      (∀ s, g.text labels = .ok s ↔ f.text labels = .ok s) ∧
      ∀ e, g.text labels = .error (e.moved place) ↔ f.text labels = .error e) := by
  have hplace : place.Injective := h.mono.injective
  refine ⟨fun m => ?_, fun hhints labels => ?_⟩
  · rw [m.evaluate_padded h]
    exact ⟨fun v => mapError_eq_ok_iff,
      fun e => mapError_eq_error_apply_iff (EvalError.moved_injective hplace)⟩
  · rw [text_padded labels hhints]
    exact ⟨fun s => mapError_eq_ok_iff,
      fun e => mapError_eq_error_apply_iff (StackFault.moved_injective hplace)⟩

/-- A jump and a memory token before there is any operand, and another attribute before a sum that
lacks one. -/
theorem Formula.same_outcomes_padded_underflow :
    let m : Machine := .over (.ofCells fun _ _ _ => .blank)
    let f : Formula := [.literal (.int 1), .operator .add]
    let jump : Token := .hint (.choose [0, 2])
    let g : Formula := [jump, .mem (.func 3) .reference, .literal (.int 1), .hint .markVolatile,
      .operator .add]
    let place := placeBeside 3 1 ∘ placeBeside 0 2
    Padded Token.IsHint place f g ∧ Padded Token.IsSilent place f g ∧
      m.evaluate g = .error (.stack (.underflow 4 0x03 2 1)) ∧
      g.text .numbered = .error (.underflow 4 0x03 2 1) := by
  intro m f jump g place
  have hjump : jump.IsHint := (by decide : ¬ (Attribute.choose [0, 2]).isSum = true)
  have hmark : (Token.hint .markVolatile).IsHint :=
    (by decide : ¬ Attribute.markVolatile.isSum = true)
  have hleading : ∀ t ∈ [jump, .mem (.func 3) .reference], t.IsHint :=
    List.forall_mem_cons.mpr ⟨hjump, List.forall_mem_singleton.mpr trivial⟩
  have hhints : Padded Token.IsHint place f g :=
    (Padded.insert [] f hleading).trans
      (Padded.insert (g.take 3) [.operator .add] (List.forall_mem_singleton.mpr hmark))
  have hsilent : Padded Token.IsSilent place f g := hhints.imp fun _ => .inr
  obtain ⟨hvalues, htexts⟩ := same_outcomes_padded hsilent
  exact ⟨hhints, hsilent, ((hvalues m).2 (.stack (.underflow 1 0x03 2 1))).mpr rfl,
    ((htexts hhints .numbered).2 (.underflow 1 0x03 2 1)).mpr rfl⟩

end

end CellFormula
