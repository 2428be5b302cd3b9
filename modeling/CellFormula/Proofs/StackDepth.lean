import CellFormula.Evaluation.Machine
import Mathlib.Tactic.MkIffOfInductiveProp

/-!
# The depth of the operand stack

Whether a formula can be evaluated is decided before any cell is read. An evaluation that only
counts entries, and keeps no values, meets the same failures at the same tokens: what is computed
may be an error value, but it always is one entry.

So two evaluations fail alike as soon as they have the same limit on the stack and functions bound
to the same indices. Sources, cells, the other limits and what the bound functions compute do not
matter.

## What is deliberately absent

Nothing here says that an evaluation takes little time or memory. A token that is admitted may still
compute an area of any size; only the number of entries is bounded.

## Main definitions

* `Token.depthAfter`, `Formula.depthAfter`, `Formula.peak` — what tokens do to the depth
* `Machine.Makes` — the operand that an action makes
* `DepthRules`, `Machine.depthRules` — all that counting has to know about a machine
* `DepthRules.step`, `DepthRules.check` — an evaluation that only counts
* `DepthRules.Admits` — a token that can be evaluated at a depth

## Main results

* `Machine.step_cases` — what a token does if it does not fail
* `walk_depth_eq_ok_iff`, `exists_of_count_eq_error` — when counting fails, and at which token
* `Machine.step_depth`, `Machine.evaluate_check` — counting meets the same failures
* `DepthRules.check_eq_ok_iff` — when there is no failure
* `Machine.depth_le_of_run` — the stack stays within its limit
* `Machine.failure_independent` — failures do not depend on data
-/

namespace CellFormula

open Worksheet (FunctionInfo)

/-! ### Depths -/

/-- How many entries the action puts on the stack: one if it has a value at all. -/
def Action.resultCount : Action → Nat
  | .put _ | .combine _ | .call .. => 1
  | .pass | .enclose | .unknownFunction _ | .unresolved => 0

theorem Action.resultCount_le (a : Action) : a.resultCount ≤ 1 := by
  cases a <;> simp [resultCount]

/-- The depth of the stack after the token. -/
def Token.depthAfter (t : Token) (depth : Nat) : Nat :=
  depth - t.action.operandCount + t.action.resultCount

namespace Formula

/-- The depth of the stack after all tokens. -/
def depthAfter (f : Formula) (depth : Nat) : Nat := f.foldl (fun d t => t.depthAfter d) depth

/-- The greatest depth of the stack before, between and after the tokens. -/
def peak : Formula → Nat → Nat
  | [], depth => depth
  | t :: f, depth => max depth (peak f (t.depthAfter depth))

@[simp] theorem depthAfter_nil (depth : Nat) : depthAfter [] depth = depth := rfl

@[simp] theorem depthAfter_cons (t : Token) (f : Formula) (depth : Nat) :
    depthAfter (t :: f) depth = depthAfter f (t.depthAfter depth) := rfl

theorem depthAfter_append (f g : Formula) (depth : Nat) :
    depthAfter (f ++ g) depth = depthAfter g (depthAfter f depth) := List.foldl_append

theorem le_peak (f : Formula) (depth : Nat) : depth ≤ f.peak depth := by
  cases f with
  | nil => exact Nat.le_refl _
  | cons t f => exact Nat.le_max_left _ _

theorem depthAfter_le_peak (f : Formula) (depth : Nat) : f.depthAfter depth ≤ f.peak depth := by
  induction f generalizing depth with
  | nil => exact Nat.le_refl _
  | cons t f ih => exact Nat.le_trans (ih _) (Nat.le_max_right _ _)

theorem peak_append (f g : Formula) (depth : Nat) :
    peak (f ++ g) depth = max (peak f depth) (peak g (depthAfter f depth)) := by
  induction f generalizing depth with
  | nil => exact (Nat.max_eq_right (le_peak g depth)).symm
  | cons t f ih => rw [List.cons_append, peak, peak, ih, Nat.max_assoc, depthAfter_cons]

/-- A deeper stack stays deeper. -/
theorem peak_mono (f : Formula) {depth depth' : Nat} (h : depth ≤ depth') :
    f.peak depth ≤ f.peak depth' := by
  induction f generalizing depth depth' with
  | nil => exact h
  | cons t f ih =>
    have hafter : t.depthAfter depth ≤ t.depthAfter depth' := by
      rw [Token.depthAfter, Token.depthAfter]
      omega
    exact Nat.max_le.mpr ⟨Nat.le_trans h (Nat.le_max_left _ _),
      Nat.le_trans (ih hafter) (Nat.le_max_right _ _)⟩

/-- A part of a formula alone needs no more room than the formula. -/
theorem peak_le_of_part {part f : Formula} (h : part <:+: f) : part.peak 0 ≤ f.peak 0 := by
  obtain ⟨lead, rest, rfl⟩ := h
  calc part.peak 0 ≤ part.peak (depthAfter lead 0) := part.peak_mono (Nat.zero_le _)
    _ ≤ peak (lead ++ part) 0 := by rw [peak_append]; exact Nat.le_max_right _ _
    _ ≤ peak (lead ++ part ++ rest) 0 := by
      rw [peak_append (lead ++ part)]
      exact Nat.le_max_left _ _

end Formula

/-! ### Taking operands off the stack -/

namespace Stack

variable {α : Type}

/-- The stack with entries on top, pushed in their order. -/
def pushAll (s : Stack α) (as : List α) : Stack α :=
  ⟨as.reverse ++ s.entries, as.length + s.depth, by simp [s.depth_eq]⟩

@[simp] theorem entries_pushAll (s : Stack α) (as : List α) :
    (s.pushAll as).entries = as.reverse ++ s.entries := rfl

@[simp] theorem depth_pushAll (s : Stack α) (as : List α) :
    (s.pushAll as).depth = as.length + s.depth := rfl

@[simp] theorem pushAll_nil (s : Stack α) : s.pushAll [] = s := ext rfl

/-- Entries that were pushed are taken off in the order in which they were pushed. -/
theorem take?_pushAll (s : Stack α) (as : List α) :
    (s.pushAll as).take? as.length = some (as, s) := by
  have hfits : as.length ≤ (s.pushAll as).depth := Nat.le_add_right _ _
  rw [take?, if_pos hfits]
  refine congrArg some (Prod.ext ?_ (ext ?_))
  · simp
  · simp

theorem operands_pushAll (s : Stack α) (as : List α) (index : Nat) (t : Token) :
    (s.pushAll as).operands index t as.length = .ok (as, s) := by
  rw [operands, take?_pushAll]

/-- Operands that are taken off a stack were pushed on it. -/
theorem eq_pushAll_of_operands {s below : Stack α} {as : List α} {index count : Nat} {t : Token}
    (h : s.operands index t count = .ok (as, below)) :
    as.length = count ∧ s = below.pushAll as := by
  rw [operands] at h
  cases htake : s.take? count with
  | none => rw [htake] at h; cases h
  | some taken =>
    rw [htake] at h
    cases h
    obtain ⟨hentries, hlength⟩ := take?_eq_some htake
    exact ⟨hlength, ext hentries⟩

theorem eq_empty {s : Stack α} (h : s.depth = 0) : s = empty :=
  ext (List.eq_nil_of_length_eq_zero (s.depth_eq.symm.trans h))

theorem operands_of_lt {s : Stack α} {count : Nat} (h : s.depth < count) (index : Nat)
    (t : Token) : s.operands index t count = .error (.underflow index t.opcode count s.depth) := by
  rw [operands, take?_eq_none.mpr h]

/-- A stack with enough entries is another one with that many on top. -/
theorem exists_pushAll {s : Stack α} {count : Nat} (h : count ≤ s.depth) :
    ∃ as below, as.length = count ∧ s = pushAll below as := by
  cases htake : s.take? count with
  | none => exact absurd (take?_eq_none.mp htake) (Nat.not_lt.mpr h)
  | some taken =>
    obtain ⟨hentries, hlength⟩ := take?_eq_some htake
    exact ⟨taken.1, taken.2, hlength, ext hentries⟩

end Stack

namespace Machine

variable {m : Machine} {index : Nat} {t : Token}

/-- A token that needs more operands than there are fails. -/
theorem step_of_depth_lt {stack : Stack Operand} (h : stack.depth < t.action.operandCount) :
    m.step index t stack
      = .error (.stack (.underflow index t.opcode t.action.operandCount stack.depth)) := by
  cases haction : t.action with
  | combine op =>
    have hop : stack.depth < op.arity := by rwa [haction] at h
    simp only [step, haction, Stack.operands_of_lt hop]
    rfl
  | call info count =>
    have hcount : stack.depth < count := by rwa [haction] at h
    simp only [step, haction, Stack.operands_of_lt hcount]
    rfl
  | _ => rw [haction] at h; exact absurd h (Nat.not_lt_zero _)

theorem step_put {leaf : Leaf} (h : t.action = .put leaf) (stack : Stack Operand) :
    m.step index t stack = m.pushed index stack (m.leafOperand leaf) := by
  rw [step, h]

/-- An operator puts what it computes in the place of its operands. -/
theorem step_combine {op : Operator} (h : t.action = .combine op) {operands : List Operand}
    (hcount : operands.length = op.arity) (below : Stack Operand) :
    m.step index t (below.pushAll operands)
      = m.pushed index below (m.applyOperator op operands) := by
  simp only [step, h, ← hcount, Stack.operands_pushAll]
  rfl

/-- A call puts its value in the place of its operands, if it has one. -/
theorem step_call {info : FunctionInfo} {count : Nat} (h : t.action = .call info count)
    {operands : List Operand} (hcount : operands.length = count) (below : Stack Operand) :
    m.step index t (below.pushAll operands)
      = (m.applyFunction info operands).bind (m.pushed index below) := by
  simp only [step, h, ← hcount, Stack.operands_pushAll]
  rfl

/-- The operand that an action makes of those that it takes. -/
inductive Makes (m : Machine) : Action → List Operand → Operand → Prop
  | put (leaf : Leaf) : Makes m (.put leaf) [] (m.leafOperand leaf)
  | combine (op : Operator) (operands : List Operand) (count : operands.length = op.arity) :
    Makes m (.combine op) operands (m.applyOperator op operands)
  | call (info : FunctionInfo) (operands : List Operand) (operand : Operand)
    (value : m.applyFunction info operands = .ok operand) :
    Makes m (.call info operands.length) operands operand

namespace Makes

variable {a : Action} {operands : List Operand} {operand : Operand}

theorem operandCount_eq (h : m.Makes a operands operand) : a.operandCount = operands.length := by
  cases h with
  | put leaf => rfl
  | combine op _ count => exact count.symm
  | call info _ _ value => rfl

theorem resultCount_eq (h : m.Makes a operands operand) : a.resultCount = 1 := by
  cases h <;> rfl

/-- A token puts what it makes in the place of what it takes. -/
theorem step (h : m.Makes t.action operands operand) (below : Stack Operand) :
    m.step index t (below.pushAll operands) = m.pushed index below operand := by
  cases haction : t.action with
  | put leaf =>
    rw [haction] at h
    cases h
    rw [Stack.pushAll_nil]
    exact step_put haction below
  | combine op =>
    rw [haction] at h
    cases h with
    | combine _ _ count => exact step_combine haction count below
  | call info count =>
    rw [haction] at h
    cases h with
    | call _ _ _ value =>
      rw [step_call haction rfl, value]
      rfl
  | _ => rw [haction] at h; cases h

end Makes

/-- **What a token does**, if it does not fail: nothing, or it puts what it makes in the place of
what it takes. -/
theorem step_cases {stack stack' : Stack Operand} (h : m.step index t stack = .ok stack') :
    ((∀ index stack, m.step index t stack = .ok stack) ∧ stack' = stack) ∨
      ∃ operands operand, ∃ below : Stack Operand, m.Makes t.action operands operand ∧
        stack = below.pushAll operands ∧ below.depth < m.limits.stackDepth ∧
        stack' = below.push operand := by
  have hpushed {below : Stack Operand} {operand : Operand}
      (h : m.pushed index below operand = .ok stack') :
      below.depth < m.limits.stackDepth ∧ stack' = below.push operand := by
    rw [pushed] at h
    split at h
    · next hroom => cases h; exact ⟨hroom, rfl⟩
    · cases h
  by_cases hfew : stack.depth < t.action.operandCount
  · rw [step_of_depth_lt hfew] at h
    cases h
  · obtain ⟨operands, below, hcount, rfl⟩ := Stack.exists_pushAll (Nat.not_lt.mp hfew)
    cases haction : t.action with
    | put leaf =>
      rw [haction] at hcount
      obtain rfl : operands = [] := List.eq_nil_of_length_eq_zero hcount
      rw [step_put haction, Stack.pushAll_nil] at h
      exact .inr ⟨[], _, below, .put leaf, rfl, hpushed h⟩
    | combine op =>
      rw [haction] at hcount
      rw [step_combine haction hcount] at h
      exact .inr ⟨operands, _, below, .combine op operands hcount, rfl, hpushed h⟩
    | call info count =>
      rw [haction] at hcount
      obtain rfl : operands.length = count := hcount
      rw [step_call haction rfl] at h
      cases hvalue : m.applyFunction info operands with
      | error e => rw [hvalue] at h; cases h
      | ok operand =>
        rw [hvalue] at h
        exact .inr ⟨operands, operand, below, .call info operands operand hvalue, rfl, hpushed h⟩
    | pass | enclose =>
      have hpass (index : Nat) (stack : Stack Operand) : m.step index t stack = .ok stack := by
        rw [step, haction]
      rw [hpass] at h
      cases h
      exact .inl ⟨hpass, rfl⟩
    | unresolved | unknownFunction =>
      rw [step, haction] at h
      cases h

end Machine

/-! ### Counting -/

/-- All that has to be known of a machine to count the entries of its stack. -/
@[ext] structure DepthRules where
  /-- The most entries. -/
  limit : Nat
  /-- Something is bound to the function with this index. -/
  isBound : UInt16 → Bool

/-- The rules by which the machine's stack grows. -/
def Machine.depthRules (m : Machine) : DepthRules := ⟨m.limits.stackDepth, m.functions.contains⟩

namespace DepthRules

variable (r : DepthRules)

/-- The depth with one more entry. -/
def pushed (index depth : Nat) : Except EvalError Nat :=
  if depth < r.limit then .ok (depth + 1) else .error (.overflow index r.limit)

/-- A call fails only if it is well formed and nothing is bound to its function. -/
def called (info : FunctionInfo) (count : Nat) : Except EvalError Unit :=
  if info.accepts count = true ∧ info.index ≠ Worksheet.userIndex ∧
      r.isBound info.index = false then
    .error (.notImplemented info.index info.name)
  else .ok ()

/-- The depth after the token at a place in the formula. -/
def step (index : Nat) (t : Token) (depth : Nat) : Except EvalError Nat :=
  if depth < t.action.operandCount then
    .error (.stack (.underflow index t.opcode t.action.operandCount depth))
  else
    match t.action with
    | .pass | .enclose => .ok depth
    | .unresolved => .error (.stack (.unresolved index))
    | .unknownFunction function => .error (.stack (.unknownFunction index function))
    | .put _ => r.pushed index depth
    | .combine op => r.pushed index (depth - op.arity)
    | .call info count => (r.called info count).bind fun _ => r.pushed index (depth - count)

/-- The failure of a formula, if it has one. -/
def check (f : Formula) : Except EvalError Unit :=
  (walk r.step 0 0 f).bind fun depth =>
    if depth = 1 then .ok () else .error (.stack (.notSingular depth))

end DepthRules

/-! ### An evaluation and its count -/

/-- Two walks agree on what `φ` shows of their states if their steps do. -/
theorem walk_map {ε σ τ : Type} {step : Nat → Token → σ → Except ε σ}
    {step' : Nat → Token → τ → Except ε τ} (φ : σ → τ)
    (h : ∀ index t state, (step index t state).map φ = step' index t (φ state))
    (index : Nat) (state : σ) (f : Formula) :
    (walk step index state f).map φ = walk step' index (φ state) f := by
  induction f generalizing index state with
  | nil => rfl
  | cons t f ih =>
    rw [walk, walk, ← h]
    cases step index t state with
    | error e => rfl
    | ok next => exact ih (index + 1) next

/-- A walk gets to the end of two formulas when it gets to the end of one after the other. -/
theorem walk_append_eq_ok_iff {ε σ : Type} {step : Nat → Token → σ → Except ε σ} {index : Nat}
    {state next : σ} {f g : Formula} :
    walk step index state (f ++ g) = .ok next ↔
      ∃ reached, walk step index state f = .ok reached ∧
        walk step (index + f.length) reached g = .ok next := by
  rw [walk_append]
  cases walk step index state f with
  | error e => simp [Except.bind]
  | ok reached => simp [Except.bind]

/-- A walk that fails does so at one of its tokens, and gets there. -/
theorem exists_of_walk_eq_error {ε σ : Type} {step : Nat → Token → σ → Except ε σ} {index : Nat}
    {state : σ} {f : Formula} {e : ε} (h : walk step index state f = .error e) :
    ∃ before t after reached, f = before ++ t :: after ∧
      walk step index state before = .ok reached ∧
      step (index + before.length) t reached = .error e := by
  induction f generalizing index state with
  | nil => cases h
  | cons t f ih =>
    rw [walk] at h
    cases hstep : step index t state with
    | error e' =>
      rw [hstep] at h
      cases h
      exact ⟨[], t, f, state, rfl, rfl, hstep⟩
    | ok next =>
      rw [hstep] at h
      obtain ⟨before, u, after, reached, rfl, hbefore, hfails⟩ := ih h
      refine ⟨t :: before, u, after, reached, rfl, ?_, ?_⟩
      · rw [walk, hstep]
        exact hbefore
      · rwa [List.length_cons, Nat.add_comm before.length, ← Nat.add_assoc]

/-- A formula does not fail exactly when counting gets to its end and one entry is left there. -/
theorem count_eq_ok_iff {ε : Type} {step : Nat → Token → Nat → Except ε Nat} {fault : Nat → ε}
    {f : Formula} :
    ((walk step 0 0 f).bind fun depth =>
      if depth = 1 then Except.ok () else .error (fault depth)) = .ok () ↔
      walk step 0 0 f = .ok 1 := by
  cases walk step 0 0 f with
  | error e => simp [Except.bind]
  | ok depth => by_cases h : depth = 1 <;> simp [Except.bind, h]

/-- A formula that fails does so at a token that is reached, or for what is left at its end. -/
theorem exists_of_count_eq_error {ε : Type} {step : Nat → Token → Nat → Except ε Nat}
    {fault : Nat → ε} {f : Formula} {e : ε}
    (h : ((walk step 0 0 f).bind fun depth =>
      if depth = 1 then Except.ok () else .error (fault depth)) = .error e) :
    (∃ before t after depth, f = before ++ t :: after ∧ walk step 0 0 before = .ok depth ∧
      step before.length t depth = .error e) ∨
    ∃ depth, walk step 0 0 f = .ok depth ∧ depth ≠ 1 ∧ fault depth = e := by
  cases hwalk : walk step 0 0 f with
  | error e' =>
    rw [hwalk] at h
    cases h
    obtain ⟨before, t, after, depth, hf, hbefore, hstep⟩ := exists_of_walk_eq_error hwalk
    rw [Nat.zero_add] at hstep
    exact .inl ⟨before, t, after, depth, hf, hbefore, hstep⟩
  | ok depth =>
    simp only [hwalk, Except.bind] at h
    split at h
    · cases h
    · next hmany => exact .inr ⟨depth, rfl, hmany, Except.error.inj h⟩

namespace Machine

variable (m : Machine)

theorem map_pushed (index : Nat) (stack : Stack Operand) (operand : Operand) :
    (m.pushed index stack operand).map Stack.depth = m.depthRules.pushed index stack.depth := by
  rw [pushed, DepthRules.pushed]
  by_cases h : stack.depth < m.limits.stackDepth
  · rw [if_pos h]
    exact (if_pos h).symm
  · rw [if_neg h]
    exact (if_neg h).symm

/-- Whether a call fails is decided by the number of its operands. -/
theorem map_applyFunction (info : FunctionInfo) (operands : List Operand) :
    (m.applyFunction info operands).map (fun _ => ())
      = m.depthRules.called info operands.length := by
  have hbound : m.depthRules.isBound info.index = (m.functions.find? info.index).isSome := rfl
  rw [applyFunction, DepthRules.called, hbound]
  cases info.accepts operands.length with
  | false => rfl
  | true =>
    by_cases huser : info.index = Worksheet.userIndex
    · simp [huser, Except.map]
    · cases m.functions.find? info.index <;> simp [huser, Except.map]

/-- **A token does to the depth what counting says**, failures included. -/
theorem step_depth (index : Nat) (t : Token) (stack : Stack Operand) :
    (m.step index t stack).map Stack.depth = m.depthRules.step index t stack.depth := by
  rw [DepthRules.step]
  by_cases hfew : stack.depth < t.action.operandCount
  · rw [if_pos hfew, step_of_depth_lt hfew]
    rfl
  · rw [if_neg hfew]
    -- With the operands named, each action is its step lemma and what counting does with a length.
    obtain ⟨operands, below, hcount, rfl⟩ := Stack.exists_pushAll (Nat.not_lt.mp hfew)
    have hrest : (below.pushAll operands).depth - operands.length = below.depth :=
      Nat.add_sub_cancel_left ..
    cases haction : t.action with
    | combine op =>
      rw [haction] at hcount
      rw [step_combine haction hcount, map_pushed]
      simp only [← show operands.length = op.arity from hcount, hrest]
    | call info count =>
      rw [haction] at hcount
      obtain rfl : operands.length = count := hcount
      rw [step_call haction rfl]
      simp only [hrest, ← m.map_applyFunction]
      cases m.applyFunction info operands with
      | error e => rfl
      | ok operand => exact m.map_pushed index below operand
    | put leaf => rw [step_put haction, map_pushed]
    | _ => rw [step, haction]; rfl

theorem run_depth (index : Nat) (stack : Stack Operand) (f : Formula) :
    (m.run index stack f).map Stack.depth = walk m.depthRules.step index stack.depth f :=
  walk_map Stack.depth m.step_depth index stack f

end Machine

/-- A stack has only one entry exactly when its depth says so. -/
theorem Stack.only?_cases {α : Type} (s : Stack α) :
    (∃ a, s.only? = some a ∧ s.depth = 1) ∨ s.only? = none ∧ s.depth ≠ 1 := by
  rw [only?, s.depth_eq]
  match s.entries with
  | [] => exact .inr ⟨rfl, nofun⟩
  | [a] => exact .inl ⟨a, rfl, rfl⟩
  | _ :: _ :: _ => exact .inr ⟨rfl, nofun⟩

namespace Machine

variable (m : Machine)

/-- An evaluation is a run from the empty stack and a look at what it leaves. -/
theorem evaluate_eq (f : Formula) :
    m.evaluate f = (m.run 0 .empty f).bind fun stack =>
      match stack.only? with
      | some operand => .ok (m.result operand)
      | none => .error (.stack (.notSingular stack.depth)) := rfl

/-- **Counting meets the failures of an evaluation**, and no others. -/
theorem evaluate_check (f : Formula) :
    (m.evaluate f).map (fun _ => ()) = m.depthRules.check f := by
  have hrun : (m.run 0 .empty f).map Stack.depth = walk m.depthRules.step 0 0 f :=
    m.run_depth 0 .empty f
  rw [DepthRules.check, evaluate_eq, ← hrun]
  cases m.run 0 .empty f with
  | error e => rfl
  | ok stack =>
    obtain ⟨operand, honly, hdepth⟩ | ⟨honly, hdepth⟩ := stack.only?_cases
    · simp [Except.map, Except.bind, honly, hdepth]
    · simp [Except.map, Except.bind, honly, hdepth]

end Machine

/-! ### When there is no failure -/

/-- What holds at every token of a formula holds at its first one and at all tokens after it. -/
theorem forall_split_cons {P : Formula → Token → Prop} {t : Token} {f : Formula} :
    (∀ before u after, t :: f = before ++ u :: after → P before u) ↔
      P [] t ∧ ∀ before u after, f = before ++ u :: after → P (t :: before) u := by
  constructor
  · intro h
    exact ⟨h [] t f rfl, fun before u after hf => h (t :: before) u after (congrArg (t :: ·) hf)⟩
  · rintro ⟨hhead, htail⟩ before u after hf
    cases before with
    | nil => cases hf; exact hhead
    | cons t' before => cases hf; exact htail before u after rfl

/-- **A walk that counts** gets to the end exactly when each token is allowed where it stands. -/
theorem walk_depth_eq_ok_iff {ε : Type} {step : Nat → Token → Nat → Except ε Nat}
    {P : Token → Nat → Prop} (hstep : ∀ index t depth next,
      step index t depth = .ok next ↔ P t depth ∧ t.depthAfter depth = next)
    {f : Formula} {index depth next : Nat} :
    walk step index depth f = .ok next ↔
      (∀ before t after, f = before ++ t :: after → P t (Formula.depthAfter before depth)) ∧
        f.depthAfter depth = next := by
  induction f generalizing index depth with
  | nil => simp [walk]
  | cons t f ih =>
    rw [walk, forall_split_cons]
    cases hnext : step index t depth with
    | error e =>
      have hno : ¬ P t depth := by
        intro hallowed
        have hok := (hstep index t depth _).mpr ⟨hallowed, rfl⟩
        rw [hnext] at hok
        cases hok
      constructor
      · intro h
        cases h
      · intro h
        exact absurd h.1.1 hno
    | ok depth' =>
      obtain ⟨hallowed, rfl⟩ := (hstep index t depth _).mp hnext
      rw [ih, Formula.depthAfter_cons, and_assoc]
      exact ⟨fun h => ⟨hallowed, h⟩, And.right⟩

namespace DepthRules

/-- The token can be evaluated at this depth. -/
@[mk_iff] structure Admits (r : DepthRules) (t : Token) (depth : Nat) : Prop where
  /-- Its operands are there. -/
  operands : t.action.operandCount ≤ depth
  /-- Its value does not come on top of a full stack. -/
  room : 0 < t.action.resultCount → depth - t.action.operandCount < r.limit
  /-- It does not stand for the formula of another cell. -/
  resolved : t.action ≠ .unresolved
  /-- It does not call a function that is not in the catalogue. -/
  known : ∀ function, t.action ≠ .unknownFunction function
  /-- Something is bound to the function that it calls, unless the call is an error value anyway. -/
  bound : ∀ info count, t.action = .call info count → info.accepts count = true →
    info.index ≠ Worksheet.userIndex → r.isBound info.index = true

variable {r : DepthRules} {t : Token} {index depth next : Nat}

theorem pushed_eq_ok_iff :
    r.pushed index depth = .ok next ↔ depth < r.limit ∧ depth + 1 = next := by
  rw [pushed]
  by_cases h : depth < r.limit
  · simp [h]
  · simp [h]

theorem called_eq_ok_iff {info : FunctionInfo} {count : Nat} :
    r.called info count = .ok () ↔ (info.accepts count = true → info.index ≠ Worksheet.userIndex →
      r.isBound info.index = true) := by
  rw [called]
  by_cases h : info.accepts count = true ∧ info.index ≠ Worksheet.userIndex ∧
      r.isBound info.index = false
  · rw [if_pos h]
    simp [h]
  · rw [if_neg h]
    simpa using h

theorem called_bind_eq_ok_iff {info : FunctionInfo} {count : Nat} :
    ((r.called info count).bind fun _ => r.pushed index depth) = .ok next ↔
      r.called info count = .ok () ∧ r.pushed index depth = .ok next := by
  cases r.called info count <;> simp [Except.bind]

/-- **A token is evaluated exactly when it is admitted**, and then it does to the depth what its
counts say. -/
theorem step_eq_ok_iff :
    r.step index t depth = .ok next ↔ r.Admits t depth ∧ t.depthAfter depth = next := by
  rw [step, Token.depthAfter]
  by_cases hfew : depth < t.action.operandCount
  · rw [if_pos hfew]
    exact ⟨nofun, fun h => absurd h.1.operands (Nat.not_le.mpr hfew)⟩
  · rw [if_neg hfew, admits_iff]
    have hfits := Nat.not_lt.mp hfew
    cases haction : t.action with
    | combine op =>
      have hop : op.arity ≤ depth := by rwa [haction] at hfits
      simp [pushed_eq_ok_iff, Action.resultCount, Action.operandCount, hop]
    | call info count =>
      have hcount : count ≤ depth := by rwa [haction] at hfits
      simp [called_bind_eq_ok_iff, called_eq_ok_iff, pushed_eq_ok_iff, Action.resultCount,
        Action.operandCount, hcount, and_assoc, and_left_comm]
    | put leaf => simp [pushed_eq_ok_iff, Action.resultCount, Action.operandCount]
    | pass => simp [Action.resultCount, Action.operandCount]
    | enclose => simp [Action.resultCount, Action.operandCount]
    | unresolved => simp
    | unknownFunction function => simp

/-- Every token of the formula is admitted where it stands, beginning at a depth. -/
def AdmitsAll (r : DepthRules) (f : Formula) (depth : Nat) : Prop :=
  ∀ before t after, f = before ++ t :: after → r.Admits t (Formula.depthAfter before depth)

theorem admitsAll_cons {f : Formula} :
    r.AdmitsAll (t :: f) depth ↔ r.Admits t depth ∧ r.AdmitsAll f (t.depthAfter depth) :=
  forall_split_cons

/-- **A formula is gone through exactly when each of its tokens is admitted** where it stands. -/
theorem walk_eq_ok_iff {f : Formula} :
    walk r.step index depth f = .ok next ↔ r.AdmitsAll f depth ∧ f.depthAfter depth = next :=
  walk_depth_eq_ok_iff fun _ _ _ _ => step_eq_ok_iff

/-- **A formula does not fail exactly when each token is admitted** where it stands and one entry is
left at the end. -/
theorem check_eq_ok_iff {f : Formula} :
    r.check f = .ok () ↔ r.AdmitsAll f 0 ∧ f.depthAfter 0 = 1 := by
  rw [check, count_eq_ok_iff]
  exact walk_eq_ok_iff

/-- A token that is admitted does not take the depth past the limit. -/
theorem Admits.depthAfter_le (h : r.Admits t depth) (hdepth : depth ≤ r.limit) :
    t.depthAfter depth ≤ r.limit := by
  have hroom := h.room
  have hone := t.action.resultCount_le
  rw [Token.depthAfter]
  omega

/-- Nor do all tokens together, at any place in between. -/
theorem AdmitsAll.peak_le {f : Formula} (h : r.AdmitsAll f depth) (hdepth : depth ≤ r.limit) :
    f.peak depth ≤ r.limit := by
  induction f generalizing depth with
  | nil => exact hdepth
  | cons t f ih =>
    obtain ⟨hadmits, hrest⟩ := admitsAll_cons.mp h
    exact Nat.max_le.mpr ⟨hdepth, ih hrest (hadmits.depthAfter_le hdepth)⟩

end DepthRules

namespace Machine

variable {m : Machine}

/-- What is left of a run that does not fail has the depth that was counted. -/
theorem admitsAll_of_run {index : Nat} {stack stack' : Stack Operand} {f : Formula}
    (h : m.run index stack f = .ok stack') :
    m.depthRules.AdmitsAll f stack.depth ∧ f.depthAfter stack.depth = stack'.depth := by
  have hcount := m.run_depth index stack f
  rw [h] at hcount
  exact DepthRules.walk_eq_ok_iff.mp hcount.symm

/-- **The stack never holds more entries than its limit**, at any token that is reached. -/
theorem depth_le_of_run {f : Formula} {stack : Stack Operand} (h : m.run 0 .empty f = .ok stack) :
    stack.depth ≤ m.limits.stackDepth := by
  obtain ⟨hadmits, hdepth⟩ := admitsAll_of_run h
  calc stack.depth = f.depthAfter 0 := hdepth.symm
    _ ≤ f.peak 0 := f.depthAfter_le_peak 0
    _ ≤ m.limits.stackDepth := hadmits.peak_le (Nat.zero_le _)

theorem evaluate_eq_error_iff {f : Formula} {e : EvalError} :
    m.evaluate f = .error e ↔ m.depthRules.check f = .error e := by
  rw [← evaluate_check]
  cases m.evaluate f <;> simp [Except.map]

theorem exists_evaluate_eq_ok_iff {f : Formula} :
    (∃ v, m.evaluate f = .ok v) ↔ m.depthRules.check f = .ok () := by
  rw [← evaluate_check]
  cases m.evaluate f <;> simp [Except.map]

/-- **Failures do not depend on data.** Two evaluations with the same limit on the stack, and with
functions bound to the same indices, fail alike. A formula has a value exactly when each of its
tokens is admitted where it stands and one entry is left, and no evaluation has more entries than
the limit. -/
theorem failure_independent (m m' : Machine)
    (hlimit : m.limits.stackDepth = m'.limits.stackDepth)
    (hbound : ∀ index, m.functions.contains index = m'.functions.contains index) (f : Formula) :
    (∀ e, m.evaluate f = .error e ↔ m'.evaluate f = .error e) ∧
      ((∃ v, m.evaluate f = .ok v) ↔ m.depthRules.AdmitsAll f 0 ∧ f.depthAfter 0 = 1) ∧
      ∀ before after stack, f = before ++ after → m.run 0 .empty before = .ok stack →
        stack.depth ≤ m.limits.stackDepth := by
  have hrules : m.depthRules = m'.depthRules := DepthRules.ext hlimit (funext hbound)
  refine ⟨fun e => ?_, ?_, fun before after stack _ hrun => depth_le_of_run hrun⟩
  · rw [evaluate_eq_error_iff, evaluate_eq_error_iff, hrules]
  · rw [exists_evaluate_eq_ok_iff, DepthRules.check_eq_ok_iff]

/-- Two machines that share nothing but the limit and the index of their one function: an area of
errors is summed by one of them and ignored by the other, and both fail at the fourth token. -/
theorem failure_independent_overflow :
    let sums : Worksheet.Implementation := ⟨false, fun _ args => Worksheet.sum args⟩
    let ignores : Worksheet.Implementation := ⟨true, fun _ _ => Value.text "ignored"⟩
    let m : Machine := ⟨.ofCells fun _ _ _ => .error .na, .origin, ⟨2, 4, 8⟩, ⟨[(4, sums)]⟩⟩
    let m' : Machine := ⟨.ofCells fun _ _ _ => .blank, ⟨7, 7, true⟩, ⟨2, 0, 0⟩, ⟨[(4, ignores)]⟩⟩
    let area : Reference := .area ⟨.relative 0 0, .relative 1 1⟩
    let f : Formula :=
      [.reference area .reference, .hint .sum, .literal (.int 1), .literal (.int 2)]
    m.limits.stackDepth = m'.limits.stackDepth ∧
      (∀ index, m.functions.contains index = m'.functions.contains index) ∧
      m.evaluate f = .error (.overflow 3 2) ∧ m'.evaluate f = .error (.overflow 3 2) := by
  intro sums ignores m m' area f
  have hbound : ∀ index, m.functions.contains index = m'.functions.contains index := by
    intro index
    simp only [m, m', Worksheet.FunctionTable.contains, Worksheet.FunctionTable.find?,
      List.lookup_cons]
    cases index == 4 <;> rfl
  have hfails : m.evaluate f = .error (.overflow 3 2) := by rfl
  exact ⟨rfl, hbound, hfails, ((failure_independent m m' rfl hbound f).1 _).mp hfails⟩

end Machine

end CellFormula
