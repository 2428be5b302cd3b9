import CellFormula.Proofs.StackDepth
import Mathlib.Data.List.Forall2

/-!
# Self-contained formulas

A formula is self-contained if it does not look below the stack that it begins with. Such a formula
can stand anywhere inside a longer one, and does there what it does alone, as long as the stack has
room for it. `Machine.Pushes` says this of a formula together with the operand that it pushes.

Every formula that has a value is self-contained, because alone it begins with nothing to look at.
So whatever can be evaluated can be used as an argument.

## Composition

Self-contained formulas one after the other push their operands one after the other
(`Machine.run_flatten`), and a token that takes all of those leaves one operand in their place
(`Machine.Pushes.node`). These two lemmas are all that is needed to go through a formula by its
parts and not by its tokens.

## Main definitions

* `Stack.above` — the entries of one stack on top of another
* `Machine.Pushes` — a formula that pushes an operand

## Main results

* `Machine.run_above` — a run does the same on top of other entries
* `Machine.run_flatten`, `Machine.Pushes.node` — composition
* `Machine.evaluate_eq_ok_iff` — what has a value pushes an operand
-/

namespace CellFormula

/-! ### Stacks on top of stacks -/

namespace Stack

variable {α : Type}

/-- The entries of a stack on top of those of another one. -/
def above (s below : Stack α) : Stack α := below.pushAll s.entries.reverse

@[simp] theorem entries_above (s below : Stack α) :
    (s.above below).entries = s.entries ++ below.entries := by simp [above]

@[simp] theorem depth_above (s below : Stack α) :
    (s.above below).depth = s.depth + below.depth := by
  simp [above, s.depth_eq]

@[simp] theorem empty_above (below : Stack α) : empty.above below = below := ext (by simp [empty])

@[simp] theorem push_above (s below : Stack α) (a : α) :
    (s.push a).above below = (s.above below).push a := ext (by simp)

@[simp] theorem pushAll_above (s below : Stack α) (as : List α) :
    (s.pushAll as).above below = (s.above below).pushAll as := ext (by simp)

theorem pushAll_cons (s : Stack α) (a : α) (as : List α) :
    s.pushAll (a :: as) = (s.push a).pushAll as := ext (by simp)

theorem only?_eq_some {s : Stack α} {a : α} (h : s.only? = some a) : s = empty.push a := by
  rw [only?] at h
  split at h
  · next hentries =>
    cases h
    exact ext hentries
  · cases h

end Stack

/-! ### The depth on top of other entries -/

theorem DepthRules.Admits.depthAfter_add {r : DepthRules} {t : Token} {depth : Nat}
    (h : r.Admits t depth) (more : Nat) :
    t.depthAfter (depth + more) = t.depthAfter depth + more := by
  have hfits := h.operands
  rw [Token.depthAfter, Token.depthAfter]
  omega

theorem DepthRules.AdmitsAll.depthAfter_add {r : DepthRules} {f : Formula} {depth : Nat}
    (h : r.AdmitsAll f depth) (more : Nat) :
    f.depthAfter (depth + more) = f.depthAfter depth + more := by
  induction f generalizing depth with
  | nil => rfl
  | cons t f ih =>
    obtain ⟨hadmits, hrest⟩ := DepthRules.admitsAll_cons.mp h
    rw [Formula.depthAfter_cons, Formula.depthAfter_cons, hadmits.depthAfter_add, ih hrest]

/-- A token that makes one entry of several. -/
theorem Token.depthAfter_add_eq {t : Token} {count : Nat} (htakes : t.action.operandCount = count)
    (hgives : t.action.resultCount = 1) (depth : Nat) :
    t.depthAfter (depth + count) = depth + 1 := by
  rw [Token.depthAfter, htakes, hgives, Nat.add_sub_cancel]

/-- Formulas that leave one entry each leave one for each formula. -/
theorem Formula.depthAfter_flatten {α : Type} {R : Formula → α → Prop}
    (hone : ∀ f a, R f a → ∀ depth, f.depthAfter depth = depth + 1) {fs : List Formula}
    {as : List α} (h : List.Forall₂ R fs as) (depth : Nat) :
    Formula.depthAfter fs.flatten depth = depth + as.length := by
  induction h generalizing depth with
  | nil => rfl
  | cons hf _ ih =>
    rw [List.flatten_cons, Formula.depthAfter_append, hone _ _ hf, ih, List.length_cons]
    omega

namespace Machine

variable {m : Machine}

theorem pushed_of_lt {stack : Stack Operand} (h : stack.depth < m.limits.stackDepth) (index : Nat)
    (operand : Operand) : m.pushed index stack operand = .ok (stack.push operand) := if_pos h

/-! ### A run on top of other entries -/

/-- **A token does the same on top of other entries**, if the stack has room for them. -/
theorem step_above {index index' : Nat} {t : Token} {stack stack' below : Stack Operand}
    (h : m.step index t stack = .ok stack')
    (hroom : stack'.depth + below.depth ≤ m.limits.stackDepth) :
    m.step index' t (stack.above below) = .ok (stack'.above below) := by
  obtain ⟨hpass, rfl⟩ | ⟨operands, operand, rest, hmakes, rfl, -, rfl⟩ := step_cases h
  · exact hpass index' _
  · rw [Stack.depth_push] at hroom
    rw [Stack.pushAll_above, hmakes.step, Stack.push_above]
    exact pushed_of_lt (by rw [Stack.depth_above]; omega) _ _

/-- **A formula does the same on top of other entries**, if the stack never gets too deep. -/
theorem run_above {index index' : Nat} {f : Formula} {stack stack' below : Stack Operand}
    (h : m.run index stack f = .ok stack')
    (hroom : f.peak (stack.depth + below.depth) ≤ m.limits.stackDepth) :
    m.run index' (stack.above below) f = .ok (stack'.above below) := by
  induction f generalizing index index' stack with
  | nil => cases h; rfl
  | cons t f ih =>
    rw [run, walk] at h ⊢
    cases hstep : m.step index t stack with
    | error e => rw [hstep] at h; cases h
    | ok next =>
      rw [hstep] at h
      -- Counting says that the token fits, and so how deep the longer stack is after it.
      have hcount := m.step_depth index t stack
      rw [hstep] at hcount
      obtain ⟨hadmits, hdepth⟩ := DepthRules.step_eq_ok_iff.mp hcount.symm
      have hpeak : Formula.peak f (next.depth + below.depth) ≤ m.limits.stackDepth := by
        rw [← hdepth, ← hadmits.depthAfter_add]
        exact Nat.le_trans (Nat.le_max_right _ _) hroom
      rw [step_above hstep (Nat.le_trans (Formula.le_peak f _) hpeak)]
      exact ih h hpeak

/-! ### Formulas that push an operand -/

/-- The formula pushes the operand, whatever lies below, unless the stack gets too deep. -/
structure Pushes (m : Machine) (f : Formula) (operand : Operand) : Prop where
  run_eq : ∀ (index : Nat) (below : Stack Operand), f.peak below.depth ≤ m.limits.stackDepth →
    m.run index below f = .ok (below.push operand)
  depthAfter_eq : ∀ depth, f.depthAfter depth = depth + 1

/-- **Formulas one after the other push their operands one after the other.** -/
theorem run_flatten {fs : List Formula} {operands : List Operand}
    (h : List.Forall₂ m.Pushes fs operands) {index : Nat} {below : Stack Operand}
    (hroom : Formula.peak fs.flatten below.depth ≤ m.limits.stackDepth) :
    m.run index below fs.flatten = .ok (below.pushAll operands) := by
  induction h generalizing index below with
  | nil => rw [Stack.pushAll_nil]; rfl
  | @cons f operand fs operands hf _ ih =>
    rw [List.flatten_cons, Formula.peak_append, hf.depthAfter_eq] at hroom
    obtain ⟨hfirst, hrest⟩ := Nat.max_le.mp hroom
    rw [List.flatten_cons, run, walk_append, ← run, hf.run_eq index below hfirst,
      Stack.pushAll_cons]
    exact ih hrest

theorem depthAfter_flatten {fs : List Formula} {operands : List Operand}
    (h : List.Forall₂ m.Pushes fs operands) (depth : Nat) :
    Formula.depthAfter fs.flatten depth = depth + operands.length :=
  Formula.depthAfter_flatten (fun _ _ hf => hf.depthAfter_eq) h depth

/-- **A token that makes an operand** is self-contained together with the formulas that push those
that it takes. -/
theorem Pushes.node {fs : List Formula} {operands : List Operand}
    (h : List.Forall₂ m.Pushes fs operands) {t : Token} {operand : Operand}
    (hmakes : m.Makes t.action operands operand) : m.Pushes (fs.flatten ++ [t]) operand where
  run_eq index below hroom := by
    rw [Formula.peak_append, depthAfter_flatten h] at hroom
    obtain ⟨hparts, htoken⟩ := Nat.max_le.mp hroom
    have hroom' : below.depth < m.limits.stackDepth := by
      rw [Formula.peak, Formula.peak,
        Token.depthAfter_add_eq hmakes.operandCount_eq hmakes.resultCount_eq] at htoken
      exact (Nat.max_le.mp htoken).2
    rw [run, walk_append, ← run, run_flatten h hparts]
    simp only [Except.bind, walk, hmakes.step]
    rw [pushed_of_lt hroom']
  depthAfter_eq depth := by
    rw [Formula.depthAfter_append, depthAfter_flatten h, Formula.depthAfter_cons,
      Token.depthAfter_add_eq hmakes.operandCount_eq hmakes.resultCount_eq]
    rfl

theorem pushes_leaf {t : Token} {leaf : Leaf} (h : t.action = .put leaf) :
    m.Pushes [t] (m.leafOperand leaf) :=
  Pushes.node (List.Forall₂.nil : List.Forall₂ m.Pushes [] []) (by rw [h]; exact .put leaf)

theorem pushes_combine {fs : List Formula} {operands : List Operand}
    (h : List.Forall₂ m.Pushes fs operands) {t : Token} {op : Operator}
    (haction : t.action = .combine op) (hcount : operands.length = op.arity) :
    m.Pushes (fs.flatten ++ [t]) (m.applyOperator op operands) :=
  .node h (by rw [haction]; exact .combine op operands hcount)

theorem pushes_call {fs : List Formula} {operands : List Operand}
    (h : List.Forall₂ m.Pushes fs operands) {t : Token} {info : Worksheet.FunctionInfo}
    {operand : Operand} (haction : t.action = .call info operands.length)
    (hcall : m.applyFunction info operands = .ok operand) :
    m.Pushes (fs.flatten ++ [t]) operand :=
  .node h (by rw [haction]; exact .call info operands operand hcall)

/-! ### Formulas that have a value -/

theorem Pushes.evaluate {f : Formula} {operand : Operand} (h : m.Pushes f operand)
    (hroom : f.peak 0 ≤ m.limits.stackDepth) : m.evaluate f = .ok (m.result operand) := by
  rw [evaluate_eq, h.run_eq 0 .empty hroom]
  rfl

/-- **What has a value pushes an operand**, on top of any stack with room for it. -/
theorem evaluate_eq_ok_iff {f : Formula} {v : Value} :
    m.evaluate f = .ok v ↔
      ∃ operand, m.Pushes f operand ∧ f.peak 0 ≤ m.limits.stackDepth ∧ m.result operand = v := by
  constructor
  · intro h
    rw [evaluate_eq] at h
    cases hrun : m.run 0 .empty f with
    | error e => rw [hrun] at h; cases h
    | ok stack =>
      rw [hrun] at h
      cases honly : stack.only? with
      | none => simp [Except.bind, honly] at h
      | some operand =>
        obtain rfl := Stack.only?_eq_some honly
        obtain ⟨hadmits, hdepth⟩ := admitsAll_of_run hrun
        refine ⟨operand, ⟨fun index below hroom => ?_, fun depth => ?_⟩,
          hadmits.peak_le (Nat.zero_le _), ?_⟩
        · rw [← Stack.empty_above below, ← Stack.push_above]
          refine run_above hrun ?_
          rwa [show (Stack.empty : Stack Operand).depth = 0 from rfl, Nat.zero_add]
        · calc f.depthAfter depth = f.depthAfter (0 + depth) := by rw [Nat.zero_add]
            _ = f.depthAfter 0 + depth := hadmits.depthAfter_add depth
            _ = depth + 1 := by rw [show f.depthAfter 0 = 1 from hdepth, Nat.add_comm]
        · cases h
          rfl
  · rintro ⟨operand, hpushes, hroom, rfl⟩
    exact hpushes.evaluate hroom

end Machine

end CellFormula
