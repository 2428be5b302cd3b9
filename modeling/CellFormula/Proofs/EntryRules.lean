import CellFormula.Formula.Text
import CellFormula.Proofs.CallArguments

/-!
# Walks that differ in their entries only

What a token asks of a stack does not depend on what the entries are. So a walk through a formula is
given by what it makes of leaves, operators and calls, and one proof about such walks holds of all
of them: the text of a formula is one of them, and whatever can be told of a text from the tokens
alone is another, which runs in step with it.

## The contract of a walk

`EntryRules.exists_parts`: each entry was pushed by a part of the formula of its own, and the parts
stand one after the other. A part does the same above any stack and at any place, so it is a formula
by itself, and the text of an operand is the text of its part. Tokens that do nothing belong to the
part before them.

## Main definitions

* `EntryRules`, `EntryRules.step` — a walk, given by the entries it makes
* `EntryRules.Makes`, `EntryRules.Pushes` — what a token makes, and what a formula pushes
* `Labels.rules` — writing a formula out
* `EntryRules.Agree` — two walks whose entries have something to do with each other

## Main results

* `EntryRules.step_cases` — what a token does
* `EntryRules.exists_parts` — entries are pushed by parts of the formula
* `EntryRules.Agree.walk` — two such walks stay in step
* `Labels.text_of_pushes`, `Labels.exists_walk_of_text` — a text is that of the one entry
-/

namespace CellFormula

open Worksheet (FunctionInfo)

/-- What a walk makes of the leaves, the operators and the calls of a formula. -/
structure EntryRules (α : Type) where
  put : Leaf → α
  /-- The entry for parentheses around the last one. -/
  enclose : List α → α
  combine : Operator → List α → α
  call : FunctionInfo → List α → α

namespace EntryRules

variable {α β : Type}

/-- The stack after the token at a place in the formula. -/
def step (r : EntryRules α) (index : Nat) (t : Token) (stack : Stack α) :
    Except StackFault (Stack α) :=
  match t.action with
  | .pass => .ok stack
  | .unresolved => .error (.unresolved index)
  | .unknownFunction function => .error (.unknownFunction index function)
  | .put leaf => .ok (stack.push (r.put leaf))
  | .enclose => do
    let (taken, below) ← stack.operands index t 1
    return below.push (r.enclose taken)
  | .combine op => do
    let (taken, below) ← stack.operands index t op.arity
    return below.push (r.combine op taken)
  | .call info count => do
    let (taken, below) ← stack.operands index t count
    return below.push (r.call info taken)

/-- What an action makes of the entries that it takes. -/
inductive Makes (r : EntryRules α) : Action → List α → α → Prop
  | put (leaf : Leaf) : Makes r (.put leaf) [] (r.put leaf)
  | enclose (a : α) : Makes r .enclose [a] (r.enclose [a])
  | combine (op : Operator) (as : List α) (count : as.length = op.arity) :
    Makes r (.combine op) as (r.combine op as)
  | call (info : FunctionInfo) (as : List α) : Makes r (.call info as.length) as (r.call info as)

/-- The formula pushes the entry, whatever lies below. -/
def Pushes (r : EntryRules α) (f : Formula) (a : α) : Prop :=
  ∀ (index : Nat) (below : Stack α), walk r.step index below f = .ok (below.push a)

variable {r : EntryRules α} {index : Nat} {t : Token}

/-! ### One token -/

/-- Entries that are there are taken off, and one is put in their place. -/
theorem operands_bind_pushAll (below : Stack α) (as : List α) (make : List α → α) :
    (((below.pushAll as).operands index t as.length).bind fun (taken, below) =>
      Except.ok (below.push (make taken))) = .ok (below.push (make as)) := by
  rw [Stack.operands_pushAll]
  rfl

/-- A token puts what it makes in the place of what it takes. -/
theorem Makes.step {as : List α} {a : α} (h : r.Makes t.action as a) (below : Stack α) :
    r.step index t (below.pushAll as) = .ok (below.push a) := by
  cases haction : t.action with
  | put leaf =>
    rw [haction] at h
    cases h
    rw [EntryRules.step, haction, Stack.pushAll_nil]
  | enclose =>
    rw [haction] at h
    cases h with
    | enclose a =>
      rw [EntryRules.step, haction]
      exact operands_bind_pushAll below [a] r.enclose
  | combine op =>
    rw [haction] at h
    cases h with
    | combine _ _ count =>
      rw [EntryRules.step, haction]
      simp only [← count]
      exact operands_bind_pushAll below as (r.combine op)
  | call info count =>
    rw [haction] at h
    cases h with
    | call _ as =>
      rw [EntryRules.step, haction]
      exact operands_bind_pushAll below as (r.call info)
  | _ => rw [haction] at h; cases h

/-- Taking entries off and putting one in their place succeeds if the entries are there. -/
theorem exists_of_operands_bind {stack stack' : Stack α} {count : Nat} {make : List α → α}
    (h : ((stack.operands index t count).bind fun (taken, below) =>
      Except.ok (below.push (make taken))) = .ok stack') :
    ∃ as below, as.length = count ∧ stack = Stack.pushAll below as ∧
      stack' = below.push (make as) := by
  by_cases hfew : stack.depth < count
  · rw [Stack.operands_of_lt hfew] at h
    cases h
  · obtain ⟨as, below, rfl, rfl⟩ := Stack.exists_pushAll (Nat.not_lt.mp hfew)
    rw [Stack.operands_pushAll] at h
    exact ⟨as, below, rfl, rfl, (Except.ok.inj h).symm⟩

/-- **What a token does**, if it does not fail: nothing, or it puts what it makes in the place of
what it takes. -/
theorem step_cases {stack stack' : Stack α} (h : r.step index t stack = .ok stack') :
    (t.action = .pass ∧ stack' = stack) ∨
      ∃ as a, ∃ below : Stack α, r.Makes t.action as a ∧ stack = below.pushAll as ∧
        stack' = below.push a := by
  rw [EntryRules.step] at h
  cases haction : t.action with
  | pass =>
    rw [haction] at h
    exact .inl ⟨rfl, (Except.ok.inj h).symm⟩
  | put leaf =>
    rw [haction] at h
    exact .inr ⟨[], _, stack, .put leaf, stack.pushAll_nil.symm, (Except.ok.inj h).symm⟩
  | enclose =>
    rw [haction] at h
    obtain ⟨as, below, hcount, rfl, rfl⟩ := exists_of_operands_bind h
    obtain ⟨a, rfl⟩ := List.length_eq_one_iff.mp hcount
    exact .inr ⟨[a], _, below, .enclose a, rfl, rfl⟩
  | combine op =>
    rw [haction] at h
    obtain ⟨as, below, hcount, rfl, rfl⟩ := exists_of_operands_bind h
    exact .inr ⟨as, _, below, .combine op as hcount, rfl, rfl⟩
  | call info count =>
    rw [haction] at h
    obtain ⟨as, below, rfl, rfl, rfl⟩ := exists_of_operands_bind h
    exact .inr ⟨as, _, below, .call info as, rfl, rfl⟩
  | unresolved | unknownFunction => rw [haction] at h; cases h

/-- A call takes its arguments and puts its entry in their place. -/
theorem exists_taken_of_call {stack stack' : Stack α} {info : FunctionInfo} {count : Nat}
    (hcall : t.action = .call info count) (h : r.step index t stack = .ok stack') :
    ∃ as, ∃ below : Stack α, as.length = count ∧ r.Makes t.action as (r.call info as) ∧
      stack = below.pushAll as ∧ stack' = below.push (r.call info as) := by
  rw [hcall]
  obtain ⟨hpass, -⟩ | ⟨as, a, below, hmade, rfl, rfl⟩ := step_cases h
  · rw [hcall] at hpass
    cases hpass
  · rw [hcall] at hmade
    cases hmade with
    | call _ as => exact ⟨as, below, rfl, .call info as, rfl, rfl⟩

theorem step_of_pass (h : t.action = .pass) (stack : Stack α) :
    r.step index t stack = .ok stack := by
  rw [EntryRules.step, h]

/-! ### Formulas that push an entry -/

/-- Formulas one after the other push their entries one after the other. -/
theorem walk_flatten {fs : List Formula} {as : List α} (h : List.Forall₂ r.Pushes fs as)
    (index : Nat) (below : Stack α) :
    walk r.step index below fs.flatten = .ok (below.pushAll as) := by
  induction h generalizing index below with
  | nil => rw [Stack.pushAll_nil]; rfl
  | @cons f a fs as hf _ ih =>
    rw [List.flatten_cons, walk_append, hf, Stack.pushAll_cons]
    exact ih _ _

/-- **A token that makes an entry** pushes it together with the formulas that push those that it
takes. -/
theorem Pushes.node {fs : List Formula} {as : List α} (h : List.Forall₂ r.Pushes fs as) {a : α}
    (hmakes : r.Makes t.action as a) : r.Pushes (fs.flatten ++ [t]) a := by
  intro index below
  rw [walk_append, walk_flatten h]
  simp only [Except.bind, walk, hmakes.step]

theorem Pushes.append_pass {f : Formula} {a : α} (h : r.Pushes f a) (hpass : t.action = .pass) :
    r.Pushes (f ++ [t]) a := by
  intro index below
  rw [walk_append, h]
  simp only [Except.bind, walk, step_of_pass hpass]

/-- A walk to which one token is added is the walk, and then that token. -/
theorem exists_of_walk_concat {f : Formula} {stack stack' : Stack α}
    (h : walk r.step index stack (f ++ [t]) = .ok stack') :
    ∃ next, walk r.step index stack f = .ok next ∧
      r.step (index + f.length) t next = .ok stack' := by
  obtain ⟨next, hwalk, hlast⟩ := walk_append_eq_ok_iff.mp h
  refine ⟨next, hwalk, ?_⟩
  rw [walk] at hlast
  cases hstep : r.step (index + f.length) t next with
  | error e => rw [hstep] at hlast; cases hlast
  | ok reached => rw [hstep] at hlast; exact hlast

/-- **Every entry was pushed by a part of the formula**, and the parts stand one after the other.
The entries come last one first here, and so do the parts. -/
theorem exists_parts {f : Formula} {stack : Stack α} (h : walk r.step 0 .empty f = .ok stack) :
    ∃ lead parts, f = lead ++ parts.reverse.flatten ∧
      List.Forall₂ r.Pushes parts stack.entries := by
  induction f using List.reverseRecOn generalizing stack with
  | nil => cases h; exact ⟨[], [], rfl, .nil⟩
  | append_singleton f t ih =>
    obtain ⟨next, hwalk, hstep⟩ := exists_of_walk_concat h
    obtain ⟨lead, parts, rfl, hparts⟩ := ih hwalk
    obtain ⟨hpass, rfl⟩ | ⟨as, a, below, hmade, rfl, rfl⟩ := step_cases hstep
    · -- A token that does nothing belongs to the part before it.
      generalize stack.entries = entries at hparts ⊢
      cases hparts with
      | nil => exact ⟨lead ++ [t], [], by simp, .nil⟩
      | @cons part a parts entries hpart hparts =>
        exact ⟨lead, (part ++ [t]) :: parts, by simp, .cons (hpart.append_pass hpass) hparts⟩
    · -- A token that makes an entry makes one part of those that it takes entries from.
      obtain ⟨rest, fs, hsplit, hrest, hfs⟩ := Machine.exists_last_parts hparts
      refine ⟨lead, (fs.flatten ++ [t]) :: rest, ?_, .cons (.node hfs hmade) hrest⟩
      rw [hsplit]
      simp

/-- **What a token takes was pushed by the parts of the formula before it.** -/
theorem exists_parts_of_taken {before : Formula} {below : Stack α} {as : List α}
    (h : walk r.step 0 .empty before = .ok (below.pushAll as)) :
    ∃ lead fs, before = lead ++ fs.flatten ∧ List.Forall₂ r.Pushes fs as := by
  obtain ⟨lead, parts, rfl, hparts⟩ := exists_parts h
  obtain ⟨rest, fs, hsplit, -, hfs⟩ := Machine.exists_last_parts hparts
  exact ⟨lead ++ rest.reverse.flatten, fs, by rw [hsplit, List.append_assoc], hfs⟩

/-! ### What later tokens make of an entry -/

/-- **No token loses an entry.** If what a token makes lies above what it takes, every entry stays
below one of those that are there later. -/
theorem exists_above_of_walk (le : α → α → Prop) (hrefl : ∀ a, le a a)
    (htrans : ∀ {a b c}, le a b → le b c → le a c)
    (hmakes : ∀ {action as a}, r.Makes action as a → ∀ b ∈ as, le b a) {f : Formula}
    {stack stack' : Stack α} (h : walk r.step index stack f = .ok stack') :
    ∀ a ∈ stack.entries, ∃ b ∈ stack'.entries, le a b := by
  induction f generalizing index stack with
  | nil => cases h; exact fun a ha => ⟨a, ha, hrefl a⟩
  | cons t f ih =>
    rw [walk] at h
    cases hstep : r.step index t stack with
    | error e => rw [hstep] at h; cases h
    | ok next =>
      rw [hstep] at h
      have hnext : ∀ a ∈ stack.entries, ∃ b ∈ next.entries, le a b := by
        obtain ⟨-, rfl⟩ | ⟨as, made, below, hmade, rfl, rfl⟩ := step_cases hstep
        · exact fun a ha => ⟨a, ha, hrefl a⟩
        · intro a ha
          rw [Stack.entries_pushAll, List.mem_append, List.mem_reverse] at ha
          obtain htaken | hbelow := ha
          · exact ⟨made, List.mem_cons_self .., hmakes hmade a htaken⟩
          · exact ⟨a, List.mem_cons_of_mem _ hbelow, hrefl a⟩
      intro a ha
      obtain ⟨b, hb, hab⟩ := hnext a ha
      obtain ⟨c, hc, hbc⟩ := ih h b hb
      exact ⟨c, hc, htrans hab hbc⟩

/-! ### Two walks in step -/

/-- What two walks make of entries that belong together belongs together. The functions that are
called are those of the catalogue. -/
structure Agree (R : α → β → Prop) (r : EntryRules α) (r' : EntryRules β) : Prop where
  put : ∀ leaf, R (r.put leaf) (r'.put leaf)
  enclose : ∀ {a b}, R a b → R (r.enclose [a]) (r'.enclose [b])
  combine : ∀ op {as bs}, as.length = op.arity → List.Forall₂ R as bs →
    R (r.combine op as) (r'.combine op bs)
  call : ∀ {info}, Worksheet.functionAt? info.index = some info → ∀ {as bs}, List.Forall₂ R as bs →
    R (r.call info as) (r'.call info bs)

namespace Agree

variable {R : α → β → Prop} {r' : EntryRules β}

/-- What one walk makes of its entries, the other one makes of those that belong to them. -/
theorem exists_makes (h : Agree R r r') {as : List α} {a : α} (hmakes : r.Makes t.action as a)
    {bs : List β} (hbs : List.Forall₂ R as bs) : ∃ b, r'.Makes t.action bs b ∧ R a b := by
  generalize haction : t.action = action at hmakes
  cases hmakes with
  | put leaf =>
    cases hbs
    exact ⟨_, .put leaf, h.put leaf⟩
  | enclose a =>
    obtain ⟨b, bs, hab, hnil, rfl⟩ := List.forall₂_cons_left_iff.mp hbs
    cases hnil
    exact ⟨_, .enclose b, h.enclose hab⟩
  | combine op _ count => exact ⟨_, .combine op bs (hbs.length_eq ▸ count), h.combine op count hbs⟩
  | call info as =>
    rw [hbs.length_eq]
    exact ⟨_, .call info bs, h.call (Token.functionAt?_of_action haction) hbs⟩

/-- Entries that belong to those on top of a stack are on top too. -/
theorem exists_pushAll {below : Stack α} {as : List α} {stack' : Stack β}
    (h : List.Forall₂ R (below.pushAll as).entries stack'.entries) :
    ∃ bs below', stack' = Stack.pushAll below' bs ∧ List.Forall₂ R as bs ∧
      List.Forall₂ R below.entries below'.entries := by
  have hdepth : as.length ≤ stack'.depth := by
    rw [stack'.depth_eq, ← h.length_eq, Stack.entries_pushAll, List.length_append,
      List.length_reverse]
    exact Nat.le_add_right _ _
  obtain ⟨bs, below', hlength, rfl⟩ := Stack.exists_pushAll hdepth
  have hflip := h.flip
  rw [Stack.entries_pushAll, Stack.entries_pushAll] at hflip
  have htaken := List.forall₂_take_append _ _ _ hflip
  have hbelow := List.forall₂_drop_append _ _ _ hflip
  rw [List.length_reverse, ← hlength, ← List.length_reverse, List.take_left] at htaken
  rw [List.length_reverse, ← hlength, ← List.length_reverse, List.drop_left] at hbelow
  exact ⟨bs, below', rfl, (List.forall₂_reverse_iff.mp htaken).flip, hbelow.flip⟩

/-- **Two walks that agree stay in step**: where one gets to, the other does. -/
theorem walk (h : Agree R r r') {f : Formula} {stack reached : Stack α} {stack' : Stack β}
    (hwalk : CellFormula.walk r.step index stack f = .ok reached)
    (hstack : List.Forall₂ R stack.entries stack'.entries) :
    ∃ reached', CellFormula.walk r'.step index stack' f = .ok reached' ∧
      List.Forall₂ R reached.entries reached'.entries := by
  induction f generalizing index stack stack' with
  | nil => cases hwalk; exact ⟨stack', rfl, hstack⟩
  | cons t f ih =>
    rw [CellFormula.walk] at hwalk ⊢
    cases hstep : r.step index t stack with
    | error e => rw [hstep] at hwalk; cases hwalk
    | ok next =>
      rw [hstep] at hwalk
      obtain ⟨next', hstep', hnext⟩ : ∃ next', r'.step index t stack' = .ok next' ∧
          List.Forall₂ R next.entries next'.entries := by
        obtain ⟨hpass, rfl⟩ | ⟨as, a, below, hmade, rfl, rfl⟩ := step_cases hstep
        · exact ⟨stack', step_of_pass hpass stack', hstack⟩
        · obtain ⟨bs, below', rfl, hbs, hbelow⟩ := exists_pushAll hstack
          obtain ⟨b, hmade', hab⟩ := h.exists_makes hmade hbs
          exact ⟨_, hmade'.step below', .cons hab hbelow⟩
      rw [hstep']
      exact ih hwalk hnext

/-- What one walk pushes belongs to what the other one leaves. -/
theorem exists_of_pushes (h : Agree R r r') {f : Formula} {a : α} (hf : r.Pushes f a) :
    ∃ b, CellFormula.walk r'.step 0 .empty f = .ok (.push .empty b) ∧ R a b := by
  have hempty : List.Forall₂ R (Stack.empty : Stack α).entries (Stack.empty : Stack β).entries :=
    .nil
  obtain ⟨stack, hwalk, hentries⟩ := h.walk (hf 0 .empty) hempty
  obtain ⟨b, bs, hab, hnil, hstack⟩ := List.forall₂_cons_left_iff.mp hentries
  cases hnil
  have honly : stack = .push .empty b := Stack.ext hstack
  exact ⟨b, by rw [hwalk, honly], hab⟩

end Agree

end EntryRules

/-! ### Writing a formula out -/

namespace Labels

/-- The rules by which a formula is written out. -/
def rules (labels : Labels) : EntryRules Phrase where
  put leaf := .atom (labels.leafText leaf)
  enclose := .ofEnclosed
  combine := .ofOperator
  call := .ofCall

theorem step_rules (labels : Labels) : labels.step = labels.rules.step := rfl

variable {labels : Labels} {f : Formula}

/-- What a formula pushes is its text. -/
theorem text_of_pushes {p : Phrase} (h : labels.rules.Pushes f p) : f.text labels = .ok p.text := by
  rw [Formula.text, step_rules, h 0 .empty]
  rfl

/-- A formula with a text leaves the phrase that has it. -/
theorem exists_walk_of_text {s : String} (h : f.text labels = .ok s) :
    ∃ p : Phrase, walk labels.rules.step 0 .empty f = .ok (.push .empty p) ∧ p.text = s := by
  rw [Formula.text, step_rules] at h
  cases hwalk : walk labels.rules.step 0 .empty f with
  | error e => rw [hwalk] at h; cases h
  | ok stack =>
    simp only [hwalk, bind, Except.bind] at h
    cases honly : stack.only? with
    | none => rw [honly] at h; cases h
    | some p =>
      rw [honly] at h
      exact ⟨p, by rw [Stack.only?_eq_some honly], Except.ok.inj h⟩

end Labels

end CellFormula
