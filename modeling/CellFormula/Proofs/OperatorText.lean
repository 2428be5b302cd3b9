import CellFormula.Proofs.AddressText
import CellFormula.Proofs.EntryRules

/-!
# The text of operators tells the tree

A formula of cells and operators is stored without parentheses, and its text has those that are
needed. Here the text is read back: its marks are told apart by their characters, and a reader that
goes through the marks once builds the tree again. So no two trees have the same text.

## How the reader decides

An operator that has its left operand waits until it is known how far its right one goes. The reader
keeps what waits, the innermost first. A sign behind an operand first completes everything that
waits and binds at least as tightly (`OperatorTree.complete`), and a closing parenthesis completes
everything up to the opening one. That two operators may share a sign does no harm: a sign where an
operand is missing stands before its operand, and any other stands behind or between.

The text of a tree is written for this reader. What waits around an operand without parentheses
binds more loosely than the operand, so none of it is completed while the operand is read, and
`OperatorTree.reads` is an induction on the tree with that as its hypothesis.

## Main definitions

* `OperatorTree`, `OperatorTree.Tokens` — the trees and the formulas that store them
* `Mark`, `OperatorTree.marks` — a text as the marks that it is made of
* `Mark.alternate` — operands and operators in turn
* `TreeReader` — the reader

## Main results

* `Mark.eq_of_allChars_eq` — marks in turn are told from their characters
* `OperatorTree.read_marks` — the reader builds the tree of a text
* `OperatorTree.text_eq_iff` — formulas have one text exactly when their trees are the same
-/

namespace CellFormula

/-! ### Trees -/

/-- A formula of cells and operators, as a tree. -/
inductive OperatorTree
  | cell (c : CellRef)
  | unary (op : Operator) (isUnary : op.isUnary = true) (operand : OperatorTree)
  | binary (op : Operator) (isBinary : op.isUnary = false) (left right : OperatorTree)
deriving DecidableEq, Repr

/-- The operator stands before its operand. -/
def Operator.standsBefore (op : Operator) : Bool := op.isUnary && op != .percent

/-- A sign tells the operator, if it is known whether that stands before its operand. -/
theorem Operator.symbol_injective {op op' : Operator} (h : op.symbol = op'.symbol)
    (hstands : op.standsBefore = op'.standsBefore) : op = op' := by
  let found (op : Operator) : Option Operator :=
    Operator.all.find? fun o => o.symbol == op.symbol && o.standsBefore == op.standsBefore
  have hfound : ∀ op, found op = some op := by intro op; cases op <;> decide
  have hsame : found op = found op' := by simp only [found, h, hstands]
  exact Option.some.inj ((hfound op).symm.trans (hsame.trans (hfound op')))

namespace OperatorTree

/-- The tokens of a tree, each operator behind its operands. The class of a cell does not belong to
the tree. -/
inductive Tokens : OperatorTree → Formula → Prop
  | cell (c : CellRef) (cls : OperandClass) : Tokens (.cell c) [.reference (.cell c) cls]
  | unary (op : Operator) (isUnary : op.isUnary = true) {e : OperatorTree} {f : Formula} :
    Tokens e f → Tokens (.unary op isUnary e) (f ++ [.operator op])
  | binary (op : Operator) (isBinary : op.isUnary = false) {l r : OperatorTree} {f g : Formula} :
    Tokens l f → Tokens r g → Tokens (.binary op isBinary l r) (f ++ g ++ [.operator op])

/-- The phrase of a tree, from those of its branches. -/
def phrase : OperatorTree → Phrase
  | cell c => .atom c.text
  | unary op _ e => .ofOperator op [e.phrase]
  | binary op _ l r => .ofOperator op [l.phrase, r.phrase]

/-- **The tokens of a tree push its phrase.** -/
theorem Tokens.pushes {e : OperatorTree} {f : Formula} (h : e.Tokens f) (labels : Labels) :
    labels.rules.Pushes f e.phrase := by
  induction h with
  | cell c cls =>
    exact EntryRules.Pushes.node (List.Forall₂.nil : List.Forall₂ labels.rules.Pushes [] [])
      (.put (.reference (.cell c)))
  | @unary op isUnary e f _ ih =>
    have hcount : [e.phrase].length = op.arity := by rw [Operator.arity, if_pos isUnary]; rfl
    have h := EntryRules.Pushes.node (.cons ih .nil) (t := .operator op) (.combine op _ hcount)
    rwa [List.flatten_cons, List.flatten_nil, List.append_nil] at h
  | @binary op isBinary l r f g _ _ ihl ihr =>
    have hcount : [l.phrase, r.phrase].length = op.arity := by
      rw [Operator.arity, if_neg (by rw [isBinary]; decide)]
      rfl
    have h := EntryRules.Pushes.node (.cons ihl (.cons ihr .nil)) (t := .operator op)
      (.combine op _ hcount)
    rwa [List.flatten_cons, List.flatten_cons, List.flatten_nil, List.append_nil] at h

theorem Tokens.text {e : OperatorTree} {f : Formula} (h : e.Tokens f) (labels : Labels) :
    f.text labels = .ok e.phrase.text :=
  Labels.text_of_pushes (h.pushes labels)

/-- How tightly the outermost operator binds. -/
def precedence : OperatorTree → Nat
  | cell _ => Phrase.atomPrecedence
  | unary op _ _ => op.precedence
  | binary op _ _ _ => op.precedence

theorem precedence_phrase (e : OperatorTree) : e.phrase.precedence = e.precedence := by
  cases e with
  | cell c => rfl
  | unary op isUnary e => rw [phrase, Phrase.ofOperator]; split <;> rfl
  | binary op isBinary l r => rfl

end OperatorTree

/-! ### Marks -/

/-- What the text of a tree is made of. -/
inductive Mark
  | cell (c : CellRef)
  | opening
  | closing
  | sign (op : Operator)
deriving DecidableEq, Repr

namespace Mark

/-- The characters of a mark. -/
def chars : Mark → List Char
  | cell c => c.text.toList
  | opening => ['(']
  | closing => [')']
  | sign op => op.symbol.toList

/-- The characters of marks, one after the other. -/
def allChars (xs : List Mark) : List Char := xs.flatMap chars

/-- Marks in parentheses, if need be. -/
def enclosedIf (needed : Bool) (xs : List Mark) : List Mark :=
  if needed then opening :: xs ++ [closing] else xs

end Mark

/-- The marks of a tree. -/
def OperatorTree.marks : OperatorTree → List Mark
  | cell c => [.cell c]
  | unary op _ e =>
    let operand := Mark.enclosedIf (e.precedence < op.precedence) e.marks
    if op = .percent then operand ++ [.sign op] else .sign op :: operand
  | binary op _ l r =>
    Mark.enclosedIf (l.precedence < op.precedence) l.marks ++
      .sign op :: Mark.enclosedIf (r.precedence ≤ op.precedence) r.marks

theorem Mark.allChars_append (xs ys : List Mark) :
    allChars (xs ++ ys) = allChars xs ++ allChars ys :=
  List.flatMap_append

theorem Mark.allChars_enclosedIf (needed : Bool) {p : Phrase} {xs : List Mark}
    (h : allChars xs = p.text.toList) :
    allChars (enclosedIf needed xs) = (p.textEnclosedIf needed).toList := by
  cases needed with
  | false => exact h
  | true =>
    rw [enclosedIf, if_pos rfl, allChars_append, Phrase.textEnclosedIf, if_pos rfl,
      Phrase.enclosedText, String.toList_append, String.toList_append, ← h]
    rfl

/-- **The text of a tree** is that of its marks. -/
theorem OperatorTree.allChars_marks (e : OperatorTree) :
    Mark.allChars e.marks = e.phrase.text.toList := by
  induction e with
  | cell c => exact List.append_nil _
  | unary op isUnary e ih =>
    have hoperand := Mark.allChars_enclosedIf (e.precedence < op.precedence) ih
    rw [marks, phrase, Phrase.ofOperator]
    split
    · rw [Mark.allChars_append, hoperand, Phrase.behind, precedence_phrase, String.toList_append]
      exact congrArg _ (List.append_nil _)
    · rw [Phrase.before, precedence_phrase, String.toList_append, ← hoperand]
      rfl
  | binary op isBinary l r ihl ihr =>
    have hleft := Mark.allChars_enclosedIf (l.precedence < op.precedence) ihl
    have hright := Mark.allChars_enclosedIf (r.precedence ≤ op.precedence) ihr
    rw [marks, phrase, Phrase.ofOperator, Mark.allChars_append, Phrase.between, precedence_phrase,
      precedence_phrase, String.toList_append, String.toList_append, ← hleft, ← hright,
      List.append_assoc]
    rfl

/-! ### Marks in turn -/

namespace Mark

/-- Operands and operators come in turn, an operand having ended before or not. -/
def alternate : Bool → List Mark → Bool
  | ended, [] => ended
  | false, .cell _ :: xs => alternate true xs
  | false, .opening :: xs => alternate false xs
  | false, .sign op :: xs => op.standsBefore && alternate false xs
  | true, .closing :: xs => alternate true xs
  | true, .sign op :: xs => !op.standsBefore && alternate (op == .percent) xs
  | _, _ => false

theorem alternate_enclosedIf (needed : Bool) {xs : List Mark}
    (h : ∀ rest, alternate false (xs ++ rest) = alternate true rest) (rest : List Mark) :
    alternate false (enclosedIf needed xs ++ rest) = alternate true rest := by
  cases needed with
  | false => exact h rest
  | true =>
    rw [enclosedIf, if_pos rfl, List.append_assoc, List.cons_append, alternate, h]
    rfl

end Mark

/-- The text of a tree is an operand. -/
theorem OperatorTree.alternate_marks (e : OperatorTree) (rest : List Mark) :
    Mark.alternate false (e.marks ++ rest) = Mark.alternate true rest := by
  induction e generalizing rest with
  | cell c => rfl
  | unary op isUnary e ih =>
    have hoperand := Mark.alternate_enclosedIf (e.precedence < op.precedence) ih
    rw [marks]
    split
    · next hpercent =>
      subst hpercent
      rw [List.append_assoc, hoperand]
      rfl
    · next hbefore =>
      have hstands : op.standsBefore = true := by simp [Operator.standsBefore, isUnary, hbefore]
      rw [List.cons_append, Mark.alternate, hstands, Bool.true_and, hoperand]
  | binary op isBinary l r ihl ihr =>
    have hleft := Mark.alternate_enclosedIf (l.precedence < op.precedence) ihl
    have hright := Mark.alternate_enclosedIf (r.precedence ≤ op.precedence) ihr
    have hstands : op.standsBefore = false := by simp [Operator.standsBefore, isBinary]
    have hpercent : (op == .percent) = false := by
      rw [beq_eq_false_iff_ne]
      rintro rfl
      cases isBinary
    rw [marks, List.append_assoc, hleft, List.cons_append, Mark.alternate, hstands, hpercent,
      hright]
    rfl

namespace Mark

/-! ### Marks are told from their characters -/

/-- The characters of the first mark of a text. -/
def firstChars : List Char → List Char
  | '<' :: '=' :: _ => ['<', '=']
  | '<' :: '>' :: _ => ['<', '>']
  | '>' :: '=' :: _ => ['>', '=']
  | c :: cs => if Text.isAddressChar c then c :: cs.takeWhile Text.isAddressChar else [c]
  | [] => []

/-- What stands behind an operand does not go on with its address. -/
theorem head_of_ended {xs : List Mark} (h : alternate true xs = true) :
    ∀ c ∈ (allChars xs).head?, Text.isAddressChar c = false := by
  cases xs with
  | nil => simp [allChars]
  | cons x xs =>
    cases x with
    | cell | opening => cases h
    | closing => simp [allChars, chars]; decide
    | sign op => cases op <;> simp [allChars, chars, Operator.symbol] <;> decide

/-- What begins an operand does not go on with a comparison. -/
theorem head_of_not_ended {xs : List Mark} (h : alternate false xs = true) :
    ∀ c ∈ (allChars xs).head?, c ≠ '=' ∧ c ≠ '>' := by
  cases xs with
  | nil => cases h
  | cons x xs =>
    cases x with
    | cell c =>
      intro d hd
      have hne : c.text.toList ≠ [] := addressText_ne_nil _ _ _ _
      rw [allChars, List.flatMap_cons, chars, List.head?_append_of_ne_nil _ hne] at hd
      have haddress := isAddressChar_of_mem_addressText (List.mem_of_mem_head? hd)
      constructor <;> rintro rfl <;> exact absurd haddress (by decide)
    | closing => cases h
    | opening => simp [allChars, chars]
    | sign op => cases op <;> simp [allChars, chars, Operator.symbol] <;> cases h

theorem firstChars_of_isAddressChar {c : Char} (h : Text.isAddressChar c = true) (cs : List Char) :
    firstChars (c :: cs) = c :: cs.takeWhile Text.isAddressChar := by
  unfold firstChars
  split
  · next heq => cases heq; exact absurd h (by decide)
  · next heq => cases heq; exact absurd h (by decide)
  · next heq => cases heq; exact absurd h (by decide)
  · next heq => cases heq; rw [if_pos h]
  · next heq => cases heq

/-- A sign that could go on with another comparison ends where something else begins. -/
theorem firstChars_comparison {c : Char} (hc : c = '<' ∨ c = '>') {cs : List Char}
    (hcs : ∀ d ∈ cs.head?, d ≠ '=' ∧ d ≠ '>') : firstChars (c :: cs) = [c] := by
  cases cs with
  | nil => obtain rfl | rfl := hc <;> rfl
  | cons d cs =>
    obtain ⟨hequal, hgreater⟩ := hcs d rfl
    obtain rfl | rfl := hc
    · simp [firstChars, hequal, hgreater, Text.isAddressChar]
    · simp [firstChars, hequal, Text.isAddressChar]

/-- **The first mark of a text is told from its characters.** -/
theorem firstChars_mark {ended : Bool} {x : Mark} {xs : List Mark}
    (h : alternate ended (x :: xs) = true) : firstChars (x.chars ++ allChars xs) = x.chars := by
  cases x with
  | cell c =>
    have hnext : alternate true xs = true := by cases ended <;> [exact h; cases h]
    have hall : ∀ d ∈ c.text.toList, Text.isAddressChar d = true := fun d hd =>
      isAddressChar_of_mem_addressText hd
    cases hchars : c.text.toList with
    | nil => exact absurd hchars (addressText_ne_nil _ _ _ _)
    | cons d ds =>
      rw [hchars] at hall
      rw [chars, hchars, List.cons_append,
        firstChars_of_isAddressChar (hall d (List.mem_cons_self ..)),
        ← List.takeWhile_cons_of_pos (hall d (List.mem_cons_self ..)), ← List.cons_append]
      exact takeWhile_append_of_stops hall (head_of_ended hnext)
  | opening | closing => rfl
  | sign op =>
    by_cases hcomparison : op = .less ∨ op = .greater
    · have hnext : alternate false xs = true := by
        cases ended <;> obtain rfl | rfl := hcomparison <;> [cases h; cases h; exact h; exact h]
      obtain rfl | rfl := hcomparison
      · exact firstChars_comparison (.inl rfl) (head_of_not_ended hnext)
      · exact firstChars_comparison (.inr rfl) (head_of_not_ended hnext)
    · cases op <;> first | rfl | exact absurd hcomparison (by decide)

theorem standsBefore_of_alternate {ended : Bool} {op : Operator} {xs : List Mark}
    (h : alternate ended (sign op :: xs) = true) : op.standsBefore = !ended := by
  cases ended with
  | false => exact (Bool.and_eq_true_iff.mp h).1
  | true => simpa using (Bool.and_eq_true_iff.mp h).1

/-- A cell is not written like another mark. -/
theorem eq_cell_of_chars_eq {c : CellRef} {x : Mark} (h : x.chars = c.text.toList) :
    x = .cell c := by
  have hall : ∀ d ∈ x.chars, Text.isAddressChar d = true := fun d hd =>
    isAddressChar_of_mem_addressText (h ▸ hd)
  cases x with
  | cell c' => rw [CellRef.text_injective (String.toList_inj.mp h)]
  | opening | closing => exact absurd (hall _ (List.mem_singleton_self _)) (by decide)
  | sign op => cases op <;> exact absurd (hall _ (List.mem_cons_self ..)) (by decide)

/-- **A mark is told from its characters** and from whether an operand has ended before it. -/
theorem chars_inj {ended : Bool} {x y : Mark} {xs ys : List Mark}
    (hx : alternate ended (x :: xs) = true) (hy : alternate ended (y :: ys) = true)
    (h : x.chars = y.chars) : x = y := by
  cases x with
  | cell c => exact (eq_cell_of_chars_eq h.symm).symm
  | opening =>
    cases y with
    | cell c => exact eq_cell_of_chars_eq h
    | opening => rfl
    | closing => cases ended <;> [cases hy; cases hx]
    | sign op => cases op <;> exact absurd h (by decide)
  | closing =>
    cases y with
    | cell c => exact eq_cell_of_chars_eq h
    | opening => cases ended <;> [cases hx; cases hy]
    | closing => rfl
    | sign op => cases op <;> exact absurd h (by decide)
  | sign op =>
    cases y with
    | cell c => exact eq_cell_of_chars_eq h
    | opening | closing => cases op <;> exact absurd h (by decide)
    | sign op' =>
      have hstands : op.standsBefore = op'.standsBefore :=
        (standsBefore_of_alternate hx).trans (standsBefore_of_alternate hy).symm
      rw [Operator.symbol_injective (String.toList_inj.mp h) hstands]

theorem chars_ne_nil (x : Mark) : x.chars ≠ [] := by
  cases x with
  | cell c => exact addressText_ne_nil _ _ _ _
  | opening | closing => exact List.cons_ne_nil _ _
  | sign op => cases op <;> exact List.cons_ne_nil _ _

/-- What stands behind a mark is in turn as well. -/
theorem exists_alternate_tail (ended : Bool) (x : Mark) :
    ∃ ended', ∀ xs, alternate ended (x :: xs) = true → alternate ended' xs = true := by
  cases ended <;> cases x
  case false.cell => exact ⟨true, fun _ h => h⟩
  case false.opening => exact ⟨false, fun _ h => h⟩
  case false.sign op => exact ⟨false, fun _ h => (Bool.and_eq_true_iff.mp h).2⟩
  case true.closing => exact ⟨true, fun _ h => h⟩
  case true.sign op => exact ⟨_, fun _ h => (Bool.and_eq_true_iff.mp h).2⟩
  all_goals exact ⟨true, fun _ h => by cases h⟩

/-- **Marks in turn are told from their characters.** -/
theorem eq_of_allChars_eq {ended : Bool} {xs ys : List Mark} (hxs : alternate ended xs = true)
    (hys : alternate ended ys = true) (h : allChars xs = allChars ys) : xs = ys := by
  induction xs generalizing ended ys with
  | nil =>
    cases ys with
    | nil => rfl
    | cons y ys =>
      exact absurd (List.append_eq_nil_iff.mp h.symm).1 y.chars_ne_nil
  | cons x xs ih =>
    cases ys with
    | nil => exact absurd (List.append_eq_nil_iff.mp h).1 x.chars_ne_nil
    | cons y ys =>
      have hchars : x.chars ++ allChars xs = y.chars ++ allChars ys := h
      have hfirst : x.chars = y.chars := by
        rw [← firstChars_mark hxs, hchars, firstChars_mark hys]
      obtain rfl := chars_inj hxs hys hfirst
      obtain ⟨ended', htail⟩ := exists_alternate_tail ended x
      rw [ih (htail xs hxs) (htail ys hys) (List.append_cancel_left hchars)]

end Mark

/-! ### The reader -/

/-- What was begun and waits for its end. -/
inductive Pending
  /-- Parentheses. -/
  | group
  | before (op : Operator) (isUnary : op.isUnary = true)
  | between (op : Operator) (isBinary : op.isUnary = false) (left : OperatorTree)

/-- A reader of marks. -/
structure TreeReader where
  /-- What waits, the innermost first. -/
  pending : List Pending
  /-- The operand that has ended, if one has. -/
  operand : Option OperatorTree

namespace OperatorTree

/-- Operators that wait and bind at least so tightly are completed with the operand. -/
def complete (precedence : Nat) : List Pending → OperatorTree → List Pending × OperatorTree
  | .before op isUnary :: pending, e =>
    if precedence ≤ op.precedence then complete precedence pending (.unary op isUnary e)
    else (.before op isUnary :: pending, e)
  | .between op isBinary left :: pending, e =>
    if precedence ≤ op.precedence then complete precedence pending (.binary op isBinary left e)
    else (.between op isBinary left :: pending, e)
  | pending, e => (pending, e)

end OperatorTree

namespace TreeReader

/-- The reader after one more mark, if that may stand there. -/
def step (r : TreeReader) (x : Mark) : Option TreeReader :=
  match r.operand, x with
  | none, .cell c => some ⟨r.pending, some (.cell c)⟩
  | none, .opening => some ⟨.group :: r.pending, none⟩
  | none, .sign op =>
    if isUnary : op.isUnary = true then some ⟨.before op isUnary :: r.pending, none⟩ else none
  | some e, .closing =>
    match OperatorTree.complete 0 r.pending e with
    | (.group :: pending, e) => some ⟨pending, some e⟩
    | _ => none
  | some e, .sign op =>
    let (pending, e) := OperatorTree.complete op.precedence r.pending e
    if isUnary : op.isUnary = true then some ⟨pending, some (.unary op isUnary e)⟩
    else some ⟨.between op (by simpa using isUnary) e :: pending, none⟩
  | _, _ => none

/-- Reading the marks leads from one state to the other. -/
def Leads (r : TreeReader) (xs : List Mark) (r' : TreeReader) : Prop :=
  xs.foldlM step r = some r'

theorem leads_single {r r' : TreeReader} {x : Mark} (h : r.step x = some r') : Leads r [x] r' := by
  rw [Leads, List.foldlM_cons, h]
  rfl

theorem Leads.append {r r' r'' : TreeReader} {xs ys : List Mark} (h : Leads r xs r')
    (h' : Leads r' ys r'') : Leads r (xs ++ ys) r'' := by
  rw [Leads, List.foldlM_append, h]
  exact h'

/-- The tree of the marks, if they are those of one. -/
def read (xs : List Mark) : Option OperatorTree :=
  match xs.foldlM step ⟨[], none⟩ with
  | some ⟨pending, some e⟩ =>
    match OperatorTree.complete 0 pending e with
    | ([], e) => some e
    | _ => none
  | _ => none

end TreeReader

namespace OperatorTree

/-- What waits binds more loosely. -/
def Holds (precedence : Nat) : List Pending → Prop
  | .before op _ :: _ => op.precedence < precedence
  | .between op _ _ :: _ => op.precedence < precedence
  | _ => True

theorem Holds.mono {precedence precedence' : Nat} {pending : List Pending}
    (h : Holds precedence pending) (hle : precedence ≤ precedence') :
    Holds precedence' pending := by
  match pending, h with
  | [], _ | .group :: _, _ => trivial
  | .before _ _ :: _, h | .between _ _ _ :: _, h => exact Nat.lt_of_lt_of_le h hle

/-- What binds more loosely is not completed. -/
theorem Holds.complete_eq {precedence : Nat} {pending : List Pending}
    (h : Holds precedence pending) (e : OperatorTree) :
    complete precedence pending e = (pending, e) := by
  match pending, h with
  | [], _ | .group :: _, _ => rfl
  | .before _ _ :: _, h | .between _ _ _ :: _, h => exact if_neg (Nat.not_le.mpr h)

/-- Reading the marks ends an operand that takes the place of the tree for all that is completed at
this level or below. -/
def Reads (level : Nat) (pending : List Pending) (xs : List Mark) (e : OperatorTree) : Prop :=
  ∃ pending' e', TreeReader.Leads ⟨pending, none⟩ xs ⟨pending', some e'⟩ ∧
    ∀ precedence ≤ level, complete precedence pending' e' = complete precedence pending e

/-- The outermost operator stands behind an operand. -/
def EndsOperand : OperatorTree → Prop
  | cell _ => False
  | unary op _ _ => op = .percent
  | binary _ _ _ _ => True

/-- An operand in parentheses, if need be, is read like the one inside. -/
theorem reads_enclosedIf {e : OperatorTree}
    (h : ∀ pending, (e.EndsOperand → Holds e.precedence pending) →
      Reads e.precedence pending e.marks e)
    {level : Nat} {pending : List Pending}
    (hholds : e.EndsOperand → level ≤ e.precedence → Holds e.precedence pending) :
    Reads level pending (Mark.enclosedIf (e.precedence < level) e.marks) e := by
  by_cases hneeded : e.precedence < level
  · -- Parentheses keep all that waits around them from being completed.
    obtain ⟨pending', e', hread, hsame⟩ := h (.group :: pending) fun _ => trivial
    have hclosed : complete 0 pending' e' = (.group :: pending, e) := hsame 0 (Nat.zero_le _)
    have hclosing : TreeReader.step ⟨pending', some e'⟩ .closing = some ⟨pending, some e⟩ := by
      simp only [TreeReader.step, hclosed]
    refine ⟨pending, e, ?_, fun _ _ => rfl⟩
    rw [Mark.enclosedIf, if_pos (decide_eq_true hneeded)]
    exact ((TreeReader.leads_single rfl).append hread).append (TreeReader.leads_single hclosing)
  · obtain ⟨pending', e', hread, hsame⟩ := h pending fun he => hholds he (Nat.not_lt.mp hneeded)
    refine ⟨pending', e', ?_, fun q hq => hsame q (Nat.le_trans hq (Nat.not_lt.mp hneeded))⟩
    rw [Mark.enclosedIf, if_neg (by simpa using hneeded)]
    exact hread

/-- An operator that stands before its operand binds as tightly as no other one. -/
theorem precedence_ne_of_endsOperand {op : Operator} (h : op.standsBefore = true)
    {e : OperatorTree} (hends : e.EndsOperand) : op.precedence ≠ e.precedence := by
  have hothers (op' : Operator) (hsame : op.precedence = op'.precedence) :
      op'.standsBefore = true := by
    revert h hsame
    cases op <;> cases op' <;> decide
  intro hsame
  cases e with
  | cell c => exact hends
  | unary op' isUnary e =>
    obtain rfl : op' = .percent := hends
    exact absurd (hothers .percent hsame) (by decide)
  | binary op' isBinary l r =>
    have hstands := hothers op' hsame
    rw [Operator.standsBefore, isBinary] at hstands
    cases hstands

/-- **The marks of a tree are read as the tree**, unless something that waits binds as tightly as an
operator of the tree that stands behind its operand. -/
theorem reads (e : OperatorTree) (pending : List Pending)
    (hholds : e.EndsOperand → Holds e.precedence pending) :
    Reads e.precedence pending e.marks e := by
  induction e generalizing pending with
  | cell c => exact ⟨pending, .cell c, TreeReader.leads_single rfl, fun _ _ => rfl⟩
  | unary op isUnary e ih =>
    rw [marks]
    split
    · next hpercent =>
      have hheld : Holds op.precedence pending := hholds hpercent
      obtain ⟨pending', e', hread, hsame⟩ := reads_enclosedIf ih fun _ hle => hheld.mono hle
      have hclosed := (hsame _ (Nat.le_refl _)).trans (hheld.complete_eq e)
      refine ⟨pending, .unary op isUnary e, hread.append (TreeReader.leads_single ?_),
        fun _ _ => rfl⟩
      simp only [TreeReader.step, hclosed, dif_pos isUnary]
    · next hbefore =>
      have hstands : op.standsBefore = true := by simp [Operator.standsBefore, isUnary, hbefore]
      have hheld : e.EndsOperand → op.precedence ≤ e.precedence →
          Holds e.precedence (.before op isUnary :: pending) := fun hends hle =>
        Nat.lt_of_le_of_ne hle (precedence_ne_of_endsOperand hstands hends)
      obtain ⟨pending', e', hread, hsame⟩ := reads_enclosedIf ih hheld
      refine ⟨pending', e', ?_, fun q hq => (hsame q hq).trans (if_pos hq)⟩
      refine TreeReader.Leads.append (TreeReader.leads_single ?_) hread
      exact dif_pos isUnary
  | binary op isBinary l r ihl ihr =>
    have hheld : Holds op.precedence pending := hholds trivial
    obtain ⟨pendingl, l', hreadl, hsamel⟩ := reads_enclosedIf ihl fun _ hle => hheld.mono hle
    have hclosed := (hsamel _ (Nat.le_refl _)).trans (hheld.complete_eq l)
    have hheldr : r.EndsOperand → op.precedence + 1 ≤ r.precedence →
        Holds r.precedence (.between op isBinary l :: pending) := fun _ hlt => hlt
    obtain ⟨pendingr, r', hreadr, hsamer⟩ := reads_enclosedIf ihr hheldr
    have hsign : TreeReader.step ⟨pendingl, some l'⟩ (.sign op)
        = some ⟨.between op isBinary l :: pending, none⟩ := by
      simp only [TreeReader.step, hclosed, isBinary, Bool.false_eq_true, dite_false]
    refine ⟨pendingr, r', ?_, fun q hq => (hsamer q (Nat.le_succ_of_le hq)).trans (if_pos hq)⟩
    simp only [Nat.lt_succ_iff] at hreadr
    exact hreadl.append ((TreeReader.leads_single hsign).append hreadr)

/-- **The reader builds the tree of a text.** -/
theorem read_marks (e : OperatorTree) : TreeReader.read e.marks = some e := by
  obtain ⟨pending, e', hread, hsame⟩ := e.reads [] fun _ => trivial
  have hclosed : complete 0 pending e' = ([], e) := hsame 0 (Nat.zero_le _)
  have hleads : e.marks.foldlM TreeReader.step ⟨[], none⟩ = some ⟨pending, some e'⟩ := hread
  rw [TreeReader.read, hleads]
  simp only [hclosed]

/-! ### Texts and trees -/

/-- Trees with the same text are the same. -/
theorem eq_of_phrase_text_eq {e e' : OperatorTree} (h : e.phrase.text = e'.phrase.text) :
    e = e' := by
  have hturn (e : OperatorTree) : Mark.alternate false e.marks = true := by
    have h := e.alternate_marks []
    rwa [List.append_nil] at h
  have hmarks : e.marks = e'.marks :=
    Mark.eq_of_allChars_eq (hturn e) (hturn e')
      (by rw [allChars_marks, allChars_marks, h])
  have hread := e.read_marks
  rw [hmarks, read_marks] at hread
  exact (Option.some.inj hread).symm

/-- **The text of operators tells the tree.** Formulas of cells and operators have texts, and two of
them have the same one exactly when they store the same tree, whatever sheets and names are called
and whatever the classes of the cells are. -/
theorem text_eq_iff {e e' : OperatorTree} {f f' : Formula} (h : e.Tokens f) (h' : e'.Tokens f')
    (labels labels' : Labels) :
    (∃ s, f.text labels = .ok s) ∧ (f.text labels = f'.text labels' ↔ e = e') := by
  refine ⟨⟨_, h.text labels⟩, fun hsame => ?_, ?_⟩
  · rw [h.text, h'.text] at hsame
    exact eq_of_phrase_text_eq (Except.ok.inj hsame)
  · rintro rfl
    rw [h.text, h'.text]

/-- `-A1%`, a percentage of what is negated, and `-(A1%)`, a percentage that is negated. -/
theorem text_eq_iff_percent :
    let a1 : OperatorTree := .cell (.relative 0 0)
    let e : OperatorTree := .unary .percent rfl (.unary .unaryMinus rfl a1)
    let e' : OperatorTree := .unary .unaryMinus rfl (.unary .percent rfl a1)
    let cell : Token := .reference (.cell (.relative 0 0)) .value
    let f : Formula := [cell, .operator .unaryMinus, .operator .percent]
    let f' : Formula := [cell, .operator .percent, .operator .unaryMinus]
    e.Tokens f ∧ e'.Tokens f' ∧ (∃ s, f.text .numbered = .ok s) ∧
      f.text .numbered ≠ f'.text .numbered := by
  intro a1 e e' cell f f'
  have he : e.Tokens f := .unary _ _ (.unary _ _ (.cell _ _))
  have he' : e'.Tokens f' := .unary _ _ (.unary _ _ (.cell _ _))
  have h := text_eq_iff he he' .numbered .numbered
  have hne : e ≠ e' := by decide
  exact ⟨he, he', h.1, fun hsame => hne (h.2.mp hsame)⟩

example : let a1 : Token := .reference (.cell (.relative 0 0)) .value
    Formula.text [a1, .operator .percent, .operator .unaryMinus] .numbered = .ok "-(A1%)" := by
  decide +kernel

end OperatorTree

end CellFormula
