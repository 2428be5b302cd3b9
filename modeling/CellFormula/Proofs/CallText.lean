import CellFormula.Proofs.EntryRules
import CellFormula.Proofs.TextPieces

/-!
# The text of a call shows its arguments

The comma is written between two arguments, and it is the sign of the union of two references. So a
union that is an argument is enclosed (`Phrase.argumentText`). Read back, the text between the
parentheses of a call has a piece for each of its arguments then.

## What goes unenclosed

Only an argument whose outermost operator is the union is enclosed. A union is written bare as the
operand of an operator that binds more loosely, and a sign, a percentage or a sum is not enclosed as
an argument: its text shows the comma of the union, and is read as two arguments. The name of a user
function is shown as it is, too. Whether the text of a formula shows a comma is told by a walk of
its own, which needs no texts (`Outline`), and arguments are read back exactly when none of them
does (`Formula.leaksUnion`).

## Main definitions

* `Outline`, `Formula.leaksUnion` — what can be told of a text from the tokens
* `Shows` — a text that shows a comma, or none
* `ShownAs` — a piece that is the text of an argument

## Main results

* `Outline.agree` — outlines tell what texts show
* `Formula.call_pieces` — a call shows its arguments exactly when none of them leaks a union
-/

namespace CellFormula

open Worksheet (FunctionInfo)

/-! ### Texts that show a comma -/

/-- Inside parentheses the text is one piece. As an argument it is one piece as well, or it is cut
into several. -/
structure Shows (w : List Char) (comma : Bool) : Prop where
  nested : Nested w
  exists_leads : ∃ ps, Leads .call w ps .call ∧ if comma then 2 ≤ ps.length else ps = [w]

theorem length_gluePieces {ps qs : List (List Char)} (hps : ps ≠ []) (hqs : qs ≠ []) :
    (gluePieces ps qs).length + 1 = ps.length + qs.length := by
  fun_induction gluePieces ps qs with
  | case1 => exact absurd rfl hps
  | case2 p qs => rw [List.length_modifyHead, List.length_singleton, Nat.add_comm]
  | case3 p p' ps qs ih =>
    have h := ih (List.cons_ne_nil _ _) hqs
    simp only [List.length_cons] at h ⊢
    omega

theorem Quiet.shows {w : List Char} (h : Quiet w) : Shows w false :=
  ⟨h.nested, [w], h 0, rfl⟩

theorem shows_comma : Shows [','] true := ⟨nested_comma, _, .comma, Nat.le_refl 2⟩

namespace Shows

variable {v w : List Char} {comma comma' : Bool}

theorem append (hv : Shows v comma) (hw : Shows w comma') : Shows (v ++ w) (comma || comma') := by
  obtain ⟨ps, hps, hv'⟩ := hv.exists_leads
  obtain ⟨qs, hqs, hw'⟩ := hw.exists_leads
  refine ⟨hv.nested.append hw.nested, _, hps.append hqs, ?_⟩
  have hlength := length_gluePieces hps.ne_nil hqs.ne_nil
  have hpos := List.length_pos_of_ne_nil hps.ne_nil
  have hpos' := List.length_pos_of_ne_nil hqs.ne_nil
  cases comma <;> cases comma'
  case false.false => rw [hv', hw']; rfl
  case false.true | true.false | true.true =>
    simp only [Bool.false_eq_true, if_true, if_false, Bool.or_true, Bool.true_or] at hv' hw' ⊢
    omega

theorem enclosedIf {p : Phrase} (h : Shows p.text.toList comma) (needed : Bool) :
    Shows (p.textEnclosedIf needed).toList (comma && !needed) := by
  cases needed with
  | false => simpa [Phrase.textEnclosedIf] using h
  | true =>
    have hchars : (p.textEnclosedIf true).toList = '(' :: (p.text.toList ++ [')']) := by
      rw [Phrase.textEnclosedIf, if_pos rfl, Phrase.enclosedText, String.toList_append,
        String.toList_append]
      rfl
    rw [hchars, Bool.not_true, Bool.and_false]
    exact h.nested.parenthesized.shows

end Shows

theorem shows_symbol (op : Operator) : Shows op.symbol.toList (op == .union) := by
  cases op
  case union => exact shows_comma
  all_goals exact Quiet.shows (Plain.quiet (by decide))

/-! ### Outlines -/

/-- What can be told of a phrase without its text. -/
structure Outline where
  /-- How tightly the outermost operator binds. -/
  precedence : Nat
  /-- The comma of a union stands outside all parentheses. -/
  showsUnion : Bool
deriving DecidableEq, Repr

namespace Outline

/-- Tighter than every operator, and without a comma. -/
def atom : Outline := ⟨Phrase.atomPrecedence, false⟩

/-- An operator with its operands, which show their commas if they are not enclosed. -/
def ofOperator (op : Operator) : List Outline → Outline
  | [o] => ⟨op.precedence, o.showsUnion && !decide (o.precedence < op.precedence)⟩
  | [l, r] =>
    ⟨op.precedence, (l.showsUnion && !decide (l.precedence < op.precedence)) || op == .union
      || (r.showsUnion && !decide (r.precedence ≤ op.precedence))⟩
  | _ => atom

/-- A call. The name of a user function is shown as it is. -/
def ofCall (info : FunctionInfo) : List Outline → Outline
  | [] => atom
  | name :: _ =>
    if info.index = Worksheet.userIndex then ⟨Phrase.atomPrecedence, name.showsUnion⟩ else atom

/-- The walk that makes outlines. -/
def rules : EntryRules Outline where
  put _ := atom
  enclose _ := atom
  combine := ofOperator
  call := ofCall

/-- The outline tells what the text of the phrase shows. -/
structure Tells (p : Phrase) (o : Outline) : Prop where
  precedence_eq : p.precedence = o.precedence
  shows : Shows p.text.toList o.showsUnion

theorem tells_atom {text : String} (h : Quiet text.toList) : Tells (.atom text) atom :=
  ⟨rfl, h.shows⟩

theorem tells_ofOperator (op : Operator) {ps : List Phrase} {os : List Outline}
    (hcount : ps.length = op.arity) (h : List.Forall₂ Tells ps os) :
    Tells (.ofOperator op ps) (ofOperator op os) := by
  have hsymbol := shows_symbol op
  match ps, os, h with
  | [], [], _ => cases op <;> cases hcount
  | [p], [o], .cons hp .nil =>
    have hunary : (op == .union) = false := by
      rw [beq_eq_false_iff_ne]
      rintro rfl
      cases hcount
    rw [hunary] at hsymbol
    have hoperand := hp.shows.enclosedIf (p.precedence < op.precedence)
    rw [Phrase.ofOperator, ofOperator, ← hp.precedence_eq]
    split
    · refine ⟨rfl, ?_⟩
      rw [Phrase.behind, String.toList_append]
      simpa using hoperand.append hsymbol
    · refine ⟨rfl, ?_⟩
      rw [Phrase.before, String.toList_append]
      simpa using hsymbol.append hoperand
  | [l, r], [ol, or], .cons hl (.cons hr .nil) =>
    have hleft := hl.shows.enclosedIf (l.precedence < op.precedence)
    have hright := hr.shows.enclosedIf (r.precedence ≤ op.precedence)
    refine ⟨rfl, ?_⟩
    rw [Phrase.ofOperator, ofOperator, Phrase.between, ← hl.precedence_eq, ← hr.precedence_eq,
      String.toList_append, String.toList_append]
    exact (hleft.append hsymbol).append hright
  | _ :: _ :: _ :: _, _, _ => cases op <;> cases hcount

/-- The name of a function of the catalogue is plain. -/
theorem plain_name {info : FunctionInfo} (h : Worksheet.functionAt? info.index = some info) :
    Plain info.name.toList := by
  have hall : ∀ info ∈ Worksheet.catalogue, Plain info.name.toList := by decide +kernel
  exact hall info (Worksheet.mem_of_functionAt? h)

/-- An argument is one piece inside parentheses. -/
theorem nested_argumentText {p : Phrase} {o : Outline} (h : Tells p o) :
    Nested p.argumentText.toList :=
  (h.shows.enclosedIf _).nested

/-- Arguments in parentheses are one piece behind any name. -/
theorem shows_callText {name : String} {comma : Bool} (hname : Shows name.toList comma)
    {ps : List Phrase} {os : List Outline} (h : List.Forall₂ Tells ps os) :
    Shows (Phrase.callText name ps).toList comma := by
  have hnested : ∀ p ∈ ps, Nested p.argumentText.toList :=
    ((List.forall₂_and_left _ _).mp (h.imp fun _ _ hp => ⟨nested_argumentText hp, hp⟩)).1
  have hbody : Nested (",".intercalate (ps.map Phrase.argumentText)).toList := by
    rw [String.toList_intercalate]
    refine nested_comma.intercalate fun w hw => ?_
    obtain ⟨text, htext, rfl⟩ := List.mem_map.mp hw
    obtain ⟨p, hp, rfl⟩ := List.mem_map.mp htext
    exact hnested p hp
  have hall := hname.append hbody.parenthesized.shows
  rw [Bool.or_false] at hall
  have hchars : (Phrase.callText name ps).toList = name.toList
      ++ '(' :: ((",".intercalate (ps.map Phrase.argumentText)).toList ++ [')']) := by
    rw [Phrase.callText, String.toList_append, String.toList_append, String.toList_append,
      List.append_assoc, List.append_assoc]
    rfl
  rwa [hchars]

theorem tells_ofCall {info : FunctionInfo} (hinfo : Worksheet.functionAt? info.index = some info)
    {ps : List Phrase} {os : List Outline} (h : List.Forall₂ Tells ps os) :
    Tells (.ofCall info ps) (ofCall info os) := by
  have hname := (plain_name hinfo).quiet.shows
  cases h with
  | nil => exact ⟨rfl, shows_callText hname .nil⟩
  | cons hp hps =>
    rw [Phrase.ofCall, ofCall]
    split
    · exact ⟨rfl, shows_callText hp.shows hps⟩
    · exact ⟨rfl, shows_callText hname (.cons hp hps)⟩

/-- **Outlines tell what texts show**: the two walks stay in step. -/
theorem agree : EntryRules.Agree Tells Labels.numbered.rules rules where
  put leaf := tells_atom (Labels.quiet_leafText quiet_numberedName leaf)
  enclose hp := by
    refine tells_atom ?_
    have hall := hp.shows.nested.parenthesized
    rwa [Phrase.enclosedText, String.toList_append, String.toList_append]
  combine op _ _ hcount h := tells_ofOperator op hcount h
  call hinfo _ _ h := tells_ofCall hinfo h

end Outline

/-! ### Arguments -/

namespace Formula

/-- The outline of the text of the formula, if it has a text. -/
def outline? (f : Formula) : Option Outline :=
  match walk Outline.rules.step 0 .empty f with
  | .ok stack => stack.only?
  | .error _ => none

/-- The text of the formula shows the comma of a union, and is not enclosed as an argument. -/
def leaksUnion (f : Formula) : Bool :=
  f.outline?.any fun o => o.showsUnion && !(o.precedence == Operator.precedence .union)

/-- The outline of a formula tells what its text shows. -/
theorem exists_outline {f : Formula} {p : Phrase} (h : Labels.numbered.rules.Pushes f p) :
    ∃ o, f.outline? = some o ∧ Outline.Tells p o := by
  obtain ⟨o, hwalk, htells⟩ := Outline.agree.exists_of_pushes h
  exact ⟨o, by rw [outline?, hwalk]; rfl, htells⟩

/-- As an argument the text of a formula shows a comma if it leaks a union. -/
theorem shows_argumentText {f : Formula} {p : Phrase} (h : Labels.numbered.rules.Pushes f p) :
    Shows p.argumentText.toList f.leaksUnion := by
  obtain ⟨o, houtline, htells⟩ := exists_outline h
  rw [leaksUnion, houtline, Option.any_some, ← htells.precedence_eq]
  exact htells.shows.enclosedIf _

end Formula

/-- The piece is the text of an argument, which may be enclosed. -/
def ShownAs (piece : List Char) (text : String) : Prop :=
  piece = text.toList ∨ piece = '(' :: (text.toList ++ [')'])

theorem shownAs_argumentText (p : Phrase) : ShownAs p.argumentText.toList p.text := by
  rw [Phrase.argumentText, Phrase.textEnclosedIf]
  split
  · refine .inr ?_
    rw [Phrase.enclosedText, String.toList_append, String.toList_append]
    rfl
  · exact .inl rfl

/-- **Arguments with commas between them** are cut into pieces, at least one for each of them. The
pieces are the arguments exactly when none of these leaks a union. -/
theorem exists_pieces {args : List Formula} {ps : List Phrase}
    (h : List.Forall₂ Labels.numbered.rules.Pushes args ps) :
    ∃ pss, List.Forall₂ (fun w ps => Leads .call w ps .call)
        (ps.map fun p => p.argumentText.toList) pss ∧
      ps.length ≤ pss.flatten.length ∧
      (List.Forall₂ ShownAs pss.flatten (ps.map Phrase.text) ↔
        ∀ a ∈ args, a.leaksUnion = false) := by
  induction h with
  | nil => exact ⟨[], .nil, Nat.le_refl 0, by simp⟩
  | @cons a p args ps hp _ ih =>
    obtain ⟨pss, hpss, hlength, hiff⟩ := ih
    obtain ⟨pieces, hleads, hpieces⟩ := (Formula.shows_argumentText hp).exists_leads
    have hpos := List.length_pos_of_ne_nil hleads.ne_nil
    refine ⟨pieces :: pss, .cons hleads hpss, ?_, ?_⟩
    · rw [List.flatten_cons, List.length_append, List.length_cons]
      omega
    · rw [List.forall_mem_cons]
      cases hleaks : a.leaksUnion with
      | false =>
        rw [hleaks] at hpieces
        rw [hpieces]
        simp [shownAs_argumentText, hiff]
      | true =>
        -- There are more pieces than arguments then.
        rw [hleaks, if_pos rfl] at hpieces
        refine iff_of_false (fun hall => ?_) (fun hall => by cases hall.1)
        have hsame := hall.length_eq
        rw [List.flatten_cons, List.length_append, List.map_cons, List.length_cons,
          List.length_map] at hsame
        omega

/-! ### A part of a formula in the whole -/

/-- The text of the one phrase stands in that of the other. -/
def Phrase.Within (p q : Phrase) : Prop := p.text.toList <:+: q.text.toList

theorem infix_intercalate {separator w : List Char} {ws : List (List Char)} (h : w ∈ ws) :
    w <:+: separator.intercalate ws := by
  induction ws with
  | nil => cases h
  | cons v ws ih =>
    cases ws with
    | nil =>
      obtain rfl := List.mem_singleton.mp h
      exact ⟨[], [], by rw [List.intercalate_singleton, List.nil_append, List.append_nil]⟩
    | cons v' ws =>
      rw [List.intercalate_cons_cons, List.append_assoc]
      rcases List.mem_cons.mp h with rfl | hrest
      · exact (List.prefix_append _ _).isInfix
      · exact (ih hrest).trans
          ((List.suffix_append separator _).isInfix.trans (List.suffix_append v _).isInfix)

namespace Phrase

theorem infix_textEnclosedIf (p : Phrase) (needed : Bool) :
    p.text.toList <:+: (p.textEnclosedIf needed).toList := by
  cases needed with
  | false => exact List.infix_refl _
  | true =>
    rw [textEnclosedIf, if_pos rfl, enclosedText, String.toList_append, String.toList_append]
    exact List.infix_append _ _ _

theorem infix_append_left {w : List Char} {s : String} (h : w <:+: s.toList) (s' : String) :
    w <:+: (s ++ s').toList := by
  rw [String.toList_append]
  exact h.trans (List.prefix_append _ _).isInfix

theorem infix_append_right {w : List Char} {s' : String} (h : w <:+: s'.toList) (s : String) :
    w <:+: (s ++ s').toList := by
  rw [String.toList_append]
  exact h.trans (List.suffix_append _ _).isInfix

theorem infix_callText {ps : List Phrase} {p : Phrase} (h : p ∈ ps) (name : String) :
    p.text.toList <:+: (callText name ps).toList := by
  refine infix_append_left (infix_append_right ?_ _) _
  rw [String.toList_intercalate]
  exact (p.infix_textEnclosedIf _).trans
    (infix_intercalate (List.mem_map_of_mem (List.mem_map_of_mem h)))

theorem within_ofOperator (op : Operator) {ps : List Phrase} (hcount : ps.length = op.arity) :
    ∀ p ∈ ps, p.Within (ofOperator op ps) := by
  match ps with
  | [] => exact fun p hp => by cases hp
  | [p] =>
    intro q hq
    rw [List.mem_singleton.mp hq, ofOperator]
    split
    · exact infix_append_left (p.infix_textEnclosedIf _) _
    · exact infix_append_right (p.infix_textEnclosedIf _) _
  | [l, r] =>
    refine List.forall_mem_cons.mpr ⟨?_, List.forall_mem_singleton.mpr ?_⟩
    · exact infix_append_left (infix_append_left (l.infix_textEnclosedIf _) _) _
    · exact infix_append_right (r.infix_textEnclosedIf _) _
  | _ :: _ :: _ :: _ => cases op <;> cases hcount

theorem within_ofCall (info : FunctionInfo) (ps : List Phrase) :
    ∀ p ∈ ps, p.Within (ofCall info ps) := by
  cases ps with
  | nil => exact fun p hp => by cases hp
  | cons name ps =>
    intro p hp
    rw [ofCall]
    split
    · rcases List.mem_cons.mp hp with rfl | hp
      · exact infix_append_left (infix_append_left (infix_append_left (List.infix_refl _) _) _) _
      · exact infix_callText hp name.text
    · exact infix_callText hp info.name

end Phrase

/-- **What a token makes holds what it takes.** -/
theorem Labels.within_of_makes {labels : Labels} {action : Action} {ps : List Phrase} {p : Phrase}
    (h : labels.rules.Makes action ps p) : ∀ q ∈ ps, q.Within p := by
  cases h with
  | put leaf => exact fun q hq => by cases hq
  | enclose q =>
    refine List.forall_mem_singleton.mpr ?_
    exact Phrase.infix_append_left (Phrase.infix_append_right (List.infix_refl _) _) _
  | combine op ps hcount => exact Phrase.within_ofOperator op hcount
  | call info ps => exact Phrase.within_ofCall info ps

/-! ### Calls -/

/-- Right behind the last piece the call is closed. -/
theorem gluePieces_nil_right {ps : List (List Char)} (h : ps ≠ []) : gluePieces ps [[]] = ps := by
  induction ps with
  | nil => exact absurd rfl h
  | cons p ps ih =>
    cases ps with
    | nil => rw [gluePieces, List.modifyHead_cons, List.append_nil]
    | cons p' ps => rw [gluePieces_cons p (List.cons_ne_nil _ _), ih (List.cons_ne_nil _ _)]

theorem Leads.read_closed {w right : List Char} {ps : List (List Char)}
    (h : Leads .call w ps .call) :
    argumentPieces .call (w ++ ')' :: right) = some (ps, right) := by
  have hclosed : argumentPieces .call (')' :: right) = some ([[]], right) := rfl
  rw [h.read_eq, hclosed, Option.map_some, joinPieces, gluePieces_nil_right h.ne_nil]

/-- The text of a call that is not one of a user function. -/
theorem Phrase.text_ofCall {info : FunctionInfo} (huser : info.index ≠ Worksheet.userIndex)
    (ps : List Phrase) : (ofCall info ps).text = callText info.name ps := by
  cases ps with
  | nil => rfl
  | cons p ps => rw [ofCall, if_neg huser]; rfl

/-- Where the text of a call stands in a text, and how its arguments are read back. -/
structure CallInText (before : Formula) (t : Token) (info : FunctionInfo) (count : Nat)
    (s : String) where
  lead : Formula
  /-- The tokens of each argument. -/
  args : List Formula
  /-- The texts of the arguments. -/
  texts : List String
  /-- What stands between the parentheses of the call. -/
  body : String
  left : String
  right : String
  /-- What is read between the parentheses of the call. -/
  pieces : List (List Char)
  before_eq : before = lead ++ args.flatten
  length_eq : args.length = count
  texts_eq : List.Forall₂ (fun a x => Formula.text a .numbered = .ok x) args texts
  /-- The text of the call itself. -/
  call_eq : Formula.text (args.flatten ++ [t]) .numbered = .ok (info.name ++ "(" ++ body ++ ")")
  whole_eq : s = left ++ (info.name ++ "(" ++ body ++ ")") ++ right
  /-- The call is closed by its own parenthesis. -/
  read_eq : argumentPieces .call (body.toList ++ ')' :: right.toList) = some (pieces, right.toList)

namespace Formula

/-- **A call shows its arguments.** In the text of a formula the text of each call stands, and of
that the text between its parentheses, which is read in pieces up to its own closing parenthesis.
The pieces are the texts of the arguments exactly when no argument leaks a union. -/
theorem call_pieces {f before after : Formula} {t : Token} {s : String} {info : FunctionInfo}
    {count : Nat} (htext : f.text .numbered = .ok s) (hf : f = before ++ t :: after)
    (hcall : t.action = .call info count) (hcount : 1 ≤ count)
    (huser : info.index ≠ Worksheet.userIndex) :
    ∃ r : CallInText before t info count s,
      List.Forall₂ ShownAs r.pieces r.texts ↔ ∀ a ∈ r.args, a.leaksUnion = false := by
  obtain ⟨whole, hwalk, rfl⟩ := Labels.exists_walk_of_text htext
  rw [hf, List.append_cons] at hwalk
  obtain ⟨next, hwalk, hafter⟩ := walk_append_eq_ok_iff.mp hwalk
  obtain ⟨reached, hbefore, hstep⟩ := EntryRules.exists_of_walk_concat hwalk
  -- The call takes its arguments off the stack, and each was pushed by a part of the formula.
  obtain ⟨ps, below, rfl, hmade, rfl, rfl⟩ := EntryRules.exists_taken_of_call hcall hstep
  obtain ⟨lead, args, hsplit, hargs⟩ := EntryRules.exists_parts_of_taken hbefore
  obtain ⟨pss, hpss, -, hiff⟩ := exists_pieces hargs
  have hcalltext : (Phrase.ofCall info ps).text
      = info.name ++ "(" ++ ",".intercalate (ps.map Phrase.argumentText) ++ ")" :=
    Phrase.text_ofCall huser ps
  -- What is behind the call keeps its text.
  obtain ⟨holder, hmem, left, right, hwithin⟩ := EntryRules.exists_above_of_walk Phrase.Within
    (fun p => List.infix_refl _) List.IsInfix.trans Labels.within_of_makes hafter
    (Phrase.ofCall info ps) (List.mem_cons_self ..)
  obtain rfl : holder = whole := List.mem_singleton.mp hmem
  refine ⟨{ lead, args, before_eq := hsplit, length_eq := hargs.length_eq
            texts := ps.map Phrase.text, pieces := pss.flatten
            body := ",".intercalate (ps.map Phrase.argumentText)
            left := String.ofList left, right := String.ofList right
            texts_eq := ?_, call_eq := ?_, whole_eq := ?_, read_eq := ?_ }, hiff⟩
  · exact List.forall₂_map_right_iff.mpr (hargs.imp fun _ _ h => Labels.text_of_pushes h)
  · rw [← hcalltext]
    exact Labels.text_of_pushes (.node hargs hmade)
  · rw [← hcalltext, ← String.toList_inj, ← hwithin]
    simp
  · have hleads := leads_intercalate hpss (by simpa using List.ne_nil_of_length_pos hcount)
    rw [String.toList_intercalate, List.map_map, String.toList_ofList]
    exact hleads.read_closed

/-- `SUM((A1,B1),-C1)%`, with a union and a sign as arguments. -/
theorem call_pieces_union :
    let cell (col : UInt16) : Token := .reference (.cell (.relative 0 col)) .reference
    let before : Formula := [cell 0, cell 1, .operator .union, cell 2, .operator .unaryMinus]
    let sum : Token := .call (.counted 4 2 false false) .value
    let info : FunctionInfo := ⟨4, "SUM", 0, 30, .value, [.reference], false⟩
    let s := "SUM((A1,B1),-C1)%"
    Formula.text (before ++ [sum, .operator .percent]) .numbered = .ok s ∧
      sum.action = .call info 2 ∧ info.index ≠ Worksheet.userIndex ∧
      ∃ r : CallInText before sum info 2 s,
        List.Forall₂ ShownAs r.pieces r.texts ↔ ∀ a ∈ r.args, a.leaksUnion = false := by
  intro cell before sum info s
  have htext : Formula.text (before ++ [sum, .operator .percent]) .numbered = .ok s := by
    decide +kernel
  have hcall : sum.action = .call info 2 := rfl
  have huser : info.index ≠ Worksheet.userIndex := by decide
  exact ⟨htext, hcall, huser, call_pieces htext rfl hcall (by decide) huser⟩

/-- **A sign leaks a union.** The sum of `-(A1,B1)` is written with one argument and read with
two. -/
theorem sign_leaks_union :
    let cell (col : UInt16) : Token := .reference (.cell (.relative 0 col)) .reference
    let arg : Formula := [cell 0, cell 1, .operator .union, .operator .unaryMinus]
    let sum : Token := .call (.counted 4 1 false false) .value
    Formula.text arg .numbered = .ok "-A1,B1" ∧ arg.leaksUnion = true ∧
      Formula.text (arg ++ [sum]) .numbered = .ok "SUM(-A1,B1)" ∧
      argumentPieces .call "-A1,B1)".toList = some (["-A1".toList, "B1".toList], []) ∧
      ¬List.Forall₂ ShownAs ["-A1".toList, "B1".toList] ["-A1,B1"] := by
  intro cell arg sum
  refine ⟨by decide +kernel, by decide, by decide +kernel, by decide, fun h => ?_⟩
  cases h.length_eq

end Formula

end CellFormula
