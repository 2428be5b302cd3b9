import CellFormula.Proofs.AddressText

/-!
# Texts in pieces

The arguments of a call stand between its parentheses with commas between them. A reader of the text
takes for a comma between two arguments what lies outside all further parentheses, braces and
quotation marks, and ends at the parenthesis that closes the call.

## Composition

`Leads s w ps s'` says what the reader makes of a text wherever it stands: it has cut the text into
the pieces `ps` and goes on behind it inside of `s'`. So texts that are put together are cut into
the pieces of both, the last of the one and the first of the other being one piece, and no text has
to be looked at from within a longer one. A quotation mark that is doubled needs no rule of its own:
it ends the quoted text and begins it again.

A text whose commas are all inside something is one piece everywhere (`Quiet`). All leaves of a
formula are such texts: numbers and addresses have none of the characters that the reader looks at,
texts are quoted, and the cells of an array literal stand in braces.

## Main definitions

* `Surroundings`, `argumentPieces` — the reader
* `Leads`, `Nested`, `Quiet` — what it makes of a text that stands in another one

## Main results

* `Leads.append`, `Nested.parenthesized`, `quiet_enclosed` — putting texts together
* `leads_intercalate` — texts with commas between them
* `Labels.quiet_leafText` — a leaf is one piece
-/

namespace CellFormula

/-! ### The reader -/

/-- What a reader of arguments is inside of. -/
structure Surroundings where
  /-- How many parentheses and braces are open, that of the call itself apart. -/
  depth : Nat
  /-- The mark of the quoted text. -/
  quote : Option Char
deriving DecidableEq, Repr

namespace Surroundings

/-- Right behind the opening parenthesis of the call. -/
def call : Surroundings := ⟨0, none⟩

/-- Behind one more character, unless that is the parenthesis that closes the call. -/
def after? (s : Surroundings) (c : Char) : Option Surroundings :=
  match s.quote with
  | some mark => some { s with quote := if c = mark then none else some mark }
  | none =>
    if c = '"' ∨ c = '\'' then some { s with quote := some c }
    else if c = '(' ∨ c = '\x7b' then some { s with depth := s.depth + 1 }
    else if c = ')' ∧ s.depth = 0 then none
    else if c = ')' ∨ c = '\x7d' then some { s with depth := s.depth - 1 }
    else some s

/-- The character is a comma between two arguments of the call. -/
def parts (s : Surroundings) (c : Char) : Bool := s = call && c = ','

end Surroundings

/-- Pieces one after the other, the last of the first ones going on with the first of the others. -/
def gluePieces : List (List Char) → List (List Char) → List (List Char)
  | [], qs => qs
  | [p], qs => qs.modifyHead (p ++ ·)
  | p :: p' :: ps, qs => p :: gluePieces (p' :: ps) qs

/-- Pieces in front of those that were read, and what is left behind them. -/
def joinPieces (ps : List (List Char)) (read : List (List Char) × List Char) :
    List (List Char) × List Char := (gluePieces ps read.1, read.2)

/-- The pieces of a text up to the parenthesis that closes the call, and what stands behind it. -/
def argumentPieces (s : Surroundings) : List Char → Option (List (List Char) × List Char)
  | [] => none
  | c :: cs =>
    match s.after? c with
    | some s' => (argumentPieces s' cs).map (joinPieces (if s.parts c then [[], []] else [[c]]))
    | none => some ([[]], cs)

/-! ### Gluing -/

theorem gluePieces_cons (p : List Char) {ps : List (List Char)} (hps : ps ≠ [])
    (qs : List (List Char)) : gluePieces (p :: ps) qs = p :: gluePieces ps qs := by
  match ps, hps with
  | _ :: _, _ => rfl

theorem gluePieces_ne_nil {ps qs : List (List Char)} (hqs : qs ≠ []) : gluePieces ps qs ≠ [] := by
  match ps, qs, hqs with
  | [], _, hqs => exact hqs
  | [_], _ :: _, _ | _ :: _ :: _, _, _ => exact List.cons_ne_nil _ _

/-- Gluing may begin at either end. -/
theorem gluePieces_assoc (ps : List (List Char)) {qs : List (List Char)} (hqs : qs ≠ [])
    (rs : List (List Char)) :
    gluePieces (gluePieces ps qs) rs = gluePieces ps (gluePieces qs rs) := by
  fun_induction gluePieces ps qs with
  | case1 => rfl
  | case2 p qs =>
    match qs, hqs with
    | [q], _ => cases rs <;> simp [gluePieces]
    | _ :: _ :: _, _ => rfl
  | case3 p p' ps qs ih =>
    rw [gluePieces_cons p (gluePieces_ne_nil hqs), ih hqs]
    rfl

theorem joinPieces_joinPieces (ps : List (List Char)) {qs : List (List Char)} (hqs : qs ≠ [])
    (read : List (List Char) × List Char) :
    joinPieces ps (joinPieces qs read) = joinPieces (gluePieces ps qs) read :=
  congrArg (·, read.2) (gluePieces_assoc ps hqs read.1).symm

/-- A comma parts what stands before it from what follows. -/
theorem gluePieces_comma {ps : List (List Char)} (hps : ps ≠ []) (qs : List (List Char)) :
    gluePieces ps (gluePieces [[], []] qs) = ps ++ qs := by
  have hcomma : gluePieces [[], []] qs = [] :: qs.modifyHead ([] ++ ·) := rfl
  have hid : qs.modifyHead ([] ++ ·) = qs := by cases qs <;> rfl
  rw [hcomma, hid]
  induction ps with
  | nil => exact absurd rfl hps
  | cons p ps ih =>
    cases ps with
    | nil => simp [gluePieces]
    | cons p' ps => rw [gluePieces_cons p (List.cons_ne_nil _ _), ih (List.cons_ne_nil _ _)]; rfl

/-! ### Texts that stand in another one -/

/-- The reader cuts the text into these pieces and goes on behind it. -/
structure Leads (s : Surroundings) (w : List Char) (ps : List (List Char)) (s' : Surroundings) :
    Prop where
  ne_nil : ps ≠ []
  read_eq : ∀ rest, argumentPieces s (w ++ rest) = (argumentPieces s' rest).map (joinPieces ps)

namespace Leads

variable {s s' s'' : Surroundings} {v w : List Char} {ps qs : List (List Char)}

/-- **Texts one after the other** are cut into the pieces of both. -/
theorem append (hv : Leads s v ps s') (hw : Leads s' w qs s'') :
    Leads s (v ++ w) (gluePieces ps qs) s'' where
  ne_nil := gluePieces_ne_nil hw.ne_nil
  read_eq rest := by
    rw [List.append_assoc, hv.read_eq, hw.read_eq, Option.map_map]
    exact congrArg (Option.map · _) (funext (joinPieces_joinPieces ps hw.ne_nil))

theorem nil : Leads s [] [[]] s where
  ne_nil := List.cons_ne_nil _ _
  read_eq rest := by
    have hid : joinPieces [[]] = id := funext fun read => by
      obtain ⟨qs, after⟩ := read
      cases qs <;> rfl
    rw [hid, Option.map_id, List.nil_append]
    rfl

/-- A comma between two arguments parts them. -/
theorem comma : Leads .call [','] [[], []] .call := ⟨List.cons_ne_nil _ _, fun _ => rfl⟩

theorem char {c : Char} (hafter : s.after? c = some s') (hparts : s.parts c = false) :
    Leads s [c] [[c]] s' where
  ne_nil := List.cons_ne_nil _ _
  read_eq rest := by rw [List.singleton_append, argumentPieces, hafter, hparts]; rfl

end Leads

/-- Inside parentheses or braces the text is one piece. -/
def Nested (w : List Char) : Prop := ∀ depth, Leads ⟨depth + 1, none⟩ w [w] ⟨depth + 1, none⟩

/-- The text is one piece everywhere. -/
def Quiet (w : List Char) : Prop := ∀ depth, Leads ⟨depth, none⟩ w [w] ⟨depth, none⟩

theorem Quiet.nested {w : List Char} (h : Quiet w) : Nested w := fun depth => h (depth + 1)

theorem Quiet.append {v w : List Char} (hv : Quiet v) (hw : Quiet w) : Quiet (v ++ w) :=
  fun depth => (hv depth).append (hw depth)

theorem Nested.append {v w : List Char} (hv : Nested v) (hw : Nested w) : Nested (v ++ w) :=
  fun depth => (hv depth).append (hw depth)

theorem quiet_nil : Quiet [] := fun _ => .nil

/-! ### Characters that mean nothing to the reader -/

/-- The character means nothing to the reader. -/
def isPlainChar (c : Char) : Bool :=
  not (['"', '\'', '(', ')', '\x7b', '\x7d', ','].contains c)

theorem quiet_char {c : Char} (h : isPlainChar c = true) : Quiet [c] := by
  simp only [isPlainChar, List.contains_eq_mem, Bool.not_eq_true', decide_eq_false_iff_not,
    List.mem_cons, List.not_mem_nil, or_false, not_or] at h
  obtain ⟨hdouble, hsingle, hopen, hclose, hbrace, hbraceEnd, hcomma⟩ := h
  intro depth
  refine .char ?_ ?_
  · simp [Surroundings.after?, hdouble, hsingle, hopen, hclose, hbrace, hbraceEnd]
  · simp [Surroundings.parts, hcomma]

/-- All characters of the text mean nothing to the reader. -/
def Plain (w : List Char) : Prop := ∀ c ∈ w, isPlainChar c = true

instance (w : List Char) : Decidable (Plain w) :=
  decidable_of_iff (w.all isPlainChar = true) List.all_eq_true

theorem Plain.append {v w : List Char} (hv : Plain v) (hw : Plain w) : Plain (v ++ w) :=
  List.forall_mem_append.mpr ⟨hv, hw⟩

theorem Plain.cons {c : Char} (hc : isPlainChar c = true) {w : List Char} (hw : Plain w) :
    Plain (c :: w) :=
  List.forall_mem_cons.mpr ⟨hc, hw⟩

theorem Plain.quiet {w : List Char} (h : Plain w) : Quiet w := by
  induction w with
  | nil => exact quiet_nil
  | cons c w ih =>
    obtain ⟨hc, hw⟩ := List.forall_mem_cons.mp h
    exact (quiet_char hc).append (ih hw)

/-- A class of characters without those that the reader looks at is plain. -/
theorem isPlainChar_of {p : Char → Bool}
    (hp : (['"', '\'', '(', ')', '\x7b', '\x7d', ','].all fun c => !p c) = true) {c : Char}
    (h : p c = true) : isPlainChar c = true := by
  rw [isPlainChar, Bool.not_eq_true', List.contains_eq_mem, decide_eq_false_iff_not]
  intro hmem
  have hnot := List.all_eq_true.mp hp c hmem
  rw [h] at hnot
  cases hnot

/-! ### Parentheses, braces and commas -/

/-- Inside parentheses a comma parts nothing. -/
theorem nested_comma : Nested [','] := fun _ => .char rfl rfl

/-- **Parentheses** make one piece of what they enclose. -/
theorem Nested.parenthesized {w : List Char} (h : Nested w) : Quiet ('(' :: (w ++ [')'])) := by
  intro depth
  have hopening : Leads ⟨depth, none⟩ ['('] [['(']] ⟨depth + 1, none⟩ :=
    .char rfl (by simp [Surroundings.parts])
  have hclosing : Leads ⟨depth + 1, none⟩ [')'] [[')']] ⟨depth, none⟩ := .char rfl rfl
  exact hopening.append ((h depth).append hclosing)

/-- **Braces** do the same. -/
theorem Nested.braced {w : List Char} (h : Nested w) : Quiet ('\x7b' :: (w ++ ['\x7d'])) := by
  intro depth
  have hopening : Leads ⟨depth, none⟩ ['\x7b'] [['\x7b']] ⟨depth + 1, none⟩ :=
    .char rfl (by simp [Surroundings.parts])
  have hclosing : Leads ⟨depth + 1, none⟩ ['\x7d'] [['\x7d']] ⟨depth, none⟩ := .char rfl rfl
  exact hopening.append ((h depth).append hclosing)

theorem Nested.intercalate {separator : List Char} (hseparator : Nested separator)
    {ws : List (List Char)} (h : ∀ w ∈ ws, Nested w) : Nested (separator.intercalate ws) := by
  induction ws with
  | nil => exact quiet_nil.nested
  | cons w ws ih =>
    obtain ⟨hw, hws⟩ := List.forall_mem_cons.mp h
    cases ws with
    | nil => rwa [List.intercalate_singleton]
    | cons w' ws =>
      rw [List.intercalate_cons_cons]
      exact (hw.append hseparator).append (ih hws)

/-- **Texts with commas between them** are cut into the pieces of each. -/
theorem leads_intercalate {ws : List (List Char)} {pss : List (List (List Char))}
    (h : List.Forall₂ (fun w ps => Leads .call w ps .call) ws pss) (hws : ws ≠ []) :
    Leads .call ([','].intercalate ws) pss.flatten .call := by
  induction h with
  | nil => exact absurd rfl hws
  | @cons w ps ws pss hw hrest ih =>
    cases hrest with
    | nil => rwa [List.intercalate_singleton, List.flatten_singleton]
    | @cons w' ps' ws pss _ _ =>
      have hall := (hw.append .comma).append (ih (List.cons_ne_nil _ _))
      rwa [gluePieces_assoc _ (List.cons_ne_nil _ _), gluePieces_comma hw.ne_nil,
        ← List.intercalate_cons_cons] at hall

/-! ### Quoted texts -/

section Quoted

variable {mark : Char} (hmark : mark = '"' ∨ mark = '\'') (depth : Nat)

include hmark in
/-- Outside quoted texts a mark begins one. -/
theorem leads_mark : Leads ⟨depth, none⟩ [mark] [[mark]] ⟨depth, some mark⟩ := by
  obtain rfl | rfl := hmark <;> exact .char rfl (by simp [Surroundings.parts])

/-- Inside a quoted text every character goes on with it, but for the mark that ends it. -/
theorem leads_quoted_char (mark c : Char) : Leads ⟨depth, some mark⟩ [c] [[c]]
    ⟨depth, if c = mark then none else some mark⟩ :=
  .char rfl (by simp [Surroundings.parts, Surroundings.call])

include hmark in
/-- The characters of a quoted text with every mark doubled are one piece. -/
theorem leads_doubled (cs : List Char) :
    Leads ⟨depth, some mark⟩ (Text.doubled mark cs) [Text.doubled mark cs] ⟨depth, some mark⟩ := by
  induction cs with
  | nil => exact .nil
  | cons c cs ih =>
    have hchar := leads_quoted_char depth mark c
    by_cases hc : c = mark
    · -- The first of two marks ends the text and the second one begins it again.
      subst hc
      rw [if_pos rfl] at hchar
      simpa [Text.doubled, gluePieces] using (hchar.append (leads_mark hmark depth)).append ih
    · rw [if_neg hc] at hchar
      simpa [Text.doubled, gluePieces, hc] using hchar.append ih

include hmark in
/-- **A quoted text is one piece.** -/
theorem quiet_enclosed (s : String) : Quiet (Text.enclosed mark s).toList := by
  intro depth
  have hends := leads_quoted_char depth mark mark
  rw [if_pos rfl] at hends
  rw [Text.enclosed, String.toList_ofList]
  exact (leads_mark hmark depth).append ((leads_doubled hmark depth s.toList).append hends)

end Quoted

/-! ### Numbers -/

namespace Number

theorem plain_digitsOf (n : Nat) : Plain (digitsOf n) := fun _ hc =>
  isPlainChar_of (p := Char.isDigit) (by decide)
    (Nat.isDigit_of_mem_toDigits (by decide) (by decide) hc)

theorem plain_zeros (count : Nat) : Plain (zeros count) := fun c hc => by
  rw [List.eq_of_mem_replicate hc]
  rfl

theorem plain_positional (d : Decimal) : Plain d.positional := by
  have hdigits := plain_digitsOf d.digits
  rw [Decimal.positional]
  split
  · exact hdigits.append (plain_zeros _)
  · dsimp only
    split
    · exact Plain.append (fun c hc => hdigits c (List.mem_of_mem_take hc))
        (.cons rfl fun c hc => hdigits c (List.mem_of_mem_drop hc))
    · exact .cons rfl (.cons rfl ((plain_zeros _).append hdigits))

theorem plain_fractionDigits {ds : List Char} (h : Plain ds) :
    Plain (Decimal.fractionDigits ds) := by
  cases ds with
  | nil => exact h
  | cons d ds => exact .cons rfl h

theorem plain_scientific (exponentDigits : Nat) (d : Decimal) :
    Plain (d.scientific exponentDigits) := by
  have hdigits := plain_digitsOf d.digits
  have hsign : isPlainChar (if d.leadingPower < 0 then '-' else '+') = true := by
    split <;> rfl
  have hfraction : Plain ((digitsOf d.digits).drop 1) := fun c hc =>
    hdigits c (List.mem_of_mem_drop hc)
  have hfirst : Plain ((digitsOf d.digits).take 1) := fun c hc =>
    hdigits c (List.mem_of_mem_take hc)
  exact (hfirst.append (plain_fractionDigits hfraction)).append
    (.cons rfl (.cons hsign ((plain_zeros _).append (plain_digitsOf _))))

theorem plain_magnitudeText (x : Float) : Plain (general.magnitudeText x) := by
  rw [NumberFormat.magnitudeText]
  split
  · rw [Decimal.write]
    split
    · exact plain_positional _
    · exact plain_scientific _ _
  · exact show Plain ['i', 'n', 'f'] by decide

/-- **A number is written with plain characters.** -/
theorem plain_generalText (x : Float) : Plain (generalText x).toList := by
  rw [generalText, NumberFormat.text]
  split
  · exact show Plain ['0'] by decide
  · split
    · rw [String.toList_ofList]
      split
      · exact .cons rfl (plain_magnitudeText x)
      · exact plain_magnitudeText x
    · exact show Plain ['#', 'N', 'U', 'M', '!'] by decide

end Number

/-! ### References and names -/

theorem isPlainChar_of_isAddressChar {c : Char} (h : Text.isAddressChar c = true) :
    isPlainChar c = true :=
  isPlainChar_of (p := Text.isAddressChar) (by decide) h

theorem CellRef.plain_text (c : CellRef) : Plain c.text.toList := fun _ hc =>
  isPlainChar_of_isAddressChar (isAddressChar_of_mem_addressText hc)

theorem plain_addressText (row col : Nat) (rowFixed colFixed : Bool) :
    Plain (addressText row col rowFixed colFixed).toList := fun _ hc =>
  isPlainChar_of_isAddressChar (isAddressChar_of_mem_addressText hc)

theorem plain_toString (n : Nat) : Plain (toString n).toList := by
  rw [Nat.toString_eq_repr, Nat.toList_repr]
  exact Number.plain_digitsOf n

/-- Letters and digits of every script are plain, and so is what else a bare label may have. -/
theorem isPlainChar_of_isAlphanumeric {c : Char}
    (h : (Text.isAlphanumeric c || c == '_' || c == '.') = true) : isPlainChar c = true :=
  isPlainChar_of (p := fun c => Text.isAlphanumeric c || c == '_' || c == '.') (by decide +kernel) h

/-- The label of a sheet is one piece, with marks or without. -/
theorem quiet_sheetLabel (s : String) : Quiet (Text.sheetLabel s).toList := by
  rw [Text.sheetLabel]
  split
  · next hplain =>
    exact Plain.quiet fun d hd =>
      isPlainChar_of_isAlphanumeric (Text.all_of_isPlainLabel hplain d hd)
  · exact quiet_enclosed (.inr rfl) s

/-- A name of a workbook of which nothing is known is one piece. -/
theorem quiet_numberedName (n : NameRef) : Quiet (Labels.numbered.name n).toList := by
  have hname : Plain "Name".toList := by decide
  have hbang : Plain "!Name".toList := by decide
  cases n with
  | defined index =>
    change Quiet ("Name" ++ toString index.toNat).toList
    rw [String.toList_append]
    exact (hname.append (plain_toString _)).quiet
  | external link index =>
    change Quiet (Text.sheetLabel (Labels.numberedSheet link) ++ "!Name"
      ++ toString index.toNat).toList
    rw [String.toList_append, String.toList_append]
    exact ((quiet_sheetLabel _).append hbang.quiet).append (plain_toString _).quiet

/-- Two addresses with a colon between them are plain. -/
theorem plain_span {first last : String} (hfirst : Plain first.toList) (hlast : Plain last.toList) :
    Plain (first ++ ":" ++ last).toList := by
  rw [String.toList_append, String.toList_append]
  exact (hfirst.append (show Plain ":".toList by decide)).append hlast

theorem AreaRef.plain_text (a : AreaRef) : Plain a.text.toList :=
  plain_span a.first.plain_text a.last.plain_text

namespace Labels

variable (labels : Labels)

theorem plain_goneText : Plain goneText.toList := by decide

theorem quiet_onSheet (link : UInt16) {text : String} (h : Plain text.toList) :
    Quiet (labels.onSheet link text).toList := by
  have hbang : Plain "!".toList := by decide
  rw [onSheet, String.toList_append, String.toList_append]
  exact ((quiet_sheetLabel _).append hbang.quiet).append h.quiet

theorem plain_sharedText? {c : CellRef} {s : String} (h : labels.sharedText? c = some s) :
    Plain s.toList := by
  rw [sharedText?, Option.map_eq_some_iff] at h
  obtain ⟨⟨row, col⟩, -, rfl⟩ := h
  exact plain_addressText _ _ _ _

/-- A reference is one piece. -/
theorem quiet_referenceText (r : Reference) : Quiet (labels.referenceText r).toList := by
  cases r with
  | cell c => exact c.plain_text.quiet
  | area a => exact a.plain_text.quiet
  | sharedCell c =>
    rw [referenceText]
    cases htext : labels.sharedText? c with
    | none => exact plain_goneText.quiet
    | some s => exact (labels.plain_sharedText? htext).quiet
  | sharedArea a =>
    rw [referenceText, sharedAreaText?]
    cases hfirst : labels.sharedText? a.first with
    | none => exact plain_goneText.quiet
    | some first =>
      cases hlast : labels.sharedText? a.last with
      | none => exact plain_goneText.quiet
      | some last =>
        exact (plain_span (labels.plain_sharedText? hfirst) (labels.plain_sharedText? hlast)).quiet
  | cellGone | areaGone => exact plain_goneText.quiet
  | sheetCell link c => exact labels.quiet_onSheet link c.plain_text
  | sheetArea link a => exact labels.quiet_onSheet link a.plain_text
  | sheetCellGone link | sheetAreaGone link => exact labels.quiet_onSheet link plain_goneText

end Labels

/-! ### Leaves -/

theorem ErrorKind.plain_code (kind : ErrorKind) : Plain kind.code.toList := by
  cases kind <;> decide

theorem Value.plain_boolText (b : Bool) : Plain (Value.boolText b).toList := by
  cases b <;> decide

theorem Literal.quiet_formulaText (l : Literal) : Quiet l.formulaText.toList := by
  cases l with
  | int n => exact (plain_toString _).quiet
  | number x => exact (Number.plain_generalText _).quiet
  | text s => exact quiet_enclosed (.inl rfl) s
  | boolean b => exact (Value.plain_boolText b).quiet
  | error kind => exact kind.plain_code.quiet

theorem Value.quiet_literalText (v : Value) : Quiet v.literalText.toList := by
  cases v with
  | number x => exact (Number.plain_generalText x).quiet
  | text s => exact quiet_enclosed (.inl rfl) s
  | boolean b => exact (Value.plain_boolText b).quiet
  | error kind => exact kind.plain_code.quiet
  | _ => exact quiet_nil

/-- The cells of an array literal stand in braces. -/
theorem quiet_arrayText (m : Matrix Constant) : Quiet (arrayText m).toList := by
  have hsemicolon : Nested ";".toList := (show Plain ";".toList by decide).quiet.nested
  rw [arrayText, String.toList_append, String.toList_append, String.toList_intercalate]
  refine Nested.braced (hsemicolon.intercalate fun w hw => ?_)
  obtain ⟨text, htext, rfl⟩ := List.mem_map.mp hw
  obtain ⟨row, -, rfl⟩ := List.mem_map.mp htext
  rw [String.toList_intercalate]
  refine nested_comma.intercalate fun w hw => ?_
  obtain ⟨text, htext, rfl⟩ := List.mem_map.mp hw
  obtain ⟨c, -, rfl⟩ := List.mem_map.mp htext
  exact c.toValue.quiet_literalText.nested

/-- **A leaf is one piece.** -/
theorem Labels.quiet_leafText {labels : Labels} (hnames : ∀ n, Quiet (labels.name n).toList)
    (l : Leaf) : Quiet (labels.leafText l).toList := by
  cases l with
  | missing => exact quiet_nil
  | literal l => exact l.quiet_formulaText
  | reference r => exact labels.quiet_referenceText r
  | name n => exact hnames n
  | array cells =>
    cases cells with
    | none =>
      have hbraces : "\x7b\x7d".toList = ['\x7b', '\x7d'] := by decide
      change Quiet "\x7b\x7d".toList
      rw [hbraces]
      exact quiet_nil.nested.braced
    | some m => exact quiet_arrayText m

end CellFormula
