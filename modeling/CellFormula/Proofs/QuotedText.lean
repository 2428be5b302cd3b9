import CellFormula.Proofs.AddressText

/-!
# Quoted texts read back

A text between marks is read from the opening mark on: two marks stand for one that belongs to the
text, and a mark that is not followed by another one ends it. Anything but a mark may stand behind.

## Sheets

In front of an exclamation mark stands the label of a sheet, bare or between marks. A bare label has
neither an exclamation mark nor a single mark in it, so it ends where the exclamation mark stands,
and it begins with no mark, so that the two forms are told apart by their first character.

## Main definitions

* `readToMark?`, `readEnclosed?` — the text between marks, and what stands behind it
* `readSheet?` — the label of a sheet, and what stands behind it

## Main results

* `readToMark?_eq_some_iff` — what is read is what was written
* `readSheet?_sheetLabel` — labels of sheets
* `quoted_texts_read_back` — different texts and sheets are never written alike
-/

namespace CellFormula.Text

variable {mark : Char} {cs rest : List Char} {s : String}

/-! ### Texts between marks -/

/-- The text in front of the mark that ends it, and what stands behind that mark. -/
def readToMark? (mark : Char) : List Char → Option (List Char × List Char)
  | [] => none
  | c :: cs =>
    if c = mark then
      match cs with
      | [] => some ([], [])
      | d :: rest =>
        if d = mark then (readToMark? mark rest).map (Prod.map (mark :: ·) id)
        else some ([], d :: rest)
    else (readToMark? mark cs).map (Prod.map (c :: ·) id)

/-- The text between two marks, and what stands behind them. -/
def readEnclosed? (mark : Char) : List Char → Option (List Char × List Char)
  | [] => none
  | c :: cs => if c = mark then readToMark? mark cs else none

theorem readToMark?_of_ne {c : Char} (h : c ≠ mark) (cs : List Char) :
    readToMark? mark (c :: cs) = (readToMark? mark cs).map (Prod.map (c :: ·) id) := by
  rw [readToMark?.eq_def]
  exact if_neg h

/-- Two marks stand for one that belongs to the text. -/
theorem readToMark?_doubled_mark (mark : Char) (cs : List Char) :
    readToMark? mark (mark :: mark :: cs)
      = (readToMark? mark cs).map (Prod.map (mark :: ·) id) := by
  rw [readToMark?, if_pos rfl, if_pos rfl]

/-- A mark that is not followed by another one ends the text. -/
theorem readToMark?_mark (h : rest.head? ≠ some mark) :
    readToMark? mark (mark :: rest) = some ([], rest) := by
  rw [readToMark?.eq_def]
  cases rest with
  | nil => exact if_pos rfl
  | cons d rest =>
    have hd : d ≠ mark := fun heq => h (congrArg some heq)
    exact (if_pos rfl).trans (if_neg hd)

theorem doubled_cons (mark c : Char) (cs : List Char) :
    doubled mark (c :: cs) = (if c = mark then [mark, mark] else [c]) ++ doubled mark cs :=
  List.flatMap_cons ..

/-- What was written is read, if no mark stands behind it. -/
theorem readToMark?_doubled (hrest : rest.head? ≠ some mark) (cs : List Char) :
    readToMark? mark (doubled mark cs ++ mark :: rest) = some (cs, rest) := by
  induction cs with
  | nil => exact readToMark?_mark hrest
  | cons c cs ih =>
    rw [doubled_cons, List.append_assoc]
    by_cases hc : c = mark
    · rw [if_pos hc, List.cons_append, List.singleton_append, readToMark?_doubled_mark, ih, hc]
      rfl
    · rw [if_neg hc, List.singleton_append, readToMark?_of_ne hc, ih]
      rfl

/-- What is read was written, and no mark stands behind it. -/
theorem eq_doubled_of_readToMark? {input : List Char}
    (h : readToMark? mark input = some (cs, rest)) :
    input = doubled mark cs ++ mark :: rest ∧ rest.head? ≠ some mark := by
  fun_induction readToMark? mark input generalizing cs with
  | case1 => cases h
  | case2 =>
    cases h
    exact ⟨rfl, nofun⟩
  | case3 input ih =>
    obtain ⟨⟨cs', rest'⟩, hread, heq⟩ := Option.map_eq_some_iff.mp h
    cases heq
    obtain ⟨hinput, hrest⟩ := ih hread
    refine ⟨?_, hrest⟩
    rw [doubled_cons, if_pos rfl, hinput]
    rfl
  | case4 d input hd =>
    cases h
    exact ⟨rfl, fun heq => hd (Option.some.inj heq)⟩
  | case5 d input hd ih =>
    obtain ⟨⟨cs', rest'⟩, hread, heq⟩ := Option.map_eq_some_iff.mp h
    cases heq
    obtain ⟨hinput, hrest⟩ := ih hread
    refine ⟨?_, hrest⟩
    rw [doubled_cons, if_neg hd, hinput]
    rfl

/-- **What is read is what was written**, up to the first mark that is not doubled. -/
theorem readToMark?_eq_some_iff {input : List Char} : readToMark? mark input = some (cs, rest) ↔
    input = doubled mark cs ++ mark :: rest ∧ rest.head? ≠ some mark := by
  refine ⟨eq_doubled_of_readToMark?, ?_⟩
  rintro ⟨rfl, hrest⟩
  exact readToMark?_doubled hrest cs

theorem toList_enclosed_append (mark : Char) (s : String) (rest : List Char) :
    (enclosed mark s).toList ++ rest = mark :: (doubled mark s.toList ++ mark :: rest) := by
  rw [enclosed, String.toList_ofList, List.cons_append, List.append_assoc, List.singleton_append]

/-- **A text between marks is read back.** -/
theorem readEnclosed?_enclosed (s : String) (hrest : rest.head? ≠ some mark) :
    readEnclosed? mark ((enclosed mark s).toList ++ rest) = some (s.toList, rest) := by
  rw [toList_enclosed_append, readEnclosed?, if_pos rfl, readToMark?_doubled hrest]

/-! ### Labels of sheets -/

/-- The label of a sheet in front of an exclamation mark, and what stands behind the label. -/
def readSheet? (cs : List Char) : Option (List Char × List Char) :=
  if cs.head? = some '\'' then readEnclosed? '\'' cs
  else some (cs.takeWhile (· != '!'), cs.dropWhile (· != '!'))

/-- A bare label has no character that is told apart from those that it may have. -/
theorem not_mem_of_isPlainLabel (h : isPlainLabel s = true) {c : Char}
    (hc : (isAlphanumeric c || c == '_' || c == '.') = false) : c ∉ s.toList := fun hmem =>
  Bool.false_ne_true (hc.symm.trans (all_of_isPlainLabel h c hmem))

theorem not_mem_mark_of_isPlainLabel (h : isPlainLabel s = true) : '\'' ∉ s.toList :=
  not_mem_of_isPlainLabel h (by decide +kernel)

theorem not_mem_bang_of_isPlainLabel (h : isPlainLabel s = true) : '!' ∉ s.toList :=
  not_mem_of_isPlainLabel h (by decide +kernel)

/-- Behind a bare label the exclamation mark stands first. -/
theorem readSheet?_of_isPlainLabel (h : isPlainLabel s = true) (rest : List Char) :
    readSheet? (s.toList ++ '!' :: rest) = some (s.toList, '!' :: rest) := by
  have hbare : (s.toList ++ '!' :: rest).head? ≠ some '\'' := by
    intro hhead
    rw [List.head?_append] at hhead
    obtain hfirst | ⟨-, hbang⟩ := Option.or_eq_some_iff.mp hhead
    · exact not_mem_mark_of_isPlainLabel h (List.mem_of_mem_head? hfirst)
    · exact absurd (Option.some.inj hbang) (by decide)
  have hlabel : ∀ c ∈ s.toList, (c != '!') = true := by
    intro c hc
    rw [bne_iff_ne]
    rintro rfl
    exact not_mem_bang_of_isPlainLabel h hc
  have hends : ∀ c ∈ ('!' :: rest).head?, (c != '!') = false := by
    rintro c ⟨⟩
    rfl
  rw [readSheet?, if_neg hbare, takeWhile_append_of_stops hlabel hends,
    dropWhile_append_of_stops hlabel hends]

/-- **The label of a sheet is read back** from in front of an exclamation mark. -/
theorem readSheet?_sheetLabel (s : String) (rest : List Char) :
    readSheet? ((sheetLabel s).toList ++ '!' :: rest) = some (s.toList, '!' :: rest) := by
  rw [sheetLabel]
  split
  · next hplain => exact readSheet?_of_isPlainLabel hplain rest
  · next =>
    have hmark : ((enclosed '\'' s).toList ++ '!' :: rest).head? = some '\'' := by
      rw [toList_enclosed_append]
      rfl
    rw [readSheet?, if_pos hmark]
    exact readEnclosed?_enclosed s (by simp)

/-! ### What is written alike -/

/-- Texts in a formula are told apart, with anything behind them but a further mark. -/
theorem textLiteral_append_inj {s s' : String} {rest rest' : List Char}
    (hrest : rest.head? ≠ some '"') (hrest' : rest'.head? ≠ some '"')
    (h : (textLiteral s).toList ++ rest = (textLiteral s').toList ++ rest') :
    s = s' ∧ rest = rest' := by
  have hread := readEnclosed?_enclosed s hrest
  rw [← textLiteral, h, textLiteral, readEnclosed?_enclosed s' hrest'] at hread
  obtain ⟨hchars, hbehind⟩ := Prod.mk.inj (Option.some.inj hread)
  exact ⟨String.toList_injective hchars.symm, hbehind.symm⟩

/-- Sheets in a formula are told apart, with anything behind the exclamation mark. -/
theorem onSheet_inj {labels labels' : Labels} {link link' : UInt16} {text text' : String}
    (h : labels.onSheet link text = labels'.onSheet link' text') :
    labels.sheet link = labels'.sheet link' ∧ text = text' := by
  have hchars (labels : Labels) (link : UInt16) (text : String) :
      (labels.onSheet link text).toList
        = (sheetLabel (labels.sheet link)).toList ++ '!' :: text.toList := by
    rw [Labels.onSheet, String.toList_append, String.toList_append, List.append_assoc]
    rfl
  have hread := readSheet?_sheetLabel (labels.sheet link) text.toList
  rw [← hchars, h, hchars, readSheet?_sheetLabel] at hread
  obtain ⟨hsheet, hbehind⟩ := Prod.mk.inj (Option.some.inj hread)
  exact ⟨String.toList_injective hsheet.symm,
    String.toList_injective (List.cons.inj hbehind).2.symm⟩

/-- **Quoted texts and labels of sheets are read back.** A text in a formula ends at its closing
mark, whatever stands behind it but a further mark, and what is read is the text. A label of a sheet
is bare and has none of the characters that could end it, or stands between marks, ends in front of
the exclamation mark, and is read as the label. So no two texts, and no two sheets, are written
alike, with anything behind them. -/
theorem quoted_texts_read_back :
    (∀ (s : String) rest, rest.head? ≠ some '"' →
      readEnclosed? '"' ((textLiteral s).toList ++ rest) = some (s.toList, rest)) ∧
    (∀ s : String,
      sheetLabel s = s ∧ '!' ∉ s.toList ∧ '\'' ∉ s.toList ∨
        ∀ rest, readEnclosed? '\'' ((sheetLabel s).toList ++ '!' :: rest)
          = some (s.toList, '!' :: rest)) ∧
    (∀ (s : String) rest,
      readSheet? ((sheetLabel s).toList ++ '!' :: rest) = some (s.toList, '!' :: rest)) ∧
    (∀ (s s' : String) rest rest', rest.head? ≠ some '"' → rest'.head? ≠ some '"' →
      (textLiteral s).toList ++ rest = (textLiteral s').toList ++ rest' → s = s' ∧ rest = rest') ∧
    ∀ (labels labels' : Labels) link link' text text',
      labels.onSheet link text = labels'.onSheet link' text' →
        labels.sheet link = labels'.sheet link' ∧ text = text' := by
  refine ⟨fun s _ => readEnclosed?_enclosed s, fun s => ?_, readSheet?_sheetLabel,
    fun _ _ _ _ => textLiteral_append_inj, fun _ _ _ _ _ _ => onSheet_inj⟩
  rw [sheetLabel]
  split
  · next hplain =>
    exact .inl ⟨rfl, not_mem_bang_of_isPlainLabel hplain, not_mem_mark_of_isPlainLabel hplain⟩
  · next => exact .inr fun rest => readEnclosed?_enclosed s (by simp)

/-- A text of three marks in front of a comma, and a sheet whose label needs marks and has one. -/
theorem quoted_texts_read_back_marks :
    let rest := ",A1)".toList
    let labels : Labels := { Labels.numbered with sheet := fun _ => "It's!" }
    rest.head? ≠ some '"' ∧
      readEnclosed? '"' ((textLiteral "\"\"\"").toList ++ rest) = some ("\"\"\"".toList, rest) ∧
      readSheet? ((sheetLabel "It's!").toList ++ '!' :: rest) = some ("It's!".toList, '!' :: rest) ∧
      (textLiteral "\"\"\"").toList ++ rest ≠ (textLiteral "\"\"").toList ++ rest ∧
      labels.onSheet 0 "A1" ≠ Labels.numbered.onSheet 0 "A1" := by
  intro rest labels
  obtain ⟨htext, -, hsheet, htexts, hsheets⟩ := quoted_texts_read_back
  have hrest : rest.head? ≠ some '"' := by decide
  refine ⟨hrest, htext _ rest hrest, hsheet _ rest, fun h => ?_, fun h => ?_⟩
  · exact absurd (htexts _ _ rest rest hrest hrest h).1 (by decide)
  · exact absurd (hsheets labels .numbered 0 0 "A1" "A1" h).1 (by decide)

end CellFormula.Text
