import CellFormula.Proofs.TextParts

/-!
# Single spaces

One worksheet function takes away the spaces of a text that separate nothing: those at its ends, and
all but one of those that stand together. What is left has no such space, it has the words of the
text, and it is the only text of that kind.

## Words

A word is a part between spaces with something in it. Only the space itself separates: a tab, a line
break and a space of another width belong to the word that they stand in, like letters do.

## Why the form is proved by parts

`IsSingleSpaced` says where a text has no space. That is the same as that no part between spaces is
empty (`isSingleSpaced_iff`), and parts come back when they are joined by spaces. So nothing is
proved about places of characters, and no induction is over words.

## Main definitions

* `Text.partsOf`, `Text.wordsOf` — the parts between spaces, and those with something in them
* `Text.IsSingleSpaced` — a text without a space that separates nothing

## Main results

* `Text.isSingleSpaced_iff` — the form, said by parts
* `Text.singleSpaced_eq_self_iff` — texts of the form, and no others, stay as they are
* `Worksheet.trimmed_texts_are_normal` — what the worksheet function gives
-/

namespace CellFormula

namespace Text

variable {s q : String} {cs : List Char}

/-! ### Parts and words -/

/-- The parts of a text between its spaces. Next to a space at an end, and between two that stand
together, there is an empty part. -/
def partsOf (s : String) : List (List Char) := s.toList.splitOn ' '

/-- The words of a text. -/
def wordsOf (s : String) : List (List Char) := (partsOf s).filter (· ≠ [])

/-- No space stands at an end of the text or behind another one. -/
structure IsSingleSpaced (s : String) : Prop where
  begins : s.toList.head? ≠ some ' '
  ends : s.toList.getLast? ≠ some ' '
  within : ¬ [' ', ' '] <:+: s.toList

theorem reverse_endWord (word : List Char) (done : List (List Char)) :
    (endWord word done).reverse = done.reverse ++ [word.reverse].filter (· ≠ []) := by
  cases word with
  | nil => simp [endWord]
  | cons c word => simp [endWord]

/-- The word that was begun goes in front of the first part to come. -/
theorem wordsFrom_eq (word : List Char) (done : List (List Char)) (cs : List Char) :
    wordsFrom word done cs
      = done.reverse ++ ((cs.splitOn ' ').modifyHead (word.reverse ++ ·)).filter (· ≠ []) := by
  induction cs generalizing word done with
  | nil => rw [wordsFrom, reverse_endWord, List.splitOn_nil, List.modifyHead_cons, List.append_nil]
  | cons c cs ih =>
    rw [wordsFrom, List.splitOn_cons_eq_if_modifyHead]
    by_cases hc : c = ' '
    · have hid : (cs.splitOn ' ').modifyHead (([] : List Char).reverse ++ ·) = cs.splitOn ' ' :=
        congrFun List.modifyHead_id _
      rw [if_pos hc, if_pos (beq_iff_eq.mpr hc), ih, hid, reverse_endWord, List.modifyHead_cons,
        List.append_nil, List.append_assoc, ← List.filter_append, List.singleton_append]
    · have hword : ((c :: word).reverse ++ · : List Char → List Char)
          = (word.reverse ++ ·) ∘ List.cons c := by
        funext part
        rw [List.reverse_cons, List.append_assoc]
        rfl
      rw [if_neg hc, if_neg (mt beq_iff_eq.mp hc), ih, hword, List.modifyHead_modifyHead]

/-- **What is gathered are the words.** -/
theorem words_toList (s : String) : words s.toList = wordsOf s := by
  have hid : (partsOf s).modifyHead (([] : List Char).reverse ++ ·) = partsOf s :=
    congrFun List.modifyHead_id _
  rw [words, wordsFrom_eq, ← partsOf, hid, List.reverse_nil, List.nil_append, wordsOf]

/-- No part has a space in it. -/
theorem not_mem_of_mem_splitOn (cs : List Char) : ∀ part ∈ cs.splitOn ' ', ' ' ∉ part := by
  induction cs with
  | nil => exact List.forall_mem_singleton.mpr List.not_mem_nil
  | cons c cs ih =>
    rw [List.splitOn_cons_eq_if_modifyHead]
    split
    · exact List.forall_mem_cons.mpr ⟨List.not_mem_nil, ih⟩
    · next hc =>
      obtain ⟨first, others, hparts⟩ := List.exists_cons_of_ne_nil (List.splitOn_ne_nil ' ' cs)
      rw [hparts, List.forall_mem_cons] at ih
      rw [hparts, List.modifyHead_cons]
      refine List.forall_mem_cons.mpr ⟨?_, ih.2⟩
      rintro (_ | ⟨_, hfirst⟩)
      · exact hc rfl
      · exact ih.1 hfirst

/-- The parts are the text without its spaces. -/
theorem flatten_splitOn (cs : List Char) : (cs.splitOn ' ').flatten = cs.filter (· ≠ ' ') := by
  induction cs with
  | nil => rfl
  | cons c cs ih =>
    rw [List.splitOn_cons_eq_if_modifyHead]
    by_cases hc : c = ' '
    · rw [if_pos (beq_iff_eq.mpr hc), List.flatten_cons, List.nil_append, ih,
        List.filter_cons_of_neg (by simpa using hc)]
    · obtain ⟨first, others, hparts⟩ := List.exists_cons_of_ne_nil (List.splitOn_ne_nil ' ' cs)
      rw [hparts, List.flatten_cons] at ih
      rw [if_neg (mt beq_iff_eq.mp hc), hparts, List.modifyHead_cons, List.flatten_cons,
        List.cons_append, ih, List.filter_cons_of_pos (by simpa using hc)]

theorem ne_nil_of_mem_wordsOf : ∀ word ∈ wordsOf s, word ≠ [] := fun _ hword =>
  of_decide_eq_true (List.mem_filter.mp hword).2

theorem not_mem_of_mem_wordsOf : ∀ word ∈ wordsOf s, ' ' ∉ word := fun word hword =>
  not_mem_of_mem_splitOn s.toList word (List.mem_filter.mp hword).1

/-- The characters of the words are those of the text that are no spaces. -/
theorem flatten_wordsOf (s : String) : (wordsOf s).flatten = s.toList.filter (· ≠ ' ') := by
  rw [wordsOf, List.flatten_filter_ne_nil, partsOf, flatten_splitOn]

/-! ### The form -/

theorem intercalate_append {ws ws' : List (List Char)} (hws : ws ≠ []) (hws' : ws' ≠ []) :
    [' '].intercalate (ws ++ ws') = [' '].intercalate ws ++ ' ' :: [' '].intercalate ws' := by
  induction ws with
  | nil => exact absurd rfl hws
  | cons w ws ih =>
    by_cases hnil : ws = []
    · rw [hnil, List.singleton_append, List.intercalate_cons_of_ne_nil hws',
        List.intercalate_singleton, List.append_assoc, List.singleton_append]
    · have hboth : ws ++ ws' ≠ [] := List.append_ne_nil_of_left_ne_nil hnil ws'
      rw [List.cons_append, List.intercalate_cons_of_ne_nil hboth,
        List.intercalate_cons_of_ne_nil hnil, ih hnil]
      simp only [List.append_assoc]

/-- **A text has the form if no part of it is empty**, or if it is empty itself. -/
theorem isSingleSpaced_iff : IsSingleSpaced s ↔ s = "" ∨ [] ∉ partsOf s := by
  constructor
  · -- What stands on either side of an empty part says which kind of space there is.
    intro h
    by_contra hneither
    obtain ⟨hempty, hmem⟩ := not_or.mp hneither
    obtain ⟨before, after, hparts⟩ := List.append_of_mem (not_not.mp hmem)
    have hchars : s.toList = [' '].intercalate (before ++ [] :: after) := by
      rw [← hparts]
      exact (List.intercalate_splitOn ' ').symm
    by_cases hbefore : before = []
    · rw [hbefore, List.nil_append] at hchars
      by_cases hafter : after = []
      · rw [hafter, List.intercalate_singleton] at hchars
        exact hempty (String.toList_eq_nil_iff.mp hchars)
      · rw [List.intercalate_cons_of_ne_nil hafter] at hchars
        exact h.begins (by rw [hchars]; rfl)
    · rw [intercalate_append hbefore (List.cons_ne_nil [] after)] at hchars
      by_cases hafter : after = []
      · rw [hafter, List.intercalate_singleton] at hchars
        exact h.ends (by rw [hchars, List.getLast?_concat])
      · rw [List.intercalate_cons_of_ne_nil hafter] at hchars
        exact h.within ⟨_, _, by rw [hchars, List.append_assoc]; rfl⟩
  · rintro (rfl | hparts)
    · exact ⟨nofun, nofun, by decide⟩
    · have hnone (before after : List Char) (hchars : s.toList = before ++ ' ' :: after) :
          [] ∉ before.splitOn ' ' ++ after.splitOn ' ' := by
        rwa [← List.splitOn_append_cons_self, ← hchars]
      refine ⟨fun hhead => ?_, fun hlast => ?_, ?_⟩
      · obtain ⟨after, hchars⟩ := List.head?_eq_some_iff.mp hhead
        exact hnone [] after hchars (List.mem_append_left _ (List.mem_singleton.mpr rfl))
      · obtain ⟨before, hchars⟩ := List.getLast?_eq_some_iff.mp hlast
        exact hnone before [] hchars (List.mem_append_right _ (List.mem_singleton.mpr rfl))
      · rintro ⟨before, after, hchars⟩
        rw [List.append_assoc] at hchars
        refine hnone before (' ' :: after) hchars.symm (List.mem_append_right _ ?_)
        rw [List.splitOn_cons_eq_if_modifyHead, if_pos (beq_self_eq_true ' ')]
        exact List.mem_cons_self ..

/-! ### The text of the form -/

theorem toList_singleSpaced (s : String) :
    (singleSpaced s).toList = [' '].intercalate (wordsOf s) := by
  rw [singleSpaced, String.toList_ofList, words_toList]

/-- **The parts that are left are the words**, if there are any. -/
theorem partsOf_singleSpaced (h : wordsOf s ≠ []) : partsOf (singleSpaced s) = wordsOf s := by
  rw [partsOf, toList_singleSpaced]
  exact List.splitOn_intercalate ' ' not_mem_of_mem_wordsOf h

theorem singleSpaced_of_wordsOf_eq_nil (h : wordsOf s = []) : singleSpaced s = "" := by
  rw [← String.toList_eq_nil_iff, toList_singleSpaced, h, List.intercalate_nil]

theorem wordsOf_singleSpaced (s : String) : wordsOf (singleSpaced s) = wordsOf s := by
  by_cases h : wordsOf s = []
  · rw [singleSpaced_of_wordsOf_eq_nil h, h]
    rfl
  · rw [wordsOf, partsOf_singleSpaced h, List.filter_eq_self]
    exact fun word hword => decide_eq_true (ne_nil_of_mem_wordsOf word hword)

theorem isSingleSpaced_singleSpaced (s : String) : IsSingleSpaced (singleSpaced s) := by
  rw [isSingleSpaced_iff]
  by_cases h : wordsOf s = []
  · exact .inl (singleSpaced_of_wordsOf_eq_nil h)
  · refine .inr fun hmem => ?_
    rw [partsOf_singleSpaced h] at hmem
    exact ne_nil_of_mem_wordsOf [] hmem rfl

/-- **Texts of the form, and no others, stay as they are.** -/
theorem singleSpaced_eq_self_iff : singleSpaced s = s ↔ IsSingleSpaced s := by
  refine ⟨fun h => h ▸ isSingleSpaced_singleSpaced s, fun h => ?_⟩
  obtain rfl | hparts := isSingleSpaced_iff.mp h
  · rfl
  · have hwords : wordsOf s = partsOf s := by
      rw [wordsOf, List.filter_eq_self]
      exact fun part hpart => decide_eq_true fun hnil => hparts (hnil ▸ hpart)
    refine String.toList_injective ?_
    rw [toList_singleSpaced, hwords]
    exact List.intercalate_splitOn ' '

/-- **No other text of the form has these words.** -/
theorem eq_singleSpaced (hq : IsSingleSpaced q) (hwords : wordsOf q = wordsOf s) :
    q = singleSpaced s := by
  rw [← singleSpaced_eq_self_iff.mpr hq]
  refine String.toList_injective ?_
  rw [toList_singleSpaced, toList_singleSpaced, hwords]

end Text

namespace Worksheet

open Text

variable {t : Value} {s : String}

theorem trimmed_eq (ht : t.toText = .ok s) : trimmed [t] = .text (singleSpaced s) := by
  rw [trimmed, liftText, liftFirst_of_not_isArea (not_isArea_of_toText ht), ht]
  rfl

/-- **The text that is given is a normal form.** No space stands at an end of it or behind another
one, and it has the characters of the text that are no spaces, blanks of other kinds among them, in
their order. Its words are those of the text, and they are all its parts if there are any. It is
given for itself, a text is given for itself only if it has the form, and no other text of the form
has these words. -/
theorem trimmed_texts_are_normal (ht : t.toText = .ok s) :
    ∃ p, trimmed [t] = .text p ∧ IsSingleSpaced p ∧
      p.toList.filter (· ≠ ' ') = s.toList.filter (· ≠ ' ') ∧
      wordsOf p = wordsOf s ∧ (wordsOf s ≠ [] → partsOf p = wordsOf s) ∧
      trimmed [.text p] = .text p ∧ (p = s ↔ IsSingleSpaced s) ∧
      ∀ q, IsSingleSpaced q → wordsOf q = wordsOf s → q = p := by
  have hform := isSingleSpaced_singleSpaced s
  have hchars : (singleSpaced s).toList.filter (· ≠ ' ') = s.toList.filter (· ≠ ' ') := by
    rw [← flatten_wordsOf, wordsOf_singleSpaced, flatten_wordsOf]
  have hagain : trimmed [.text (singleSpaced s)] = .text (singleSpaced s) := by
    rw [trimmed_eq (s := singleSpaced s) rfl, singleSpaced_eq_self_iff.mpr hform]
  exact ⟨singleSpaced s, trimmed_eq ht, hform, hchars, wordsOf_singleSpaced s,
    partsOf_singleSpaced, hagain, singleSpaced_eq_self_iff, fun q => eq_singleSpaced⟩

/-- Spaces at both ends and between the words, a tab in front of a word and one that is a word. -/
theorem trimmed_texts_are_normal_tabs :
    let t : Value := .text "  \tab   \t c "
    t.toText = .ok "  \tab   \t c " ∧ trimmed [t] = .text "\tab \t c" ∧
      IsSingleSpaced "\tab \t c" ∧ partsOf "\tab \t c" = wordsOf "  \tab   \t c " ∧
      wordsOf "  \tab   \t c " = [['\t', 'a', 'b'], ['\t'], ['c']] ∧
      trimmed [.text "\tab \t c"] = .text "\tab \t c" := by
  intro t
  have ht : t.toText = .ok "  \tab   \t c " := rfl
  have hwords : wordsOf "  \tab   \t c " = [['\t', 'a', 'b'], ['\t'], ['c']] := by decide +kernel
  have hvalue : trimmed [t] = .text "\tab \t c" := rfl
  obtain ⟨p, hp, hform, -, -, hparts, hagain, -⟩ := trimmed_texts_are_normal ht
  obtain rfl : p = "\tab \t c" := Value.text.inj (hp.symm.trans hvalue)
  exact ⟨ht, hvalue, hform, hparts (by rw [hwords]; exact List.cons_ne_nil _ _), hwords, hagain⟩

end Worksheet

end CellFormula
