import CellFormula.Proofs.TextBytes
import CellFormula.Worksheet.Catalogue
import Mathlib.Data.List.Basic
import Mathlib.Data.List.Nodup
import Mathlib.Data.List.Sort
import Std.Data.HashMap

/-!
# Searching the catalogue

No two entries of the catalogue have the same name and no two have the same index, so a name and an
index have one meaning each: the entry that has it. The look-ups that are defined beside the
catalogue go through it from the start. Here are two that take fewer steps, and what they find is
the same.

## Names

A name is respelled in capital letters before its place is looked up. A short name is respelled byte
by byte in a buffer, and has to be read as a text again after that; a long one is respelled as a
text. In UTF-8 a byte below `0x80` is a character of its own and never a part of another one, so the
bytes of the 26 letters are respelled and no others, and the bytes still encode a text. It does not
matter where the line between short and long names is drawn.

## Indices

The catalogue is in the order of its indices, and is halved until one entry is left.

## Main definitions

* `namePlaces`, `spelled?`, `namedBy?` — the look-up by name, by way of a buffer
* `bisect`, `bisected?` — the look-up by index, by halving

## Main results

* `map_byteCapital_encoded` — bytes in capitals are the bytes of the text in capitals
* `namedBy?_eq`, `bisected?_eq` — what is found is the same
* `lookups_find_entries` — what is found is the one entry with the name or the index
-/

namespace CellFormula

namespace Text

/-! ### Capitals byte by byte -/

/-- The byte with a letter of ASCII in capitals. -/
def byteCapital (b : UInt8) : UInt8 := if 0x61 ≤ b ∧ b ≤ 0x7A then b - 0x20 else b

theorem byteCapital_of_le {b : UInt8} (h : 0x80 ≤ b) : byteCapital b = b := by
  refine if_neg fun hletter => ?_
  have hlow := UInt8.le_iff_toNat_le.mp h
  have hhigh := UInt8.le_iff_toNat_le.mp hletter.2
  exact absurd (Nat.le_trans hlow hhigh) (by decide)

/-- **The bytes of a character in capitals** are its bytes in capitals. -/
theorem map_byteCapital_utf8EncodeChar (c : Char) :
    (String.utf8EncodeChar c).map byteCapital = String.utf8EncodeChar c.toUpper := by
  by_cases h : c.toNat < 0x80
  · have hall : ∀ n : Fin 0x80, (String.utf8EncodeChar (Char.ofNat n)).map byteCapital
        = String.utf8EncodeChar (Char.ofNat n).toUpper := by decide
    have hchar := hall ⟨c.toNat, h⟩
    rwa [Char.ofNat_toNat] at hchar
  · rw [Nat.not_lt] at h
    have hupper : c.toUpper = c := by
      refine dif_neg fun hletter => ?_
      have hsmall : c.toNat ≤ 'z'.toNat := UInt32.le_iff_toNat_le.mp hletter.2
      exact absurd (Nat.le_trans h hsmall) (by decide)
    have hkept : ∀ b ∈ String.utf8EncodeChar c, byteCapital b = b := fun b hb =>
      byteCapital_of_le (le_of_mem_utf8EncodeChar h b hb)
    rw [hupper, List.map_congr_left hkept, List.map_id']

/-- **The bytes of a text in capitals** are its bytes in capitals. -/
theorem map_byteCapital_encoded (cs : List Char) :
    (cs.flatMap String.utf8EncodeChar).map byteCapital
      = (asciiCapital cs).flatMap String.utf8EncodeChar := by
  rw [List.map_flatMap, asciiCapital, List.flatMap_map]
  exact congrArg (cs.flatMap ·) (funext map_byteCapital_utf8EncodeChar)

end Text

namespace Worksheet

open Text (byteCapital asciiCapital trim)

/-! ### The meaning of a name and of an index -/

variable {xs : List FunctionInfo} {info : FunctionInfo}

/-- **What is found by a key of its own** is the one entry that has it. -/
theorem find?_key_eq_some_iff {κ : Type} [BEq κ] [LawfulBEq κ] {key : FunctionInfo → κ}
    (hkeys : (xs.map key).Nodup) {k : κ} :
    xs.find? (key · == k) = some info ↔ info ∈ xs ∧ key info = k := by
  constructor
  · intro h
    have hfound := List.find?_some h
    exact ⟨List.mem_of_find?_eq_some h, beq_iff_eq.mp hfound⟩
  · rintro ⟨hmem, rfl⟩
    have hsome : (xs.find? (key · == key info)).isSome :=
      List.find?_isSome.mpr ⟨info, hmem, beq_self_eq_true _⟩
    obtain ⟨found, hfound⟩ := Option.isSome_iff_exists.mp hsome
    have hkey : key found = key info := by
      have hbeq := List.find?_some hfound
      exact beq_iff_eq.mp hbeq
    rw [hfound, List.inj_on_of_nodup_map hkeys (List.mem_of_find?_eq_some hfound) hmem hkey]

/-- The bytes of a name as one number. Many numbers are put in order much faster than many texts. -/
def nameNumber (name : String) : Nat :=
  name.toByteArray.data.toList.foldl (fun number b => number * 0x100 + b.toNat) 0

/-- No two entries have the same name. -/
theorem nodup_map_name : (catalogue.map (·.name)).Nodup := by
  have hchain : ((catalogue.map (nameNumber ·.name)).insertionSort (· ≤ ·)).IsChain (· < ·) := by
    decide +kernel
  have hsorted := hchain.pairwise.imp Nat.ne_of_lt
  have hnumbers : (catalogue.map (nameNumber ·.name)).Nodup :=
    (List.perm_insertionSort _ _).nodup_iff.mp hsorted
  exact List.Nodup.of_map nameNumber (by rwa [List.map_map])

/-- The catalogue is in the order of its indices. -/
theorem pairwise_index_lt : catalogue.Pairwise (·.index < ·.index) := by
  have hchain : (catalogue.map (·.index)).IsChain (· < ·) := by decide +kernel
  exact List.pairwise_map.mp hchain.pairwise

/-- No two entries have the same index. -/
theorem nodup_map_index : (catalogue.map (·.index)).Nodup :=
  List.pairwise_map.mpr (pairwise_index_lt.imp UInt16.ne_of_lt)

theorem functionNamed?_eq_some_iff {name : String} :
    functionNamed? name = some info ↔
      info ∈ catalogue ∧ info.name = String.ofList (asciiCapital (trim name.toList)) :=
  find?_key_eq_some_iff nodup_map_name

theorem functionAt?_eq_some_iff {index : UInt16} :
    functionAt? index = some info ↔ info ∈ catalogue ∧ info.index = index :=
  find?_key_eq_some_iff nodup_map_index

/-! ### Names by their places -/

/-- The names, with their places in the catalogue. -/
def placedNames : List (String × Nat) :=
  catalogue.zipIdx.map fun (info, place) => (info.name, place)

/-- The place of each name. -/
def namePlaces : Std.HashMap String Nat := .ofList placedNames

/-- The entry at the place of this name, which has to be spelled in capitals. -/
def spelled? (name : String) : Option FunctionInfo := namePlaces[name]?.bind (catalogue[·]?)

theorem map_fst_placedNames : placedNames.map Prod.fst = catalogue.map (·.name) :=
  calc placedNames.map Prod.fst
      = catalogue.zipIdx.map (·.1.name) := List.map_map
    _ = (catalogue.zipIdx.map Prod.fst).map (·.name) := List.map_map.symm
    _ = catalogue.map (·.name) := by rw [List.zipIdx_map_fst]

theorem spelled?_name {place : Nat} (hplace : catalogue[place]? = some info) :
    spelled? info.name = some info := by
  have hdistinct : placedNames.Pairwise fun a b => (a.1 == b.1) = false := by
    have hnames := nodup_map_name
    rw [← map_fst_placedNames] at hnames
    exact (List.pairwise_map.mp hnames).imp beq_false_of_ne
  have hmem : (info.name, place) ∈ placedNames :=
    List.mem_map.mpr ⟨(info, place), List.mk_mem_zipIdx_iff_getElem?.mpr hplace, rfl⟩
  have hget : namePlaces[info.name]? = some place :=
    Std.HashMap.getElem?_ofList_of_mem (beq_self_eq_true _) hdistinct hmem
  rw [spelled?, hget]
  exact hplace

theorem spelled?_eq_none {name : String} (h : name ∉ catalogue.map (·.name)) :
    spelled? name = none := by
  have hget : namePlaces[name]? = none := by
    refine Std.HashMap.getElem?_ofList_of_contains_eq_false ?_
    rw [map_fst_placedNames]
    exact Bool.eq_false_iff.mpr fun hcontains => h (List.contains_iff_mem.mp hcontains)
  rw [spelled?, hget]
  rfl

theorem spelled?_eq (name : String) : spelled? name = catalogue.find? (·.name == name) := by
  by_cases h : name ∈ catalogue.map (·.name)
  · obtain ⟨info, hmem, rfl⟩ := List.mem_map.mp h
    obtain ⟨place, hplace⟩ := List.mem_iff_getElem?.mp hmem
    rw [spelled?_name hplace, (find?_key_eq_some_iff nodup_map_name).mpr ⟨hmem, rfl⟩]
  · rw [spelled?_eq_none h, eq_comm, List.find?_eq_none]
    intro info hmem hname
    exact h (List.mem_map.mpr ⟨info, hmem, beq_iff_eq.mp hname⟩)

/-! ### Names by way of a buffer -/

/-- What the bytes become when each is written in capitals over a byte of the buffer. -/
def capitalsIn (buffer bytes : List UInt8) : List UInt8 :=
  List.zipWith (fun _ b => byteCapital b) (buffer.take bytes.length) bytes

/-- The function with this name, which is written in capitals into the buffer if it has room for the
bytes. The buffer that is used has 32 bytes. -/
def namedBy? (buffer : List UInt8) (name : String) : Option FunctionInfo :=
  let word := trim name.toList
  let bytes := (String.ofList word).toByteArray.data.toList
  if word = [] then none
  else if bytes.length ≤ buffer.length then
    (String.fromUTF8? (capitalsIn buffer bytes).toByteArray).bind spelled?
  else spelled? (String.ofList (asciiCapital word))

theorem capitalsIn_eq {buffer bytes : List UInt8} (hroom : bytes.length ≤ buffer.length) :
    capitalsIn buffer bytes = bytes.map byteCapital := by
  rw [capitalsIn]
  induction bytes generalizing buffer with
  | nil => exact List.zipWith_nil_right
  | cons b bytes ih =>
    cases buffer with
    | nil => exact absurd hroom (Nat.not_succ_le_zero _)
    | cons old buffer =>
      exact congrArg (byteCapital b :: ·) (ih (Nat.le_of_succ_le_succ hroom))

/-- **The buffer does not matter**: however much room it has, what is found is the same. -/
theorem namedBy?_eq (buffer : List UInt8) (name : String) :
    namedBy? buffer name = functionNamed? name := by
  have hspelled : functionNamed? name
      = spelled? (String.ofList (asciiCapital (trim name.toList))) := (spelled?_eq _).symm
  rw [hspelled, namedBy?]
  generalize trim name.toList = word
  split_ifs with hempty hroom
  · -- No entry has the empty name.
    subst hempty
    exact (spelled?_eq_none (by decide +kernel)).symm
  · rw [capitalsIn_eq hroom, Text.bytes_ofList, Text.map_byteCapital_encoded,
      Text.fromUTF8?_encoded, Option.bind_some]
  · rfl

/-! ### Indices by halving -/

/-- The entry that is left when the `size` entries from the place `base` on are halved until there
is one. The half that is kept starts with an entry whose index is not too large, if there is one. -/
def bisect (index : UInt16) (xs : List FunctionInfo) (base size : Nat) (hpos : 0 < size)
    (hfits : base + size ≤ xs.length) : FunctionInfo :=
  have hbase : base < xs.length := by omega
  have hmiddle : base + size / 2 < xs.length := by omega
  if hone : size = 1 then xs[base]
  else if index < xs[base + size / 2].index then
    bisect index xs base (size - size / 2) (by omega) (by omega)
  else bisect index xs (base + size / 2) (size - size / 2) (by omega) (by omega)
termination_by size

/-- The entry with this index, in a list that is in the order of its indices. -/
def bisected? (xs : List FunctionInfo) (index : UInt16) : Option FunctionInfo :=
  if hpos : 0 < xs.length then
    let info := bisect index xs 0 xs.length hpos (Nat.le_of_eq (Nat.zero_add _))
    if info.index = index then some info else none
  else none

theorem bisect_mem {index : UInt16} {base size : Nat} {hpos : 0 < size}
    {hfits : base + size ≤ xs.length} : bisect index xs base size hpos hfits ∈ xs := by
  fun_induction bisect index xs base size hpos hfits with
  | case1 => exact List.getElem_mem _
  | case2 _ _ _ _ _ _ _ _ ih => exact ih
  | case3 _ _ _ _ _ _ _ _ ih => exact ih

/-- In a list in the order of its indices, **halving never drops the entry with the index**. -/
theorem bisect_index (hsorted : xs.Pairwise (·.index < ·.index)) {place : Nat}
    (hplace : place < xs.length) {base size : Nat} {hpos : 0 < size}
    {hfits : base + size ≤ xs.length} (hlow : base ≤ place) (hhigh : place < base + size) :
    bisect xs[place].index xs base size hpos hfits = xs[place] := by
  have hlt := List.pairwise_iff_getElem.mp hsorted
  fun_induction bisect xs[place].index xs base size hpos hfits with
  | case1 base hpos hfits hbase hmiddle =>
    have hone : place = base := by omega
    subst hone
    rfl
  | case2 base size hpos hfits hbase hmiddle hone hless ih =>
    have hbefore : place < base + size / 2 := by
      refine Nat.lt_of_not_le fun hafter => ?_
      obtain hafter | hsame := Nat.lt_or_eq_of_le hafter
      · exact UInt16.lt_asymm hless (hlt _ _ hmiddle hplace hafter)
      · subst hsame
        exact UInt16.lt_irrefl _ hless
    exact ih hlow (by omega)
  | case3 base size hpos hfits hbase hmiddle hone hmore ih =>
    have hafter : base + size / 2 ≤ place := Nat.le_of_not_lt fun hbefore =>
      hmore (hlt _ _ hplace hmiddle hbefore)
    exact ih hafter (by omega)

/-- **Halving finds** the entry that has the index. -/
theorem bisected?_eq_some_iff (hsorted : xs.Pairwise (·.index < ·.index)) {index : UInt16} :
    bisected? xs index = some info ↔ info ∈ xs ∧ info.index = index := by
  rw [bisected?]
  split_ifs with hpos
  · constructor
    · intro h
      obtain ⟨hindex, hinfo⟩ := Option.ite_none_right_eq_some.mp h
      obtain rfl := Option.some.inj hinfo
      exact ⟨bisect_mem, hindex⟩
    · rintro ⟨hmem, rfl⟩
      obtain ⟨place, hplace, rfl⟩ := List.getElem_of_mem hmem
      rw [bisect_index hsorted hplace (Nat.zero_le _) (by rwa [Nat.zero_add])]
      exact if_pos rfl
  · have hempty : xs = [] := List.length_eq_zero_iff.mp (Nat.eq_zero_of_not_pos hpos)
    subst hempty
    simp

theorem bisected?_eq (index : UInt16) : bisected? catalogue index = functionAt? index :=
  Option.ext fun _ =>
    (bisected?_eq_some_iff pairwise_index_lt).trans functionAt?_eq_some_iff.symm

/-- **A name and an index find the one entry that has them.** By name, this is the entry whose name
is the text without white space at its ends and with its letters of ASCII in capitals, whether or
not the text fits into a buffer and is respelled there byte by byte. By index, it is the entry that
halving the catalogue leaves. Where there is no such entry nothing is found. -/
theorem lookups_find_entries :
    (∀ buffer name info, namedBy? buffer name = some info ↔
      info ∈ catalogue ∧ info.name = String.ofList (asciiCapital (trim name.toList))) ∧
    (∀ buffer name, functionNamed? name = namedBy? buffer name) ∧
    (∀ index info, bisected? catalogue index = some info ↔
      info ∈ catalogue ∧ info.index = index) ∧
    ∀ index, functionAt? index = bisected? catalogue index := by
  refine ⟨fun buffer name info => ?_, fun buffer name => (namedBy?_eq buffer name).symm,
    fun index info => bisected?_eq_some_iff pairwise_index_lt,
    fun index => (bisected?_eq index).symm⟩
  rw [namedBy?_eq]
  exact functionNamed?_eq_some_iff

end Worksheet

end CellFormula
