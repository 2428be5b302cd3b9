import CellFormula.Text.CaseTable
import CellFormula.Text.CodeRange

/-!
# Capital and small forms of a text

Texts are compared by their capital forms, and two worksheet functions write the forms out. A form
may be longer than the text it belongs to: the capital form of the German sharp s is two letters.

## The final sigma

One small form depends on the neighbours. A capital sigma is written in its final form when a cased
letter comes before it and none comes after it, marks that belong to a word being passed over in
both directions. `smallForm` therefore walks the text with the characters already passed in hand,
the nearest one first.

## Main definitions

* `capitalForm` — the text in capital letters
* `smallForm` — the text in small letters
* `asciiCapital` — capital letters for the 26 letters of ASCII and nothing else
-/

namespace CellFormula.Text

/-- The code points of the form of a character that the tables give, or its own. -/
def formOf (expansions : List (Nat × List Nat)) (runs : List CaseRun) (code : Nat) : List Nat :=
  match expansions.lookup code with
  | some codes => codes
  | none =>
    match runs.findSome? (CaseRun.shifted? · code) with
    | some other => [other]
    | none => [code]

/-- The capital form of one character. -/
def capitalOf (c : Char) : List Char :=
  if c.toNat < 0x80 then [c.toUpper]
  else (formOf capitalExpansions capitalRuns c.toNat).map Char.ofNat

/-- The small form of one character that does not depend on its neighbours. -/
def smallOf (c : Char) : List Char :=
  if c.toNat < 0x80 then [c.toLower]
  else (formOf smallExpansions smallRuns c.toNat).map Char.ofNat

/-- The text in capital letters. -/
def capitalForm (s : String) : String := String.ofList (s.toList.flatMap capitalOf)

/-- Past the marks that belong to a word, the next character is a cased letter. -/
def reachesCased (cs : List Char) : Bool :=
  match cs.dropWhile fun c => inRanges caseIgnorableRanges c.toNat with
  | c :: _ => inRanges casedRanges c.toNat
  | [] => false

/-- The small sigma that a capital sigma becomes between these characters, those before it with the
nearest one first. -/
def smallSigma (before after : List Char) : Char :=
  if reachesCased before && !reachesCased after then 'ς' else 'σ'

/-- The small forms of the characters that follow those of `before`. Both `before` and the forms
collected in `done` have their last character first. -/
def smallFormFrom (before done : List Char) : List Char → List Char
  | [] => done.reverse
  | c :: rest =>
    if c = 'Σ' then smallFormFrom (c :: before) (smallSigma before rest :: done) rest
    else smallFormFrom (c :: before) ((smallOf c).reverse ++ done) rest

/-- The text in small letters. -/
def smallForm (s : String) : String := String.ofList (smallFormFrom [] [] s.toList)

/-- The text with the letters of ASCII in capitals and every other character as it is. -/
def asciiCapital (cs : List Char) : List Char := cs.map Char.toUpper

/-- The two texts differ at most in the case of ASCII letters. -/
def sameButAsciiCase (a b : List Char) : Bool := asciiCapital a == asciiCapital b

end CellFormula.Text
