/-!
# Parts of a text, counted in characters

The worksheet functions that cut texts count characters, not bytes and not UTF-16 units. A count
past the end takes what there is.

## Main definitions

* `charCount` — how many characters a text has
* `firstChars`, `lastChars`, `charsFrom` — the start, the end and an inner part of a text
* `words`, `singleSpaced` — the parts between spaces, and the text with one space between them
-/

namespace CellFormula.Text

/-- The number of characters. -/
def charCount (s : String) : Nat := s.toList.length

/-- The first `n` characters. -/
def firstChars (n : Nat) (s : String) : String := String.ofList (s.toList.take n)

/-- The last `n` characters. -/
def lastChars (n : Nat) (s : String) : String :=
  String.ofList (s.toList.drop (charCount s - n))

/-- At most `count` characters after the first `skipped`. -/
def charsFrom (skipped count : Nat) (s : String) : String :=
  String.ofList ((s.toList.drop skipped).take count)

/-- The words so far when one more ends; between two spaces there is none. -/
def endWord (word : List Char) (done : List (List Char)) : List (List Char) :=
  if word.isEmpty then done else word.reverse :: done

/-- The words of the characters to come, after the one begun in `word` and those in `done`. Both
have their last entry first. -/
def wordsFrom (word : List Char) (done : List (List Char)) : List Char → List (List Char)
  | [] => (endWord word done).reverse
  | c :: cs =>
    if c = ' ' then wordsFrom [] (endWord word done) cs else wordsFrom (c :: word) done cs

/-- The non-empty parts between spaces. Only the space itself separates. -/
def words (cs : List Char) : List (List Char) := wordsFrom [] [] cs

/-- The words of a text with one space between any two. -/
def singleSpaced (s : String) : String := String.ofList ([' '].intercalate (words s.toList))

end CellFormula.Text
