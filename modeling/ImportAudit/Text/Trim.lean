/-
# ImportAudit.Text.Trim — white space around and between words, and lines.

Beside the Unicode property `White_Space` the four information separators count as white space.
-/
import ImportAudit.Text.Blank

namespace ImportAudit.Text

/-- White space, or an information separator. -/
def isSpace (c : Char) : Bool := isWhiteSpace c || (0x1C ≤ c.toNat && c.toNat ≤ 0x1F)

/-- Characters without white space at the beginning. -/
def trimLeft (cs : List Char) : List Char := cs.dropWhile isSpace

/-- Characters without white space at the end. -/
def trimRight (cs : List Char) : List Char := (cs.reverse.dropWhile isSpace).reverse

/-- Characters without white space at either end. -/
def trim (cs : List Char) : List Char := trimRight (trimLeft cs)

/-- The words between white space, the first of which is under way. -/
def wordsFrom : List Char → List Char → List (List Char)
  | word, [] => if word = [] then [] else [word.reverse]
  | word, c :: cs =>
    if isSpace c then (if word = [] then [] else [word.reverse]) ++ wordsFrom [] cs
    else wordsFrom (c :: word) cs

/-- The words between white space. -/
def words (cs : List Char) : List (List Char) := wordsFrom [] cs

/-- A character that ends a line of a plain text. -/
def endsLine (c : Char) : Bool :=
  let n := c.toNat
  (0x0A ≤ n && n ≤ 0x0D) || (0x1C ≤ n && n ≤ 0x1E) || n == 0x85 || n == 0x2028 || n == 0x2029

/-- The lines of a plain text, without what ends them. -/
def plainLines : List Char → List (List Char)
  | [] => []
  | '\r' :: '\n' :: cs => [] :: plainLines cs
  | c :: cs =>
    if endsLine c then [] :: plainLines cs
    else
      match plainLines cs with
      | [] => [[c]]
      | l :: ls => (c :: l) :: ls

/-- Splits at every occurrence of `sep`; the pieces are at least one. -/
def splitOn (sep : Char) : List Char → List (List Char)
  | [] => [[]]
  | c :: cs =>
    match splitOn sep cs with
    | [] => [[c]]
    | piece :: pieces => if c = sep then [] :: piece :: pieces else (c :: piece) :: pieces

/-- A text lies somewhere within another one. -/
def occursIn (part : List Char) : List Char → Bool
  | [] => part.isEmpty
  | c :: cs => part.isPrefixOf (c :: cs) || occursIn part cs

end ImportAudit.Text
