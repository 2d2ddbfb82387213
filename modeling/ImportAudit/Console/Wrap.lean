/-
# ImportAudit.Console.Wrap — breaking texts into lines.

A text breaks at line feeds, and where a word would not fit into the room that is left.  White
space behind a word belongs to it and may hang over the end of a line, where it is dropped.  A word
that fits into no line is folded, or cut with an ellipsis in its place.
-/
import ImportAudit.Console.Cells
import ImportAudit.Text.Trim

namespace ImportAudit.Console

/-- What becomes of a word that fits into no line. -/
inductive Overflow
  | fold
  | ellipsis
  deriving DecidableEq

/-! ## Tabs -/

/-- A line with its tabs filled up to the next multiple of eight cells; `column` cells lie before
it. -/
def expandTabsFrom : Nat → List Char → List Char
  | _, [] => []
  | column, c :: cs =>
    if c = '\t' then
      let spaces := 8 - column % 8
      List.replicate spaces ' ' ++ expandTabsFrom (column + spaces) cs
    else c :: expandTabsFrom (column + charCells c) cs

/-- A line with its tabs filled up to the next multiple of eight cells. -/
def expandTabs (cs : List Char) : List Char := expandTabsFrom 0 cs

/-! ## Words -/

/-- Splits a line into words, each with the white space behind it; the first one has the white
space before it too. -/
def wordsWithSpace : Nat → List Char → List (List Char)
  | 0, _ => []
  | _, [] => []
  | fuel + 1, cs =>
    let lead := cs.takeWhile Text.isSpace
    let rest := cs.dropWhile Text.isSpace
    let core := rest.takeWhile fun c => !Text.isSpace c
    let rest := rest.dropWhile fun c => !Text.isSpace c
    if core = [] then []
    else
      (lead ++ core ++ rest.takeWhile Text.isSpace) ::
        wordsWithSpace fuel (rest.dropWhile Text.isSpace)

/-- Puts words into lines: `used` cells of the line `line` are taken. -/
def fillLines (width : Nat) (overflow : Overflow) :
    Nat → List Char → List (List Char) → List (List Char)
  | _, line, [] => [line]
  | used, line, word :: words =>
    let core := cells (Text.trimRight word)
    if used + core ≤ width then
      fillLines width overflow (used + cells word) (line ++ word) words
    else if width < core then
      match overflow with
      | .fold =>
        match (chop width word).reverse with
        | [] => fillLines width overflow used line words
        | last :: full =>
          let done := full.reverse
          (if line = [] then done else line :: done) ++
            fillLines width overflow (cells last) last words
      | .ellipsis =>
        if line = [] then fillLines width overflow (cells word) word words
        else line :: fillLines width overflow (cells word) word words
    else if line = [] then fillLines width overflow (used + cells word) (line ++ word) words
    else line :: fillLines width overflow (cells word) word words

/-- A line without the white space at its end that lies beyond the width. -/
def dropOverhang (width : Nat) (cs : List Char) : List Char :=
  let blank := (cs.reverse.takeWhile Text.isSpace).length
  cs.take (cs.length - min blank (cs.length - width))

/-- A line cut to the width if it is longer. -/
def crop (width : Nat) (overflow : Overflow) (cs : List Char) : List Char :=
  if cells cs ≤ width then cs
  else
    match overflow with
    | .fold => fit width cs
    | .ellipsis => fit (width - 1) cs ++ ['…']

/-! ## Lines -/

/-- The lines of a text without line feeds. -/
def wrapLine (width : Nat) (overflow : Overflow) (cs : List Char) : List (List Char) :=
  let cs := expandTabs cs
  let words := wordsWithSpace (cs.length + 1) cs
  let lines := if words = [] then [cs] else fillLines width overflow 0 [] words
  lines.map fun l => crop width overflow (dropOverhang width l)

/-- The lines of a text that is not broken except at its line feeds. -/
def cutLine (width : Nat) (overflow : Overflow) (cs : List Char) : List Char :=
  crop width overflow (dropOverhang width (expandTabs cs))

/-- The lines of a text. -/
def wrap (width : Nat) (overflow : Overflow) (text : List Char) : List (List Char) :=
  (Text.splitOn '\n' text).flatMap (wrapLine width overflow)

/-- Lines as they are printed, each with a line feed. -/
def joinLines (lines : List (List Char)) : String :=
  String.ofList (lines.flatMap fun l => l ++ ['\n'])

/-- A line in the middle of the width: the left side gets the smaller half of what is left. -/
def centre (width : Nat) (cs : List Char) : List Char :=
  let cs := crop width .fold (Text.trimRight cs)
  let space := width - cells cs
  List.replicate (space / 2) ' ' ++ cs ++ List.replicate (space - space / 2) ' '

end ImportAudit.Console
