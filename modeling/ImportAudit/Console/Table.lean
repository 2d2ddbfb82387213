/-
# ImportAudit.Console.Table — texts in columns.

A column is as wide as its widest cell and one space on either side.  If the table would be wider
than the console, the columns that may be broken shrink, the widest first and equal ones together;
if that is not enough all columns shrink evenly.  Words that do not fit into their column are cut.
The title stands centred over the table and is broken to its width.
-/
import ImportAudit.Console.Panel

namespace ImportAudit.Console

/-- A column: its heading, whether its cells may be broken, and the cells. -/
structure Column where
  heading : String
  breaks : Bool
  entries : List String

/-! ## Widths -/

/-- The quotient of two numbers, rounded to the nearest number and halves to the even one. -/
def nearest (n d : Nat) : Nat :=
  let q := n / d
  let r := n % d
  if 2 * r < d then q
  else if d < 2 * r then q + 1
  else if q % 2 = 0 then q else q + 1

/-- Takes `total` cells from the widths in equal shares, from those alone for which `share` holds;
`shares` of them are left, and no width gives more than `most`. -/
def takeShares (most : Nat → Nat) : Nat → Nat → List (Nat × Bool) → List Nat
  | _, _, [] => []
  | total, shares, (w, share) :: ws =>
    if share ∧ 0 < shares then
      let taken := min (most w) (nearest total shares)
      (w - taken) :: takeShares most (total - taken) (shares - 1) ws
    else w :: takeShares most total shares ws

/-- The sum of numbers. -/
def total (ns : List Nat) : Nat := ns.foldl (· + ·) 0

/-- The greatest of numbers. -/
def greatest (ns : List Nat) : Nat := ns.foldl max 0

/-- Shrinks the columns that may be broken until the widths fit into `limit` or cannot shrink any
more; `fuel` bounds the number of steps. -/
def collapse (limit : Nat) : Nat → List (Nat × Bool) → List (Nat × Bool)
  | 0, ws => ws
  | fuel + 1, ws =>
    let taken := total (ws.map Prod.fst)
    let free := (ws.filter Prod.snd).map Prod.fst
    let widest := greatest free
    let second := greatest (free.filter (· ≠ widest))
    if taken ≤ limit ∨ free = [] ∨ widest = second then ws
    else
      let excess := taken - limit
      let marked := ws.map fun w => (w.1, w.2 && w.1 == widest)
      let shares := (marked.filter Prod.snd).length
      let most := fun _ => min excess (widest - second)
      let shrunk := takeShares most excess shares marked
      collapse limit fuel (shrunk.zip (ws.map Prod.snd))

/-- Shrinks all columns evenly if their widths do not fit into `limit`. -/
def reduceAll (limit : Nat) (ws : List Nat) : List Nat :=
  if total ws ≤ limit then ws
  else
    let marked := ws.map fun w => (w, decide (0 < w))
    takeShares id (total ws - limit) (marked.filter Prod.snd).length marked

/-- The number of cells of the longest line of a text. -/
def longestLine (cs : List Char) : Nat := greatest ((Text.plainLines cs).map cells)

/-- The width of a column with these cells, at most `limit`. -/
def columnWidth (limit : Nat) (entries : List (List Char)) : Nat :=
  if limit < 1 then 0
  else if limit ≤ 2 then limit
  else min limit (greatest (entries.map fun e => min limit (longestLine e) + 2))

/-- The widths of columns in a table of which `limit` cells are for the columns. -/
def columnWidths (limit : Nat) (columns : List (Bool × List (List Char))) : List Nat :=
  let widths := columns.map fun c => max 1 (columnWidth limit c.2)
  if total widths ≤ limit then widths
  else
    let shrunk := collapse limit (2 * widths.length + 1) (widths.zip (columns.map Prod.fst))
    let reduced := reduceAll limit (shrunk.map Prod.fst)
    (reduced.zip columns).map fun wc => columnWidth wc.1 wc.2.2

/-! ## Rows -/

/-- The lines of a cell in a column of the given width. -/
def cellLines (width : Nat) (breaks : Bool) (text : List Char) : List (List Char) :=
  let inner := width - 2
  let lines :=
    if breaks then wrap inner .ellipsis text
    else (Text.splitOn '\n' text).map (cutLine inner .ellipsis)
  lines.map fun l => fit width (' ' :: fit inner l ++ [' '])

/-- The lines of a row of cells. -/
def rowLines (cellsOfRow : List (Nat × Bool × List Char)) : List (List Char) :=
  let blocks := cellsOfRow.map fun c => (c.1, cellLines c.1 c.2.1 c.2.2)
  let height := greatest (blocks.map fun b => b.2.length)
  (List.range height).map fun i =>
    '│' :: ['│'].intercalate
      (blocks.map fun b => b.2[i]?.getD (List.replicate b.1 ' ')) ++ ['│']

/-- A line across the columns. -/
def crossLine (left middle right : Char) (widths : List Nat) : List Char :=
  left :: [middle].intercalate (widths.map rule) ++ [right]

/-- The rows that columns of equal length make. -/
def rowsOf (columns : List (List (List Char))) : List (List (List Char)) :=
  let height := greatest (columns.map List.length)
  (List.range height).map fun i => columns.map fun column => column[i]?.getD []

/-- The lines of a table with its title. -/
def tableLines (width : Nat) (title : List Char) (columns : List (Bool × List (List Char))) :
    List (List Char) :=
  let borders := columns.length + 1
  let widths := columnWidths (width - borders) columns
  let breaks := columns.map Prod.fst
  let rows := (rowsOf (columns.map Prod.snd)).map fun r =>
    rowLines (widths.zip (breaks.zip r))
  let outer := total widths + borders
  (wrap outer .fold title).map (centre outer) ++
    [crossLine '╭' '┬' '╮' widths] ++
    (match rows with
      | [] => []
      | heading :: rows => heading ++ [crossLine '├' '┼' '┤' widths] ++ rows.flatten) ++
    [crossLine '╰' '┴' '╯' widths]

/-- Texts without their tags. -/
def renderAll : List String → Except Fault (List (List Char))
  | [] => .ok []
  | s :: ss =>
    match render s with
    | .error e => .error e
    | .ok cs =>
      match renderAll ss with
      | .error e => .error e
      | .ok rest => .ok (cs :: rest)

/-- The columns of a table with their headings, without tags. -/
def renderColumns : List Column → Except Fault (List (Bool × List (List Char)))
  | [] => .ok []
  | c :: cs =>
    match renderAll (c.heading :: c.entries) with
    | .error e => .error e
    | .ok entries =>
      match renderColumns cs with
      | .error e => .error e
      | .ok rest => .ok ((c.breaks, entries) :: rest)

/-- A table under a title. -/
def table (width : Nat) (title : String) (columns : List Column) : Except Fault String :=
  match renderColumns columns with
  | .error e => .error e
  | .ok columns =>
    match render title with
    | .error e => .error e
    | .ok title => .ok (joinLines (tableLines width title columns))

end ImportAudit.Console
