/-
# ImportAudit.Proofs.Console.Table — a table with room shows its cells and its title.

A table takes the room that its widest cells need (`tableRoom`).  On a console that has that room no
column shrinks (`columnWidths_of_room`), so a cell of one line stands in one line of the table
(`infix_tableLines`), and so does the title if it fits over the table (`title_infix_tableLines`).
-/
import ImportAudit.Console.Table
import ImportAudit.Proofs.Console.Literal

namespace ImportAudit.Console

variable {width : Nat}

/-! ## Sums and greatest numbers -/

theorem foldl_add (n : Nat) (ns : List Nat) : ns.foldl (· + ·) n = n + total ns := by
  unfold total
  induction ns generalizing n with
  | nil => rfl
  | cons m ns ih =>
      rw [List.foldl_cons, List.foldl_cons, ih (n + m), ih (0 + m)]
      omega

theorem total_cons (n : Nat) (ns : List Nat) : total (n :: ns) = n + total ns := by
  show ns.foldl (· + ·) (0 + n) = n + total ns
  rw [foldl_add, Nat.zero_add]

theorem le_total {n : Nat} {ns : List Nat} (h : n ∈ ns) : n ≤ total ns := by
  induction ns with
  | nil => cases h
  | cons m ns ih =>
      rw [total_cons]
      rcases List.mem_cons.mp h with rfl | hmem
      · exact Nat.le_add_right _ _
      · exact (ih hmem).trans (Nat.le_add_left _ _)

theorem foldl_max (n : Nat) (ns : List Nat) : ns.foldl max n = max n (greatest ns) := by
  unfold greatest
  induction ns generalizing n with
  | nil => exact (Nat.max_zero n).symm
  | cons m ns ih =>
      rw [List.foldl_cons, List.foldl_cons, ih (max n m), ih (max 0 m)]
      omega

theorem greatest_cons (n : Nat) (ns : List Nat) : greatest (n :: ns) = max n (greatest ns) := by
  show ns.foldl max (max 0 n) = max n (greatest ns)
  rw [foldl_max, Nat.zero_max]

theorem le_greatest {n : Nat} {ns : List Nat} (h : n ∈ ns) : n ≤ greatest ns := by
  induction ns with
  | nil => cases h
  | cons m ns ih =>
      rw [greatest_cons]
      rcases List.mem_cons.mp h with rfl | hmem
      · exact Nat.le_max_left _ _
      · exact (ih hmem).trans (Nat.le_max_right _ _)

/-- What every number is raised by, the greatest is raised by. -/
theorem greatest_map_add (k : Nat) {ns : List Nat} (h : ns ≠ []) :
    greatest (ns.map (· + k)) = greatest ns + k := by
  induction ns with
  | nil => exact absurd rfl h
  | cons n ns ih =>
      rw [List.map_cons, greatest_cons, greatest_cons]
      cases ns with
      | nil => simp [greatest]
      | cons m ns =>
          rw [ih (List.cons_ne_nil m ns)]
          omega

/-! ## Widths -/

/-- The width that a column of cells needs. -/
def fullWidth (entries : List (List Char)) : Nat := greatest (entries.map longestLine) + 2

/-- The width that a table of columns needs, its borders among it. -/
def tableRoom (columns : List (Bool × List (List Char))) : Nat :=
  total (columns.map fun c => fullWidth c.2) + (columns.length + 1)

theorem columnWidth_of_room {limit : Nat} {entries : List (List Char)} (hne : entries ≠ [])
    (h : fullWidth entries ≤ limit) : columnWidth limit entries = fullWidth entries := by
  have hentries : ∀ e ∈ entries, longestLine e + 2 ≤ limit := by
    intro e he
    have := le_greatest (List.mem_map_of_mem (f := longestLine) he)
    unfold fullWidth at h
    omega
  have hwidths : entries.map (fun e => min limit (longestLine e) + 2) =
      (entries.map longestLine).map (· + 2) := by
    rw [List.map_map]
    refine List.map_congr_left fun e he => ?_
    have := hentries e he
    show min limit (longestLine e) + 2 = longestLine e + 2
    omega
  have hgreatest : greatest ((entries.map longestLine).map (· + 2)) = fullWidth entries :=
    greatest_map_add 2 (by simpa using hne)
  have htwo : 2 ≤ fullWidth entries := Nat.le_add_left _ _
  unfold columnWidth
  rw [hwidths, hgreatest]
  split
  · omega
  · split <;> omega

/-- On a console with room for the table no column shrinks. -/
theorem columnWidths_of_room {columns : List (Bool × List (List Char))}
    (hne : ∀ c ∈ columns, c.2 ≠ []) (h : tableRoom columns ≤ width) :
    columnWidths (width - (columns.length + 1)) columns =
      columns.map fun c => fullWidth c.2 := by
  have hlimit : total (columns.map fun c => fullWidth c.2) ≤ width - (columns.length + 1) := by
    unfold tableRoom at h
    omega
  have hwidths : columns.map (fun c => max 1 (columnWidth (width - (columns.length + 1)) c.2)) =
      columns.map fun c => fullWidth c.2 := by
    refine List.map_congr_left fun c hc => ?_
    have hle := le_total (List.mem_map_of_mem (f := fun c => fullWidth c.2) hc)
    rw [columnWidth_of_room (hne c hc) (hle.trans hlimit)]
    have htwo : 2 ≤ fullWidth c.2 := Nat.le_add_left _ _
    omega
  unfold columnWidths
  dsimp only
  rw [hwidths, if_pos hlimit]

/-! ## Cells -/

/-- The text has one line, which does not end in white space. -/
structure IsCell (cs : List Char) : Prop where
  oneLine : ∀ c ∈ cs, Text.endsLine c = false
  noTab : '\t' ∉ cs
  noTail : ∀ c, cs.getLast? = some c → Text.isSpace c = false

theorem IsCell.noFeed {cs : List Char} (h : IsCell cs) : '\n' ∉ cs := by
  intro hmem
  have := h.oneLine _ hmem
  cases this

theorem IsCell.fits {cs : List Char} (h : IsCell cs) (hcells : cells cs ≤ width) :
    FitsIn width cs := ⟨hcells, h.noTab, .inr h.noTail⟩

/-- A text of one line is a line of its own where lines are told apart. -/
theorem IsCell.longestLine {cs : List Char} (h : IsCell cs) : longestLine cs = cells cs := by
  have hplain : ∀ cs : List Char, (∀ c ∈ cs, Text.endsLine c = false) → cs ≠ [] →
      Text.plainLines cs = [cs] := by
    intro cs hcs hne
    induction cs with
    | nil => exact absurd rfl hne
    | cons c cs ih =>
        have hc := hcs c List.mem_cons_self
        have hrest := fun d hd => hcs d (List.mem_cons_of_mem c hd)
        rw [Text.plainLines.eq_def]
        split
        · next heq => cases heq
        · next heq =>
            cases heq
            cases hc
        · next heq =>
            cases heq
            rw [if_neg (by simp [hc])]
            cases cs with
            | nil => rfl
            | cons d ds => rw [ih hrest (List.cons_ne_nil d ds)]
  unfold Console.longestLine
  cases cs with
  | nil => rfl
  | cons c cs =>
      rw [hplain _ h.oneLine (List.cons_ne_nil c cs), List.map_singleton, greatest_cons]
      exact Nat.max_zero _

theorem IsCell.cells_le {cs : List Char} {entries : List (List Char)} (h : IsCell cs)
    (hmem : cs ∈ entries) : cells cs ≤ fullWidth entries - 2 := by
  have := le_greatest (List.mem_map_of_mem (f := Console.longestLine) hmem)
  rw [h.longestLine] at this
  unfold fullWidth
  omega

/-- A cell of one line in a column with room is one line, in which its text stands. -/
theorem IsCell.cellLines {cs : List Char} {entries : List (List Char)} (h : IsCell cs)
    (hmem : cs ∈ entries) :
    ∃ line, cellLines (fullWidth entries) true cs = [line] ∧ cs <:+: line := by
  have hcells := h.cells_le hmem
  have htwo : 2 ≤ fullWidth entries := Nat.le_add_left _ _
  have hinner := cells_fit_le hcells
  -- the padding takes one cell on either side
  have houter : cells (' ' :: fit (fullWidth entries - 2) cs ++ [' ']) ≤ fullWidth entries := by
    have hspaces := cellsAfter_append_spaces none (' ' :: fit (fullWidth entries - 2) cs) 1
    rw [cellsAfter_space, cellsAfter_some_space] at hspaces
    unfold cells at *
    simp only [List.replicate_one] at hspaces
    omega
  refine ⟨fit (fullWidth entries) (' ' :: fit (fullWidth entries - 2) cs ++ [' ']), ?_, ?_⟩
  · unfold Console.cellLines
    dsimp only
    rw [if_pos rfl, wrap_of_fits]
    · rw [splitOn_of_notMem h.noFeed]
      rfl
    · rw [splitOn_of_notMem h.noFeed]
      intro line hline
      rw [List.mem_singleton.mp hline]
      exact h.fits hcells
  · have hpadded : fit (fullWidth entries - 2) cs <:+:
        ' ' :: fit (fullWidth entries - 2) cs ++ [' '] := ⟨[' '], [' '], rfl⟩
    exact (infix_fit hcells).trans (hpadded.trans (infix_fit houter))

/-! ## Rows -/

theorem infix_intercalate {α : Type} {x : List α} {xs : List (List α)} (h : x ∈ xs)
    (sep : List α) : x <:+: sep.intercalate xs := by
  have hmem : x ∈ xs.intersperse sep := by
    induction xs with
    | nil => cases h
    | cons y ys ih =>
        cases ys with
        | nil => exact h
        | cons z zs =>
            rw [List.intersperse_cons_cons]
            rcases List.mem_cons.mp h with rfl | hrest
            · exact List.mem_cons_self
            · exact List.mem_cons_of_mem _ (List.mem_cons_of_mem _ (ih hrest))
  exact List.infix_of_mem_flatten hmem

/-- The first line of a row has the line of each cell that has one. -/
theorem infix_rowLines {row : List (Nat × Bool × List Char)} {c : Nat × Bool × List Char}
    {line : List Char} (hmem : c ∈ row) (hline : cellLines c.1 c.2.1 c.2.2 = [line]) :
    ∃ shown ∈ rowLines row, line <:+: shown := by
  have hblock := List.mem_map_of_mem (f := fun c => (c.1, cellLines c.1 c.2.1 c.2.2)) hmem
  rw [hline] at hblock
  unfold rowLines
  dsimp only
  generalize row.map (fun c => (c.1, cellLines c.1 c.2.1 c.2.2)) = blocks at hblock
  have hheight : 0 < greatest (blocks.map fun b => b.2.length) :=
    le_greatest (List.mem_map_of_mem (f := fun b => b.2.length) hblock)
  refine ⟨_, List.mem_map_of_mem (List.mem_range.mpr hheight), ?_⟩
  have hfirst := List.mem_map_of_mem
    (f := fun b : Nat × List (List Char) => b.2[0]?.getD (List.replicate b.1 ' ')) hblock
  obtain ⟨before, behind, heq⟩ := infix_intercalate hfirst ['│']
  refine ⟨'│' :: before, behind ++ ['│'], ?_⟩
  rw [← heq]
  simp

/-! ## Tables -/

variable {columns : List (Bool × List (List Char))}

/-- Every line of every row is a line of the table. -/
theorem mem_tableLines {row : List (List Char)} {line title : List Char}
    (hrow : row ∈ rowsOf (columns.map Prod.snd))
    (hline : line ∈ rowLines ((columnWidths (width - (columns.length + 1)) columns).zip
      ((columns.map Prod.fst).zip row))) :
    line ∈ tableLines width title columns := by
  have hmem := List.mem_map_of_mem (f := fun r =>
    rowLines ((columnWidths (width - (columns.length + 1)) columns).zip
      ((columns.map Prod.fst).zip r))) hrow
  unfold tableLines
  dsimp only
  generalize (rowsOf (columns.map Prod.snd)).map (fun r =>
    rowLines ((columnWidths (width - (columns.length + 1)) columns).zip
      ((columns.map Prod.fst).zip r))) = rows at hmem
  refine List.mem_append_left _ (List.mem_append_right _ ?_)
  cases rows with
  | nil => cases hmem
  | cons heading rows =>
      dsimp only
      rcases List.mem_cons.mp hmem with rfl | hrest
      · exact List.mem_append_left _ (List.mem_append_left _ hline)
      · exact List.mem_append_right _ (List.mem_flatten.mpr ⟨_, hrest, hline⟩)

/-- A cell of one line in a column that may be broken stands in a line of a table that has room. -/
theorem infix_tableLines {entries : List (List Char)} {cs title : List Char}
    (hroom : tableRoom columns ≤ width) (hne : ∀ c ∈ columns, c.2 ≠ [])
    (hcolumn : (true, entries) ∈ columns) (hmem : cs ∈ entries) (hcell : IsCell cs) :
    ∃ line ∈ tableLines width title columns, cs <:+: line := by
  obtain ⟨i, hi, hget⟩ := List.getElem_of_mem hmem
  have hrow : columns.map (fun c => c.2[i]?.getD []) ∈ rowsOf (columns.map Prod.snd) := by
    have hheight := le_greatest (List.mem_map_of_mem (f := List.length)
      (List.mem_map_of_mem (f := Prod.snd) hcolumn))
    unfold rowsOf
    dsimp only
    refine List.mem_map.mpr ⟨i, List.mem_range.mpr (Nat.lt_of_lt_of_le hi hheight), ?_⟩
    rw [List.map_map]
    rfl
  have hzip : (columnWidths (width - (columns.length + 1)) columns).zip
      ((columns.map Prod.fst).zip (columns.map fun c => c.2[i]?.getD [])) =
      columns.map fun c => (fullWidth c.2, c.1, c.2[i]?.getD []) := by
    rw [columnWidths_of_room hne hroom, List.zip_map', List.zip_map']
  have hcellRow : (fullWidth entries, true, cs) ∈
      columns.map fun c => (fullWidth c.2, c.1, c.2[i]?.getD []) := by
    refine List.mem_map.mpr ⟨_, hcolumn, ?_⟩
    rw [List.getElem?_eq_getElem hi, hget]
    rfl
  obtain ⟨line, hline, hshown⟩ := hcell.cellLines hmem
  obtain ⟨shown, hmemRow, hstands⟩ := infix_rowLines hcellRow hline
  refine ⟨shown, mem_tableLines hrow ?_, hshown.trans hstands⟩
  rwa [hzip]

/-- A title of one line that fits over its table stands in a line of its own. -/
theorem title_infix_tableLines {title : List Char} (hroom : tableRoom columns ≤ width)
    (hne : ∀ c ∈ columns, c.2 ≠ []) (hcell : IsCell title)
    (htitle : cells title ≤ tableRoom columns) :
    ∃ line ∈ tableLines width title columns, title <:+: line := by
  have houter : total (columnWidths (width - (columns.length + 1)) columns) +
      (columns.length + 1) = tableRoom columns := by
    rw [columnWidths_of_room hne hroom]
    rfl
  have hfits := hcell.fits htitle
  have hlines : wrap (tableRoom columns) .fold title = [title] := by
    rw [wrap_of_fits]
    · exact splitOn_of_notMem hcell.noFeed
    · rw [splitOn_of_notMem hcell.noFeed]
      intro line hline
      rwa [List.mem_singleton.mp hline]
  have htrim : Text.trimRight title = title := by
    unfold Text.trimRight
    have hlast := hcell.noTail
    rw [← List.head?_reverse] at hlast
    cases hrev : title.reverse with
    | nil => simpa using hrev
    | cons c rest =>
        rw [hrev] at hlast
        rw [List.dropWhile_cons, hlast c rfl]
        simp [← hrev]
  refine ⟨centre (tableRoom columns) title, ?_, ?_⟩
  · unfold tableLines
    dsimp only
    rw [houter, hlines]
    simp
  · unfold centre
    rw [htrim, hfits.crop]
    exact ⟨_, _, rfl⟩

/-! ## Printing -/

theorem infix_joinLines {line : List Char} {lines : List (List Char)} (h : line ∈ lines) :
    line <:+: (joinLines lines).toList := by
  unfold joinLines
  rw [String.toList_ofList, List.flatMap_def]
  have hline : line <:+: line ++ ['\n'] := (List.prefix_append _ _).isInfix
  exact hline.trans (List.infix_of_mem_flatten (List.mem_map_of_mem h))

/-- The characters of a column, its heading first. -/
def Column.characters (c : Column) : Bool × List (List Char) :=
  (c.breaks, (c.heading :: c.entries).map String.toList)

/-- The room that a table of columns needs whose texts are printed as they are. -/
def roomOf (columns : List Column) : Nat := tableRoom (columns.map Column.characters)

/-- The heading and the entries of a column are printed as they are. -/
def Column.IsLiteral (c : Column) : Prop :=
  ∀ text ∈ c.heading :: c.entries, isLiteral text.toList = true

theorem renderAll_of_isLiteral {texts : List String}
    (h : ∀ text ∈ texts, isLiteral text.toList = true) :
    renderAll texts = .ok (texts.map String.toList) := by
  induction texts with
  | nil => rfl
  | cons text texts ih =>
      rw [renderAll, render_of_isLiteral (h text List.mem_cons_self)]
      dsimp only
      rw [ih fun t ht => h t (List.mem_cons_of_mem text ht)]
      rfl

theorem renderColumns_of_isLiteral {columns : List Column} (h : ∀ c ∈ columns, c.IsLiteral) :
    renderColumns columns = .ok (columns.map Column.characters) := by
  induction columns with
  | nil => rfl
  | cons c columns ih =>
      rw [renderColumns, renderAll_of_isLiteral (h c List.mem_cons_self)]
      dsimp only
      rw [ih fun d hd => h d (List.mem_cons_of_mem c hd)]
      rfl

/-- A table of literal texts has no tags to be taken out, and no fault. -/
theorem table_of_isLiteral {title : String} {columns : List Column}
    (htitle : isLiteral title.toList = true) (h : ∀ c ∈ columns, c.IsLiteral) (width : Nat) :
    table width title columns =
      .ok (joinLines (tableLines width title.toList (columns.map Column.characters))) := by
  rw [table, renderColumns_of_isLiteral h]
  dsimp only
  rw [render_of_isLiteral htitle]

end ImportAudit.Console
