/-
# ImportAudit.Proofs.Report.Listing — a listing shows what was found, word for word.

Texts of a result go to the console as they are, which takes tags out of them.  A result all of whose
texts are literal is printed without a fault on a console of any width, and where nothing has to be
broken the listing has each file name, package and message, each error and each warning as it is
(`listing_shows`).  A paragraph shows its item (`paragraph_item`), a table its cells and its title
(`fileTable_shows`), and every finding is in the table of its file (`grouped_byFile`).
-/
import ImportAudit.Proofs.Console.Table
import ImportAudit.Proofs.Report.Groups
import ImportAudit.Report.Listing

namespace ImportAudit

open Console

/-! ## Groups -/

namespace CheckResult

/-- A finding is in a group of a name. -/
def Grouped (gs : List (String × List Finding)) (name : String) (f : Finding) : Prop :=
  ∃ g ∈ gs, g.1 = name ∧ f ∈ g.2

/-- A finding is in the group of its file and in no other. -/
theorem grouped_byFile (r : CheckResult) (name : String) (f : Finding) :
    Grouped r.byFile name f ↔ f ∈ r.findings ∧ f.fileName = name := by
  rw [Grouped, byFile_eq_grouped]
  constructor
  · rintro ⟨g, hg, hname, hf⟩
    obtain ⟨n, -, rfl⟩ := List.mem_map.mp hg
    exact hname ▸ mem_findingsIn.mp hf
  · rintro ⟨hf, rfl⟩
    have hname : f.fileName ∈ fileNames r.findings := mem_fileNames.mpr ⟨f, hf, rfl⟩
    exact ⟨_, List.mem_map_of_mem hname, rfl, mem_findingsIn.mpr ⟨hf, rfl⟩⟩

theorem nonempty_byFile (r : CheckResult) : ∀ g ∈ r.byFile, g.2 ≠ [] := by
  intro g hg
  rw [byFile_eq_grouped] at hg
  obtain ⟨name, hname, rfl⟩ := List.mem_map.mp hg
  obtain ⟨f, hf⟩ := mem_fileNames.mp hname
  exact List.ne_nil_of_mem (mem_findingsIn.mpr hf)

/-- A group has a name that is the file name of a finding. -/
theorem exists_of_mem_byFile {r : CheckResult} {g : String × List Finding} (h : g ∈ r.byFile) :
    ∃ f ∈ r.findings, f.fileName = g.1 := by
  obtain ⟨f, hf⟩ := List.exists_mem_of_ne_nil _ (r.nonempty_byFile g h)
  exact ⟨f, (r.grouped_byFile g.1 f).mp ⟨g, h, rfl, hf⟩⟩

end CheckResult

namespace Console

/-! ## Texts that are shown -/

/-- A name stands between two colons, which a console may take for that of a picture. -/
def hasCode : List Char → Bool
  | [] => false
  | c :: cs =>
    (c == ':' && (cs.dropWhile fun d => !(Text.isSpace d || d == ':')).head? == some ':') ||
      hasCode cs

/-- The text is shown as it is where it has room: it has no markup, no tabs and no names of
pictures. -/
structure IsShown (text : String) : Prop where
  literal : isLiteral text.toList = true
  noTab : '\t' ∉ text.toList
  noCode : hasCode text.toList = false

/-- The text is shown as it is in a table, too: it has one line, which does not end in white
space. -/
structure IsEntry (text : String) : Prop extends IsShown text where
  oneLine : ∀ c ∈ text.toList, Text.endsLine c = false
  noTail : ∀ c ∈ text.toList.getLast?, Text.isSpace c = false

instance (text : String) : Decidable (IsShown text) :=
  decidable_of_iff (isLiteral text.toList = true ∧ '\t' ∉ text.toList ∧
      hasCode text.toList = false)
    ⟨fun h => ⟨h.1, h.2.1, h.2.2⟩, fun h => ⟨h.literal, h.noTab, h.noCode⟩⟩

instance (text : String) : Decidable (IsEntry text) :=
  decidable_of_iff (IsShown text ∧ (text.toList.all fun c => !Text.endsLine c) = true ∧
      (text.toList.getLast?.all fun c => !Text.isSpace c) = true) <| by
    rw [List.all_eq_true, Option.all_eq_true]
    simp only [Bool.not_eq_true']
    exact ⟨fun h => ⟨h.1, h.2.1, h.2.2⟩, fun h => ⟨h.toIsShown, h.oneLine, h.noTail⟩⟩

theorem IsEntry.isCell {text : String} (h : IsEntry text) : IsCell text.toList :=
  ⟨h.oneLine, h.noTab, h.noTail⟩

/-! ## Numbers -/

theorem isPlain_of_isDigit {c : Char} (h : c.isDigit = true) : isPlain c = true := by
  have hrange : 48 ≤ c.toNat ∧ c.toNat ≤ 57 := by
    simpa [Char.isDigit, UInt32.le_iff_toNat_le] using h
  have hcontrol : isControl c = false := by
    simp only [isControl, Bool.or_eq_false_iff, beq_eq_false_iff_ne]
    omega
  have hne : c ≠ '[' ∧ c ≠ '\\' := by
    constructor <;> (rintro rfl; cases h)
  simp [isPlain, hcontrol, hne]

theorem isPlain_nat (n : Nat) : (toString n).toList.all isPlain = true := by
  rw [List.all_eq_true, Nat.toString_eq_repr, Nat.toList_repr]
  intro c hc
  exact isPlain_of_isDigit (Nat.isDigit_of_mem_toDigits (by omega) (by omega) hc)

theorem isPlain_int (i : Int) : (toString i).toList.all isPlain = true := by
  rw [Int.toString_eq_repr, Int.repr_eq_if]
  split
  · rw [← Nat.toString_eq_repr]
    exact isPlain_nat _
  · rw [String.toList_append, List.all_append, Bool.and_eq_true, ← Nat.toString_eq_repr]
    exact ⟨by decide, isPlain_nat _⟩

/-! ## Blocks -/

theorem printAll_of_ok {blocks : List (Except Fault String)}
    (h : ∀ b ∈ blocks, ∃ text, b = .ok text) : (printAll blocks).2 = none := by
  induction blocks with
  | nil => rfl
  | cons b blocks ih =>
      obtain ⟨text, rfl⟩ := h b List.mem_cons_self
      exact ih fun c hc => h c (List.mem_cons_of_mem _ hc)

/-- What a block prints is printed, unless one before it cannot be. -/
theorem infix_printAll {blocks : List (Except Fault String)} {shown : List Char} {text : String}
    (h : ∀ b ∈ blocks, ∃ text, b = .ok text) (hmem : .ok text ∈ blocks)
    (hshown : shown <:+: text.toList) : shown <:+: (printAll blocks).1.toList := by
  induction blocks with
  | nil => cases hmem
  | cons b blocks ih =>
      obtain ⟨front, rfl⟩ := h b List.mem_cons_self
      have hall : (printAll (.ok front :: blocks)).1.toList =
          front.toList ++ (printAll blocks).1.toList := String.toList_append
      rw [hall]
      rcases List.mem_cons.mp hmem with heq | hrest
      · obtain rfl := Except.ok.inj heq
        exact hshown.trans (List.prefix_append _ _).isInfix
      · have hlater := ih (fun c hc => h c (List.mem_cons_of_mem _ hc)) hrest
        exact hlater.trans (List.suffix_append _ _).isInfix

/-! ## Paragraphs -/

/-- The room that the lines of a text need, in cells and in characters. -/
def lineRoom (text : List Char) : Nat :=
  greatest ((Text.splitOn '\n' text).map fun line => max (cells line) line.length)

/-- A line needs no more than two cells for each of its characters. -/
theorem lineRoom_le {text : List Char} (h : '\n' ∉ text) : lineRoom text ≤ 2 * text.length := by
  have hcells := cells_le text
  rw [lineRoom, splitOn_of_notMem h, List.map_singleton]
  show max 0 (max (cells text) text.length) ≤ _
  omega

theorem mem_of_mem_splitOn {sep c : Char} {text line : List Char}
    (hline : line ∈ Text.splitOn sep text) (hc : c ∈ line) : c ∈ text := by
  induction text generalizing line with
  | nil =>
      rw [List.mem_singleton.mp hline] at hc
      cases hc
  | cons d ds ih =>
      rw [Text.splitOn] at hline
      cases hpieces : Text.splitOn sep ds with
      | nil => exact absurd hpieces (splitOn_ne_nil _ _)
      | cons piece pieces =>
          rw [hpieces] at hline ih
          dsimp only at hline
          split at hline
          · rcases List.mem_cons.mp hline with rfl | hrest
            · cases hc
            · exact List.mem_cons_of_mem _ (ih hrest hc)
          · rcases List.mem_cons.mp hline with rfl | hrest
            · rcases List.mem_cons.mp hc with rfl | hpiece
              · exact List.mem_cons_self
              · exact List.mem_cons_of_mem _ (ih List.mem_cons_self hpiece)
            · exact List.mem_cons_of_mem _ (ih (List.mem_cons_of_mem _ hrest) hc)

theorem fits_of_lineRoom {width : Nat} {text : List Char} (htab : '\t' ∉ text)
    (h : lineRoom text ≤ width) : ∀ line ∈ Text.splitOn '\n' text, FitsIn width line := by
  intro line hline
  have hroom := (le_greatest (List.mem_map_of_mem
    (f := fun line => max (cells line) line.length) hline)).trans h
  refine ⟨(Nat.le_max_left _ _).trans hroom, fun hmem => htab (mem_of_mem_splitOn hline hmem), ?_⟩
  exact .inl ((Nat.le_max_right _ _).trans hroom)

end Console

namespace Report

variable {r : CheckResult} {width : Nat} {verbose : Bool}

/-! ## Items -/

/-- An item as it stands in its paragraph. -/
def bullet (item : String) : String := "   • " ++ item

theorem isLiteral_bullet {item : String} (h : IsShown item) :
    isLiteral (bullet item).toList = true := by
  rw [bullet, String.toList_append, isLiteral_append (by decide +kernel)]
  exact h.literal

/-- An item is shown where its lines have room. -/
theorem paragraph_item {item : String} (h : IsShown item)
    (hroom : lineRoom (bullet item).toList ≤ width) :
    paragraph width (bullet item) = .ok (bullet item ++ "\n") := by
  refine paragraph_of_fits (isLiteral_bullet h) (fits_of_lineRoom ?_ hroom)
  rw [bullet, String.toList_append, List.mem_append]
  rintro (hfront | hitem)
  · exact absurd hfront (by decide +kernel)
  · exact h.noTab hitem

theorem infix_bullet (item : String) : item.toList <:+: (bullet item ++ "\n").toList := by
  rw [String.toList_append, bullet, String.toList_append]
  exact ⟨_, _, rfl⟩

/-! ## Tables -/

/-- The columns of the table of a file. -/
def fileColumns (findings : List Finding) : List Column :=
  [⟨"Location", false, findings.map fun f => toString f.line ++ ":" ++ toString f.column⟩,
    ⟨"Package", true, findings.map Finding.package⟩,
    ⟨"Message", true, findings.map Finding.message⟩]

/-- The title of the table of a file. -/
def fileTitle (fileName : String) : String := "📁 " ++ fileName

theorem fileTable_eq (width : Nat) (fileName : String) (findings : List Finding) :
    fileTable width fileName findings =
      table width (fileTitle fileName) (fileColumns findings) := rfl

theorem isLiteral_fileTitle {fileName : String} (h : IsShown fileName) :
    isLiteral (fileTitle fileName).toList = true := by
  rw [fileTitle, String.toList_append, isLiteral_append (by decide +kernel)]
  exact h.literal

theorem isCell_fileTitle {fileName : String} (h : IsEntry fileName) (hne : fileName.toList ≠ []) :
    IsCell (fileTitle fileName).toList := by
  rw [fileTitle, String.toList_append]
  refine ⟨?_, ?_, ?_⟩
  · intro c hc
    rcases List.mem_append.mp hc with hfront | hname
    · have hall : ("📁 ".toList.all fun c => !Text.endsLine c) = true := by decide +kernel
      simpa using List.all_eq_true.mp hall c hfront
    · exact h.oneLine c hname
  · rw [List.mem_append]
    rintro (hfront | hname)
    · exact absurd hfront (by decide +kernel)
    · exact h.noTab hname
  · intro c hc
    rw [List.getLast?_append_of_ne_nil _ hne] at hc
    exact h.noTail c hc

/-- The texts of the findings of a file are shown as they are in its table. -/
structure AreEntries (findings : List Finding) : Prop where
  package : ∀ f ∈ findings, IsEntry f.package
  message : ∀ f ∈ findings, IsEntry f.message

variable {findings : List Finding}

theorem AreEntries.isLiteral (h : AreEntries findings) :
    ∀ c ∈ fileColumns findings, c.IsLiteral := by
  have htexts : ∀ {text : Finding → String}, (∀ f ∈ findings, IsEntry (text f)) →
      ∀ t ∈ findings.map text, Console.isLiteral t.toList = true := by
    intro text htext t ht
    obtain ⟨f, hf, rfl⟩ := List.mem_map.mp ht
    exact (htext f hf).literal
  have hplaces : ∀ t ∈ findings.map (fun f => toString f.line ++ ":" ++ toString f.column),
      Console.isLiteral t.toList = true := by
    intro t ht
    obtain ⟨f, -, rfl⟩ := List.mem_map.mp ht
    have hcolon : ":".toList.all isPlain = true := by decide
    simp only [String.toList_append, List.append_assoc]
    rw [isLiteral_append (isPlain_int _), isLiteral_append hcolon,
      isLiteral_of_isPlain (isPlain_int _)]
  intro c hc text htext
  simp only [fileColumns, List.mem_cons, List.not_mem_nil, or_false] at hc
  rcases hc with rfl | rfl | rfl
  · rcases List.mem_cons.mp htext with rfl | hentry
    · show Console.isLiteral "Location".toList = true
      decide +kernel
    · exact hplaces text hentry
  · rcases List.mem_cons.mp htext with rfl | hentry
    · show Console.isLiteral "Package".toList = true
      decide +kernel
    · exact htexts h.package text hentry
  · rcases List.mem_cons.mp htext with rfl | hentry
    · show Console.isLiteral "Message".toList = true
      decide +kernel
    · exact htexts h.message text hentry

/-- The lines of the table of a file. -/
def fileLines (width : Nat) (fileName : String) (findings : List Finding) : List (List Char) :=
  tableLines width (fileTitle fileName).toList ((fileColumns findings).map Column.characters)

theorem fileTable_of_entries {fileName : String} (hname : IsShown fileName)
    (h : AreEntries findings) (width : Nat) :
    fileTable width fileName findings = .ok (joinLines (fileLines width fileName findings)) := by
  rw [fileTable_eq]
  exact table_of_isLiteral (isLiteral_fileTitle hname) h.isLiteral width

theorem characters_ne_nil : ∀ c ∈ (fileColumns findings).map Column.characters, c.2 ≠ [] := by
  intro c hc
  obtain ⟨d, -, rfl⟩ := List.mem_map.mp hc
  exact List.cons_ne_nil _ _

/-- A table that has room shows the packages and messages of its findings. -/
theorem fileTable_shows (hroom : roomOf (fileColumns findings) ≤ width) (fileName : String)
    {f : Finding} (hf : f ∈ findings) {text : String}
    (htext : text = f.package ∨ text = f.message) (hentry : IsEntry text) :
    text.toList <:+: (joinLines (fileLines width fileName findings)).toList := by
  have hcolumn : ∃ entries, (true, entries) ∈ (fileColumns findings).map Column.characters ∧
      text.toList ∈ entries := by
    rcases htext with rfl | rfl
    · exact ⟨_, List.mem_map.mpr ⟨_, List.mem_cons_of_mem _ List.mem_cons_self, rfl⟩,
        List.mem_cons_of_mem _ (List.mem_map_of_mem (List.mem_map_of_mem hf))⟩
    · exact ⟨_, List.mem_map.mpr ⟨_, List.mem_cons_of_mem _ (List.mem_cons_of_mem _
        List.mem_cons_self), rfl⟩, List.mem_cons_of_mem _ (List.mem_map_of_mem
        (List.mem_map_of_mem hf))⟩
  obtain ⟨entries, hentries, hmem⟩ := hcolumn
  obtain ⟨line, hline, hstands⟩ :=
    infix_tableLines hroom characters_ne_nil hentries hmem hentry.isCell
  exact hstands.trans (infix_joinLines hline)

/-- A table that has room shows the name of its file over it, if that fits. -/
theorem fileTable_shows_name (hroom : roomOf (fileColumns findings) ≤ width) {fileName : String}
    (hname : IsEntry fileName)
    (htitle : cells (fileTitle fileName).toList ≤ roomOf (fileColumns findings)) :
    fileName.toList <:+: (joinLines (fileLines width fileName findings)).toList := by
  by_cases hne : fileName.toList = []
  · rw [hne]
    exact List.nil_infix
  · obtain ⟨line, hline, hstands⟩ := title_infix_tableLines hroom characters_ne_nil
      (isCell_fileTitle hname hne) htitle
    have htitle : fileName.toList <:+: (fileTitle fileName).toList := by
      rw [fileTitle, String.toList_append]
      exact (List.suffix_append _ _).isInfix
    exact htitle.trans (hstands.trans (infix_joinLines hline))

/-! ## Listings -/

/-- The texts of a result are shown as they are: those of its findings in tables, its errors and
warnings in paragraphs, and the list of packages if that is asked for. -/
structure IsPrintable (verbose : Bool) (r : CheckResult) : Prop where
  fileName : ∀ f ∈ r.findings, IsEntry f.fileName
  package : ∀ f ∈ r.findings, IsEntry f.package
  message : ∀ f ∈ r.findings, IsEntry f.message
  error : ∀ e ∈ r.errors, IsShown e
  warning : ∀ w ∈ r.warnings, IsShown w
  listed : verbose = true → isLiteral (", ".intercalate (packages r)).toList = true

/-- On a console of a width nothing has to be broken: the items and the tables have room, and the
title of each table fits over it. -/
structure HasRoom (width : Nat) (r : CheckResult) : Prop where
  items : ∀ item ∈ r.errors ++ r.warnings, lineRoom (bullet item).toList ≤ width
  tables : ∀ g ∈ r.byFile, roomOf (fileColumns g.2) ≤ width
  titles : ∀ g ∈ r.byFile, cells (fileTitle g.1).toList ≤ roomOf (fileColumns g.2)

theorem IsPrintable.areEntries (h : IsPrintable verbose r) {g : String × List Finding}
    (hg : g ∈ r.byFile) : AreEntries g.2 := by
  have hfindings : ∀ f ∈ g.2, f ∈ r.findings := by
    intro f hf
    exact ((r.grouped_byFile g.1 f).mp ⟨g, hg, rfl, hf⟩).1
  exact ⟨fun f hf => h.package f (hfindings f hf), fun f hf => h.message f (hfindings f hf)⟩

theorem IsPrintable.name (h : IsPrintable verbose r) {g : String × List Finding}
    (hg : g ∈ r.byFile) : IsEntry g.1 := by
  obtain ⟨f, hf, hname⟩ := CheckResult.exists_of_mem_byFile hg
  rw [← hname]
  exact h.fileName f hf

theorem itemized_ok {heading : String} {items : List String}
    (hheading : isLiteral heading.toList = true) (h : ∀ i ∈ items, IsShown i) :
    ∀ b ∈ itemized width heading items, ∃ text, b = .ok text := by
  intro b hb
  unfold itemized at hb
  split at hb
  · cases hb
  · rcases List.mem_append.mp hb with hparagraphs | hlast
    · rcases List.mem_cons.mp hparagraphs with rfl | hitem
      · exact ⟨_, paragraph_of_isLiteral hheading width⟩
      · obtain ⟨i, hi, rfl⟩ := List.mem_map.mp hitem
        exact ⟨_, paragraph_of_isLiteral (isLiteral_bullet (h i hi)) width⟩
    · exact ⟨_, List.mem_singleton.mp hlast⟩

theorem mem_itemized {heading item : String} {items : List String} (h : item ∈ items) :
    paragraph width (bullet item) ∈ itemized width heading items := by
  unfold itemized
  rw [if_neg (List.ne_nil_of_mem h)]
  refine List.mem_append_left _ (List.mem_cons_of_mem _ ?_)
  exact List.mem_map_of_mem (f := fun i => paragraph width (bullet i)) h

/-- The line that sums up so many findings in so many files. -/
def summary (findings files : Nat) : String :=
  "⚠️  " ++ toString findings ++ " implicit dependenc" ++ (if findings = 1 then "y" else "ies") ++
    " in " ++ toString files ++ " file(s)"

/-- The words of the line that sums up, in either number. -/
def summaryWords : String := "⚠️  implicit dependency dependencies in file(s)"

/-- What is so of digits and of the words is so of all that stands in the line that sums up. -/
theorem all_summary {p : Char → Bool} (hdigit : ∀ c, c.isDigit = true → p c = true)
    (hwords : summaryWords.toList.all p = true) (findings files : Nat) :
    (summary findings files).toList.all p = true := by
  have hnat : ∀ n : Nat, (toString n).toList.all p = true := by
    intro n
    rw [List.all_eq_true, Nat.toString_eq_repr, Nat.toList_repr]
    intro c hc
    exact hdigit c (Nat.isDigit_of_mem_toDigits (by omega) (by omega) hc)
  have hword : ∀ text : String, (text.toList.all fun c => summaryWords.toList.contains c) = true →
      text.toList.all p = true := by
    intro text htext
    rw [List.all_eq_true] at htext hwords ⊢
    exact fun c hc => hwords c (by simpa using htext c hc)
  have hplural : (if findings = 1 then "y" else "ies").toList.all p = true := by
    split <;> exact hword _ (by decide +kernel)
  simp only [summary, String.toList_append, List.all_append, Bool.and_eq_true]
  exact ⟨⟨⟨⟨⟨⟨hword _ (by decide +kernel), hnat findings⟩, hword _ (by decide +kernel)⟩, hplural⟩,
    hword _ (by decide +kernel)⟩, hnat files⟩, hword _ (by decide +kernel)⟩

theorem isLiteral_summary (findings files : Nat) :
    isLiteral (summary findings files).toList = true :=
  isLiteral_of_isPlain (all_summary (fun _ => isPlain_of_isDigit) (by decide +kernel) _ _)

/-- The line that sums up is printed as it is where it has room. -/
theorem paragraph_summary {findings files : Nat}
    (hroom : lineRoom (summary findings files).toList ≤ width) :
    paragraph width (summary findings files) = .ok (summary findings files ++ "\n") := by
  have htab : (summary findings files).toList.all (fun c => c != '\t') = true := by
    refine all_summary (fun c hc => ?_) (by decide +kernel) _ _
    rw [bne_iff_ne]
    rintro rfl
    cases hc
  refine paragraph_of_fits (isLiteral_summary findings files) (fits_of_lineRoom ?_ hroom)
  intro hmem
  exact absurd (List.all_eq_true.mp htab _ hmem) (by decide)

theorem footer_ok (h : IsPrintable verbose r) :
    ∀ b ∈ footer width verbose r, ∃ text, b = .ok text := by
  intro b hb
  unfold footer at hb
  split at hb
  · rcases List.mem_cons.mp hb with rfl | hlist
    · exact ⟨_, paragraph_of_isLiteral (isLiteral_summary _ _) width⟩
    · split at hlist
      · next hverbose =>
          rw [List.mem_singleton.mp hlist]
          refine ⟨_, paragraph_of_isLiteral ?_ width⟩
          rw [String.toList_append, isLiteral_append (by decide +kernel)]
          exact h.listed hverbose
      · cases hlist
  · rw [List.mem_singleton.mp hb]
    exact ⟨_, paragraph_of_isLiteral (by decide +kernel) width⟩

/-- The heading has tags in its title, all of them closed. -/
theorem heading_ok (width : Nat) (n : Int) :
    ∃ text, panel width "[bold blue]no-implicit-dependencies[/bold blue]"
      ("🔍 Checked " ++ toString n ++ " file(s)") = .ok text := by
  have htitle : (render "[bold blue]no-implicit-dependencies[/bold blue]").isOk = true := by
    decide +kernel
  have hcount : isLiteral ("🔍 Checked " ++ toString n ++ " file(s)").toList = true := by
    have hchecked : "🔍 Checked ".toList.all isPlain = true := by decide +kernel
    have hfiles : " file(s)".toList.all isPlain = true := by decide +kernel
    simp only [String.toList_append, List.append_assoc]
    rw [isLiteral_append hchecked, isLiteral_append (isPlain_int n), isLiteral_of_isPlain hfiles]
  unfold panel
  cases hrender : render "[bold blue]no-implicit-dependencies[/bold blue]" with
  | error f =>
      rw [hrender] at htitle
      cases htitle
  | ok title =>
      rw [render_of_isLiteral hcount]
      exact ⟨_, rfl⟩

/-- No block of a listing is a fault. -/
theorem listing_ok (h : IsPrintable verbose r) (width : Nat) :
    ∀ b ∈ listing width verbose r, ∃ text, b = .ok text := by
  intro b hb
  simp only [listing, List.cons_append, List.mem_cons, List.mem_append] at hb
  rcases hb with rfl | rfl | ((herrors | hwarnings) | htables) | hfooter
  · exact ⟨_, rfl⟩
  · exact heading_ok width _
  · exact itemized_ok (by decide +kernel) h.error b herrors
  · exact itemized_ok (by decide +kernel) h.warning b hwarnings
  · obtain ⟨g, hg, rfl⟩ := List.mem_map.mp htables
    exact ⟨_, fileTable_of_entries (h.name hg).toIsShown (h.areEntries hg) width⟩
  · exact footer_ok h b hfooter

/-- Every console that is wide enough has room, if the titles fit over their tables. -/
theorem exists_hasRoom
    (htitles : ∀ g ∈ r.byFile, cells (fileTitle g.1).toList ≤ roomOf (fileColumns g.2)) :
    ∃ enough, ∀ width, enough ≤ width → HasRoom width r := by
  let items := (r.errors ++ r.warnings).map fun item => lineRoom (bullet item).toList
  let tables := r.byFile.map fun g => roomOf (fileColumns g.2)
  refine ⟨max (greatest items) (greatest tables), fun width hwidth => ⟨?_, ?_, htitles⟩⟩
  · intro item hitem
    have hle : lineRoom (bullet item).toList ≤ greatest items :=
      le_greatest (List.mem_map_of_mem (f := fun item => lineRoom (bullet item).toList) hitem)
    omega
  · intro g hg
    have hle : roomOf (fileColumns g.2) ≤ greatest tables :=
      le_greatest (List.mem_map_of_mem
        (f := fun g : String × List Finding => roomOf (fileColumns g.2)) hg)
    omega

/-- Let the texts of a result be shown as they are.  Then the listing is printed without a fault on a
console of any width.  Where nothing has to be broken it has the file name, the package and the
message of each finding, and each error and each warning, word for word; and there is nothing to
break on any console that is wide enough, unless a title does not fit over its table. -/
theorem listing_shows (h : IsPrintable verbose r) :
    (∀ width, (printAll (listing width verbose r)).2 = none) ∧
      (∀ width, HasRoom width r →
        (∀ f ∈ r.findings, ∀ text ∈ [f.fileName, f.package, f.message],
          text.toList <:+: (printAll (listing width verbose r)).1.toList) ∧
        ∀ text ∈ r.errors ++ r.warnings,
          text.toList <:+: (printAll (listing width verbose r)).1.toList) ∧
      ((∀ g ∈ r.byFile, cells (fileTitle g.1).toList ≤ roomOf (fileColumns g.2)) →
        ∃ enough, ∀ width, enough ≤ width → HasRoom width r) := by
  have hok := listing_ok h
  refine ⟨fun width => printAll_of_ok (hok width), fun width hroom => ⟨?_, ?_⟩, exists_hasRoom⟩
  · intro f hf text htext
    obtain ⟨g, hg, hname, hmem⟩ := (r.grouped_byFile f.fileName f).mpr ⟨hf, rfl⟩
    have htable : .ok (joinLines (fileLines width g.1 g.2)) ∈ listing width verbose r := by
      rw [← fileTable_of_entries (h.name hg).toIsShown (h.areEntries hg) width]
      have hfile := List.mem_map_of_mem (f := fun g => fileTable width g.1 g.2) hg
      simp only [listing, List.cons_append, List.mem_cons, List.mem_append]
      exact .inr (.inr (.inl (.inr hfile)))
    refine infix_printAll (hok width) htable ?_
    simp only [List.mem_cons, List.not_mem_nil, or_false] at htext
    rcases htext with rfl | rfl | rfl
    · rw [← hname]
      exact fileTable_shows_name (hroom.tables g hg) (h.name hg) (hroom.titles g hg)
    · exact fileTable_shows (hroom.tables g hg) _ hmem (.inl rfl) (h.package f hf)
    · exact fileTable_shows (hroom.tables g hg) _ hmem (.inr rfl) (h.message f hf)
  · intro text htext
    have hshown : IsShown text := by
      rcases List.mem_append.mp htext with herror | hwarning
      · exact h.error text herror
      · exact h.warning text hwarning
    have hitem : .ok (bullet text ++ "\n") ∈ listing width verbose r := by
      rw [← paragraph_item hshown (hroom.items text htext)]
      simp only [listing, List.cons_append, List.mem_cons, List.mem_append]
      rcases List.mem_append.mp htext with herror | hwarning
      · exact .inr (.inr (.inl (.inl (.inl (mem_itemized herror)))))
      · exact .inr (.inr (.inl (.inl (.inr (mem_itemized hwarning)))))
    exact infix_printAll (hok width) hitem (infix_bullet text)

/-- A result with a finding in a file, an error and a warning. -/
def oneFinding (fileName : String) : CheckResult where
  filesChecked := 2
  findings := [⟨"react", Finding.messageFor "react", fileName, 1, 1, 0, 7, ruleName⟩]
  errors := ["Error reading file src/b.ts: gone"]
  warnings := ["package.json: not an object"]

/-- On every console that is wide enough the file name, the error and the warning are shown. -/
theorem listing_shows_oneFinding :
    ∃ enough, ∀ width, enough ≤ width →
      (printAll (listing width true (oneFinding "src/a.ts"))).2 = none ∧
        ∀ text ∈ ["src/a.ts", "react", "Error reading file src/b.ts: gone",
            "package.json: not an object"],
          text.toList <:+:
            (printAll (listing width true (oneFinding "src/a.ts"))).1.toList := by
  have hprintable : IsPrintable true (oneFinding "src/a.ts") :=
    ⟨by decide +kernel, by decide +kernel, by decide +kernel, by decide +kernel,
      by decide +kernel, by decide +kernel⟩
  have htitles : ∀ g ∈ (oneFinding "src/a.ts").byFile,
      cells (fileTitle g.1).toList ≤ roomOf (fileColumns g.2) := by
    intro g hg
    obtain rfl := List.mem_singleton.mp hg
    have hlength : (fileTitle "src/a.ts").toList.length = 10 := by decide +kernel
    have hroom : 20 ≤ roomOf (fileColumns (oneFinding "src/a.ts").findings) := by decide +kernel
    have hcells := cells_le (fileTitle "src/a.ts").toList
    show cells (fileTitle "src/a.ts").toList ≤ roomOf (fileColumns (oneFinding "src/a.ts").findings)
    omega
  obtain ⟨hnone, hshown, henough⟩ := listing_shows hprintable
  obtain ⟨enough, hroom⟩ := henough htitles
  refine ⟨enough, fun width hwidth => ⟨hnone width, ?_⟩⟩
  obtain ⟨hfindings, hitems⟩ := hshown width (hroom width hwidth)
  have hfinding := hfindings _ List.mem_cons_self
  intro text htext
  simp only [List.mem_cons, List.not_mem_nil, or_false] at htext
  rcases htext with rfl | rfl | rfl | rfl
  · exact hfinding _ List.mem_cons_self
  · exact hfinding _ (List.mem_cons_of_mem _ List.mem_cons_self)
  · exact hitems _ List.mem_cons_self
  · exact hitems _ (List.mem_cons_of_mem _ List.mem_cons_self)

/-- A part of a file name that looks like the end of a style keeps the listing from being printed. -/
theorem listing_stops :
    (printAll (listing 200 false (oneFinding "a[/b].ts"))).2.isSome = true := by
  decide +kernel

end Report

end ImportAudit
