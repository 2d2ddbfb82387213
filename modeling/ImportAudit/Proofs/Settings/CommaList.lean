/-
# ImportAudit.Proofs.Settings.CommaList — lists with commas between their items.

A variable of the environment gives a list in one text.  White space around an item is no part of
it, and where nothing but white space stands between two commas there is no item
(`splitList_padded`, `splitList_of_blank`).  A comma between two texts puts their lists one behind
the other (`splitList_append`).  So reading a list yields texts that can be items and reads a list of
such texts back from their join (`splitList_separates`).
-/
import ImportAudit.Proofs.Text.Lines
import ImportAudit.Settings.Environment

namespace ImportAudit.Text

/-! ## White space at the ends of a text -/

/-- The characters that are white space, by their numbers. -/
def spaceNumbers : List Nat :=
  [0x09, 0x0A, 0x0B, 0x0C, 0x0D, 0x1C, 0x1D, 0x1E, 0x1F, 0x20, 0x85, 0xA0, 0x1680, 0x2000, 0x2001,
    0x2002, 0x2003, 0x2004, 0x2005, 0x2006, 0x2007, 0x2008, 0x2009, 0x200A, 0x2028, 0x2029, 0x202F,
    0x205F, 0x3000]

theorem isSpace_iff (c : Char) : isSpace c = true ↔ c.toNat ∈ spaceNumbers := by
  simp only [isSpace, isWhiteSpace, isSpaceSeparator, spaceNumbers, Bool.or_eq_true,
    Bool.and_eq_true, beq_iff_eq, decide_eq_true_eq, List.mem_cons, List.not_mem_nil, or_false]
  omega

/-- The text is white space throughout. -/
def IsBlank (cs : List Char) : Prop := ∀ c ∈ cs, c.toNat ∈ spaceNumbers

/-- The text neither begins nor ends with white space. -/
structure IsTrimmed (cs : List Char) : Prop where
  head : ∀ c ∈ cs.head?, c.toNat ∉ spaceNumbers
  last : ∀ c ∈ cs.getLast?, c.toNat ∉ spaceNumbers

theorem isSpace_of_isBlank {cs : List Char} (h : IsBlank cs) : ∀ c ∈ cs, isSpace c = true :=
  fun c hc => (isSpace_iff c).mpr (h c hc)

/-- What is left when white space is dropped does not begin with white space. -/
theorem notMem_of_mem_head?_dropWhile {cs : List Char} {c : Char}
    (h : c ∈ (cs.dropWhile isSpace).head?) : c.toNat ∉ spaceNumbers := by
  have hstop := List.head?_dropWhile_not isSpace cs
  rw [Option.mem_def.mp h] at hstop
  rw [← isSpace_iff, hstop]
  exact Bool.false_ne_true

/-- What does not begin with white space has none dropped. -/
theorem dropWhile_isSpace_of_head {cs : List Char} (h : ∀ c ∈ cs.head?, c.toNat ∉ spaceNumbers) :
    cs.dropWhile isSpace = cs := by
  cases cs with
  | nil => rfl
  | cons c cs =>
      have hc : ¬isSpace c = true := fun hspace => h c rfl ((isSpace_iff c).mp hspace)
      exact List.dropWhile_cons_of_neg hc

theorem isTrimmed_trim (cs : List Char) : IsTrimmed (trim cs) where
  head := by
    intro c hc
    -- what is cut off at the end leaves the beginning as it is
    obtain ⟨rest, hrest⟩ := Console.trimRight_prefix (trimLeft cs)
    have hleft : (trimLeft cs).head? = some c := by
      rw [← hrest, List.head?_append, ← trim, Option.mem_def.mp hc, Option.some_or]
    exact notMem_of_mem_head?_dropWhile hleft
  last := by
    intro c hc
    rw [trim, trimRight, List.getLast?_reverse] at hc
    exact notMem_of_mem_head?_dropWhile hc

theorem mem_of_mem_trim {cs : List Char} {c : Char} (h : c ∈ trim cs) : c ∈ cs := by
  have hleft : c ∈ trimLeft cs := (Console.trimRight_prefix (trimLeft cs)).subset h
  exact (List.dropWhile_suffix isSpace).subset hleft

/-- White space around a text is all that is cut off. -/
theorem trim_padded {before cs after : List Char} (hbefore : IsBlank before)
    (hafter : IsBlank after) (hcs : IsTrimmed cs) (hne : cs ≠ []) :
    trim (before ++ cs ++ after) = cs := by
  have hhead : ∀ c ∈ (cs ++ after).head?, c.toNat ∉ spaceNumbers := by
    rw [List.head?_append_of_ne_nil cs hne]
    exact hcs.head
  have hlast : ∀ c ∈ cs.reverse.head?, c.toNat ∉ spaceNumbers := by
    rw [List.head?_reverse]
    exact hcs.last
  have hleft : trimLeft (before ++ cs ++ after) = cs ++ after := by
    rw [trimLeft, List.append_assoc,
      List.dropWhile_append_of_pos (isSpace_of_isBlank hbefore), dropWhile_isSpace_of_head hhead]
  have hspaces : ∀ c ∈ after.reverse, isSpace c = true := by
    intro c hc
    exact isSpace_of_isBlank hafter c (List.mem_reverse.mp hc)
  rw [trim, hleft, trimRight, List.reverse_append, List.dropWhile_append_of_pos hspaces,
    dropWhile_isSpace_of_head hlast, List.reverse_reverse]

theorem trim_of_isBlank {cs : List Char} (h : IsBlank cs) : trim cs = [] := by
  have hleft : trimLeft cs = [] := List.dropWhile_eq_nil_iff.mpr (isSpace_of_isBlank h)
  rw [trim, hleft]
  rfl

end ImportAudit.Text

namespace ImportAudit.Environment

open Text

/-! ## Items -/

/-- A text that can be an item of a list: it is not empty, there is no comma in it, and it neither
begins nor ends with white space. -/
structure IsItem (item : String) : Prop where
  ne_empty : item ≠ ""
  noComma : ',' ∉ item.toList
  trimmed : IsTrimmed item.toList

/-- The item that stands between two commas, if there is one. -/
def itemIn? (piece : List Char) : Option String :=
  if trim piece = [] then none else some (String.ofList (trim piece))

theorem splitList_eq_filterMap (text : String) :
    splitList text = (splitOn ',' text.toList).filterMap itemIn? := by
  unfold splitList
  congr 1
  funext piece
  unfold itemIn?
  cases htrim : trim piece with
  | nil => rfl
  | cons c cs => exact (if_neg (List.cons_ne_nil c cs)).symm

theorem splitList_of_noComma {text : String} (h : ',' ∉ text.toList) :
    splitList text = (itemIn? text.toList).toList := by
  rw [splitList_eq_filterMap, Console.splitOn_of_notMem h]
  cases hitem : itemIn? text.toList with
  | none => exact List.filterMap_cons_none hitem
  | some item => exact List.filterMap_cons_some hitem

/-- Whatever is read as an item can be one. -/
theorem isItem_of_mem_splitList {text item : String} (h : item ∈ splitList text) :
    IsItem item := by
  rw [splitList_eq_filterMap] at h
  obtain ⟨piece, hpiece, hitem⟩ := List.mem_filterMap.mp h
  unfold itemIn? at hitem
  split at hitem
  · cases hitem
  · next hne =>
      obtain rfl := Option.some.inj hitem
      have hlist : (String.ofList (trim piece)).toList = trim piece := String.toList_ofList
      refine ⟨?_, ?_, ?_⟩
      · intro hempty
        rw [hempty] at hlist
        exact hne hlist.symm
      · rw [hlist]
        exact fun hcomma => notMem_of_mem_splitOn hpiece (mem_of_mem_trim hcomma)
      · rw [hlist]
        exact isTrimmed_trim piece

/-- White space around an item is no part of it. -/
theorem splitList_padded {before item after : String} (hbefore : IsBlank before.toList)
    (hafter : IsBlank after.toList) (hitem : IsItem item) :
    splitList (before ++ item ++ after) = [item] := by
  have hcomma : ∀ {text : String}, IsBlank text.toList → ',' ∉ text.toList :=
    fun hblank hmem => absurd (hblank ',' hmem) (by decide)
  have hlist : (before ++ item ++ after).toList = before.toList ++ item.toList ++ after.toList := by
    rw [String.toList_append, String.toList_append]
  have hne : item.toList ≠ [] := fun hnil => hitem.ne_empty (String.toList_eq_nil_iff.mp hnil)
  have hnone : ',' ∉ (before ++ item ++ after).toList := by
    rw [hlist, List.mem_append, List.mem_append]
    exact not_or.mpr ⟨not_or.mpr ⟨hcomma hbefore, hitem.noComma⟩, hcomma hafter⟩
  rw [splitList_of_noComma hnone, itemIn?, hlist,
    trim_padded hbefore hafter hitem.trimmed hne, if_neg hne, String.ofList_toList]
  rfl

/-- White space alone is no item. -/
theorem splitList_of_blank {text : String} (h : IsBlank text.toList) : splitList text = [] := by
  have hnone : ',' ∉ text.toList := fun hmem => absurd (h ',' hmem) (by decide)
  rw [splitList_of_noComma hnone, itemIn?, if_pos (trim_of_isBlank h)]
  rfl

/-- A comma between two texts puts their lists one behind the other. -/
theorem splitList_append (first second : String) :
    splitList (first ++ "," ++ second) = splitList first ++ splitList second := by
  have hlist : (first ++ "," ++ second).toList = first.toList ++ ',' :: second.toList := by
    rw [String.toList_append, String.toList_append, List.append_assoc]
    rfl
  rw [splitList_eq_filterMap, hlist, splitOn_append, List.filterMap_append,
    ← splitList_eq_filterMap, ← splitList_eq_filterMap]

/-- Items are read back from their join. -/
theorem splitList_intercalate {items : List String} (h : ∀ item ∈ items, IsItem item) :
    splitList (",".intercalate items) = items := by
  have hblank : IsBlank "".toList := fun c hc => absurd hc (by simp)
  have hone : ∀ {item : String}, IsItem item → splitList item = [item] := by
    intro item hitem
    have hpadded := splitList_padded hblank hblank hitem
    rwa [String.empty_append, String.append_empty] at hpadded
  induction items with
  | nil => exact splitList_of_blank hblank
  | cons item items ih =>
      obtain ⟨hitem, hitems⟩ := List.forall_mem_cons.mp h
      cases items with
      | nil =>
          rw [String.intercalate_singleton]
          exact hone hitem
      | cons next items =>
          rw [String.intercalate_cons_cons, splitList_append, hone hitem, ih hitems,
            List.singleton_append]

/-- A list that is read from a text consists of items, and is read again from its join; a comma
between two texts puts their lists one behind the other; and every list of items is read from its
join. -/
theorem splitList_separates (first second : String) :
    (∀ item ∈ splitList first, IsItem item) ∧
      splitList (",".intercalate (splitList first)) = splitList first ∧
      splitList (first ++ "," ++ second) = splitList first ++ splitList second ∧
      ∀ items : List String, (∀ item ∈ items, IsItem item) →
        splitList (",".intercalate items) = items :=
  ⟨fun _ => isItem_of_mem_splitList,
    splitList_intercalate fun _ => isItem_of_mem_splitList,
    splitList_append first second,
    fun _ => splitList_intercalate⟩

/-- Items with white space of several kinds around and in them, and white space alone between two
commas. -/
theorem splitList_separates_spaced :
    splitList "\u3000react\x0b,\u2003,@a b/c " = ["react", "@a b/c"] ∧
      (∀ item ∈ ["react", "@a b/c"], IsItem item) ∧
      splitList (",".intercalate ["react", "@a b/c"]) = ["react", "@a b/c"] := by
  have hread : splitList "\u3000react\x0b,\u2003,@a b/c " = ["react", "@a b/c"] := by
    decide +kernel
  have hitems : ∀ item ∈ ["react", "@a b/c"], IsItem item := by
    rw [← hread]
    exact fun item => isItem_of_mem_splitList
  exact ⟨hread, hitems, (splitList_separates "" "").2.2.2 _ hitems⟩

end ImportAudit.Environment
