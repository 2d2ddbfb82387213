/-
# ImportAudit.Proofs.Files.Absolute — paths are read back from their texts.

The parts of a path that is read of a text are names or two dots, where a name is a text that is
neither empty nor dots and has no slash (`isRead_ofString`).  The text of such a path stands for that
path again (`ofString_toString`), and its parts are what is followed (`steps_toString`).  The parts of
an absolute path are names (`isNormal_absolute`, where the working directory has a path of that kind
itself), so making it absolute once more changes nothing (`absolute_toString`).
-/
import ImportAudit.Files.Tree
import Mathlib.Data.List.Basic

namespace ImportAudit

namespace Path

/-! ## Splitting -/

theorem splitAt_ne_nil (sep : Char) (cs : List Char) : splitAt sep cs ≠ [] := by
  cases cs with
  | nil => exact List.cons_ne_nil _ _
  | cons c cs =>
      unfold splitAt
      split
      · exact List.cons_ne_nil _ _
      · split <;> exact List.cons_ne_nil _ _

theorem splitAt_sep_cons (sep : Char) (cs : List Char) :
    splitAt sep (sep :: cs) = [] :: splitAt sep cs := by
  conv_lhs => unfold splitAt
  split
  · next h => exact absurd h (splitAt_ne_nil sep cs)
  · next piece pieces h => rw [if_pos rfl, h]

theorem splitAt_cons {sep c : Char} {cs piece : List Char} {pieces : List (List Char)}
    (hc : c ≠ sep) (h : splitAt sep cs = piece :: pieces) :
    splitAt sep (c :: cs) = (c :: piece) :: pieces := by
  conv_lhs => unfold splitAt
  rw [h]
  exact if_neg hc

/-- A piece ends at the next separator. -/
theorem splitAt_append {sep : Char} {piece : List Char} (h : sep ∉ piece) (cs : List Char) :
    splitAt sep (piece ++ sep :: cs) = piece :: splitAt sep cs := by
  induction piece with
  | nil => exact splitAt_sep_cons sep cs
  | cons c piece ih =>
      rw [List.mem_cons, not_or] at h
      exact splitAt_cons (Ne.symm h.1) (ih h.2)

theorem splitAt_of_notMem {sep : Char} {piece : List Char} (h : sep ∉ piece) :
    splitAt sep piece = [piece] := by
  induction piece with
  | nil => rfl
  | cons c piece ih =>
      rw [List.mem_cons, not_or] at h
      exact splitAt_cons (Ne.symm h.1) (ih h.2)

/-- What is joined by separators is split into what was joined. -/
theorem splitAt_intercalate {sep : Char} {piece : List Char} {pieces : List (List Char)}
    (h : ∀ p ∈ piece :: pieces, sep ∉ p) :
    splitAt sep ([sep].intercalate (piece :: pieces)) = piece :: pieces := by
  induction pieces generalizing piece with
  | nil =>
      rw [List.intercalate_singleton]
      exact splitAt_of_notMem (h piece List.mem_cons_self)
  | cons next pieces ih =>
      rw [List.intercalate_cons_cons, List.append_assoc, List.singleton_append,
        splitAt_append (h piece List.mem_cons_self), ih fun p hp => h p (List.mem_cons_of_mem _ hp)]

theorem notMem_of_mem_splitAt {sep : Char} {cs piece : List Char} (h : piece ∈ splitAt sep cs) :
    sep ∉ piece := by
  induction cs generalizing piece with
  | nil =>
      rw [splitAt, List.mem_singleton] at h
      rw [h]
      exact List.not_mem_nil
  | cons c cs ih =>
      cases hcs : splitAt sep cs with
      | nil => exact absurd hcs (splitAt_ne_nil sep cs)
      | cons first pieces =>
          rw [hcs] at ih
          by_cases hc : c = sep
          · rw [hc, splitAt_sep_cons, hcs, List.mem_cons] at h
            rcases h with rfl | h
            · exact List.not_mem_nil
            · exact ih h
          · rw [splitAt_cons hc hcs, List.mem_cons] at h
            rcases h with rfl | h
            · rw [List.mem_cons, not_or]
              exact ⟨Ne.symm hc, ih List.mem_cons_self⟩
            · exact ih (List.mem_cons_of_mem _ h)

/-! ## Names -/

/-- A text that can stand as a part of a path: it is neither empty nor dots, and has no slash. -/
structure IsName (part : String) : Prop where
  ne_empty : part ≠ ""
  ne_dot : part ≠ "."
  ne_dots : part ≠ ".."
  noSlash : '/' ∉ part.toList

instance (part : String) : Decidable (IsName part) :=
  decidable_of_iff (part ≠ "" ∧ part ≠ "." ∧ part ≠ ".." ∧ '/' ∉ part.toList)
    ⟨fun h => ⟨h.1, h.2.1, h.2.2.1, h.2.2.2⟩,
      fun h => ⟨h.ne_empty, h.ne_dot, h.ne_dots, h.noSlash⟩⟩

/-- A path as texts stand for it. -/
structure IsRead (p : Path) : Prop where
  root : p.root = "" ∨ p.root = "/" ∨ p.root = "//"
  parts : ∀ part ∈ p.parts, part = ".." ∨ IsName part

/-- A path from a root on in which there is nothing to drop or to take back. -/
structure IsNormal (p : Path) : Prop where
  root : p.root = "/" ∨ p.root = "//"
  names : ∀ part ∈ p.parts, IsName part

theorem IsNormal.isRead {p : Path} (h : p.IsNormal) : p.IsRead :=
  ⟨.inr h.root, fun part hpart => .inr (h.names part hpart)⟩

section

variable {part : String} {parts : List String}

theorem ne_empty_of_part (h : part = ".." ∨ IsName part) : part ≠ "" := by
  rcases h with rfl | hname
  · decide
  · exact hname.ne_empty

theorem ne_dot_of_part (h : part = ".." ∨ IsName part) : part ≠ "." := by
  rcases h with rfl | hname
  · decide
  · exact hname.ne_dot

theorem noSlash_of_part (h : part = ".." ∨ IsName part) : '/' ∉ part.toList := by
  rcases h with rfl | hname
  · decide
  · exact hname.noSlash

/-- Parts that are joined by slashes are split again. -/
theorem splitAt_parts (h : ∀ part ∈ parts, part = ".." ∨ IsName part) (hne : parts ≠ []) :
    splitAt '/' (['/'].intercalate (parts.map String.toList)) = parts.map String.toList := by
  obtain ⟨part, rest, rfl⟩ := List.exists_cons_of_ne_nil hne
  rw [List.map_cons]
  refine splitAt_intercalate fun piece hpiece => ?_
  rw [← List.map_cons] at hpiece
  obtain ⟨part', hpart', rfl⟩ := List.mem_map.mp hpiece
  exact noSlash_of_part (h part' hpart')

/-- Parts that are joined by slashes are those that are read. -/
theorem parts_of_intercalate (h : ∀ part ∈ parts, part = ".." ∨ IsName part) :
    ((splitAt '/' (['/'].intercalate (parts.map String.toList))).filterMap fun piece =>
      if piece = [] ∨ piece = ['.'] then none else some (String.ofList piece)) = parts := by
  by_cases hnone : parts = []
  · subst hnone
    rfl
  rw [splitAt_parts h hnone, List.filterMap_map]
  refine (List.filterMap_congr fun part hpart => ?_).trans List.filterMap_some
  have hempty : part.toList ≠ [] := fun hnil =>
    ne_empty_of_part (h part hpart) (String.toList_eq_nil_iff.mp hnil)
  have hdot : part.toList ≠ ['.'] := fun hdot =>
    ne_dot_of_part (h part hpart) (String.toList_inj.mp (hdot.trans (by decide)))
  rw [Function.comp_apply, if_neg (not_or.mpr ⟨hempty, hdot⟩), String.ofList_toList]

/-- What parts are joined to begins with the first of them, so not with a slash. -/
theorem intercalate_ne_slash (h : ∀ part ∈ parts, part = ".." ∨ IsName part) (cs : List Char) :
    ['/'].intercalate (parts.map String.toList) ≠ '/' :: cs := by
  cases parts with
  | nil => exact nofun
  | cons part parts =>
      have hpart := h part List.mem_cons_self
      obtain ⟨c, rest, hbegins⟩ := List.exists_cons_of_ne_nil fun hnil : part.toList = [] =>
        ne_empty_of_part hpart (String.toList_eq_nil_iff.mp hnil)
      have hc : c ≠ '/' := by
        rintro rfl
        exact noSlash_of_part hpart (hbegins ▸ List.mem_cons_self)
      intro hslash
      rw [List.map_cons, hbegins] at hslash
      cases parts with
      | nil =>
          rw [List.map_nil, List.intercalate_singleton] at hslash
          exact hc (List.cons.inj hslash).1
      | cons next parts =>
          rw [List.map_cons, List.intercalate_cons_cons] at hslash
          exact hc (List.cons.inj hslash).1

end

theorem rootOf_none {cs : List Char} (h : ∀ rest, cs ≠ '/' :: rest) : rootOf cs = "" := by
  unfold rootOf
  split
  · next rest => exact absurd rfl (h _)
  · next rest => exact absurd rfl (h _)
  · next rest => exact absurd rfl (h _)
  · rfl

theorem rootOf_one {cs : List Char} (h : ∀ rest, cs ≠ '/' :: rest) : rootOf ('/' :: cs) = "/" := by
  unfold rootOf
  split
  · next rest heq => exact absurd (List.cons.inj heq).2 (h _)
  · next rest _ heq => exact absurd (List.cons.inj heq).2 (h _)
  · rfl
  · next hno => exact absurd rfl (hno cs)

theorem rootOf_two {cs : List Char} (h : ∀ rest, cs ≠ '/' :: rest) :
    rootOf ('/' :: '/' :: cs) = "//" := by
  unfold rootOf
  split
  · next rest heq => exact absurd (List.cons.inj (List.cons.inj heq).2).2 (h _)
  · rfl
  · next _ hno heq => exact absurd (List.cons.inj heq).2.symm (hno cs)
  · next hno _ => exact absurd rfl (hno cs)

/-- The text of a path is its root and its parts, joined by slashes, unless there is neither. -/
theorem toList_toString {p : Path} (h : p.root ≠ "" ∨ p.parts ≠ []) :
    p.toString.toList = p.root.toList ++ ['/'].intercalate (p.parts.map String.toList) := by
  have hsep : "/".toList = ['/'] := by decide
  rw [toString, if_neg (not_and_or.mpr h), String.toList_append, String.toList_intercalate, hsep]

/-- The text of a path stands for that path. -/
theorem ofString_toString {p : Path} (h : p.IsRead) : ofString p.toString = p := by
  obtain ⟨root, parts⟩ := p
  have hparts := parts_of_intercalate h.parts
  have hslash := intercalate_ne_slash h.parts
  rcases h.root with hroot | hroot | hroot
  · obtain rfl : root = "" := hroot
    by_cases hnone : parts = []
    · subst hnone
      rfl
    · rw [ofString, toList_toString (.inr hnone)]
      show Path.mk (rootOf (['/'].intercalate _)) _ = _
      rw [rootOf_none hslash]
      exact congrArg (Path.mk "") hparts
  · obtain rfl : root = "/" := hroot
    have hone : "/".toList = ['/'] := by decide
    have hroot : "/" ≠ "" := by decide
    rw [ofString, toList_toString (.inl hroot), hone, List.singleton_append,
      rootOf_one hslash, splitAt_sep_cons, List.filterMap_cons, hparts]
    rfl
  · obtain rfl : root = "//" := hroot
    have htwo : "//".toList = ['/', '/'] := by decide
    have hroot : "//" ≠ "" := by decide
    rw [ofString, toList_toString (.inl hroot), htwo, List.cons_append,
      List.singleton_append, rootOf_two hslash, splitAt_sep_cons, splitAt_sep_cons,
      List.filterMap_cons, List.filterMap_cons, hparts]
    rfl

theorem toString_name (name : String) : toString ⟨"", [name]⟩ = name := by simp [toString]

theorem IsName.isRead {name : String} (h : IsName name) : IsRead ⟨"", [name]⟩ := by
  refine ⟨.inl rfl, fun part hpart => .inr ?_⟩
  rwa [List.mem_singleton.mp hpart]

/-- A name stands for itself. -/
theorem ofString_name {name : String} (h : IsName name) : ofString name = ⟨"", [name]⟩ := by
  have hread := ofString_toString h.isRead
  rwa [toString_name] at hread

/-- What is read of a text are names, but for two dots. -/
theorem names_ofString (text : String) :
    ∀ part ∈ (ofString text).parts, part = ".." ∨ IsName part := by
  intro part hpart
  obtain ⟨piece, hpiece, hsome⟩ := List.mem_filterMap.mp hpart
  split at hsome
  · cases hsome
  · next hkept =>
      cases hsome
      rw [not_or] at hkept
      rw [or_iff_not_imp_left]
      intro hdots
      refine ⟨fun hempty => hkept.1 ?_, fun hdot => hkept.2 ?_, hdots, ?_⟩
      · exact String.ofList_inj.mp hempty
      · exact String.ofList_inj.mp (hdot.trans (by decide))
      · rw [String.toList_ofList]
        exact notMem_of_mem_splitAt hpiece

theorem root_ofString (text : String) :
    (ofString text).root = "" ∨ (ofString text).root = "/" ∨ (ofString text).root = "//" := by
  unfold ofString rootOf
  dsimp only
  split
  · exact .inr (.inl rfl)
  · exact .inr (.inr rfl)
  · exact .inr (.inl rfl)
  · exact .inl rfl

theorem isRead_ofString (text : String) : (ofString text).IsRead :=
  ⟨root_ofString text, names_ofString text⟩

end Path

namespace Files.Tree

/-! ## Names to follow -/

/-- Empty pieces are passed over, and the others are followed. -/
theorem steps_of_pieces {path : String} {blanks parts : List String}
    (hpieces : (Path.splitAt '/' path.toList).map String.ofList = blanks ++ parts)
    (hblanks : ∀ blank ∈ blanks, blank = "") (hparts : ∀ part ∈ parts, part ≠ "")
    (hne : parts ≠ []) : steps path = (decide (path.toList.head? = some '/'), parts) := by
  obtain ⟨before, last, rfl⟩ := (List.eq_nil_or_concat parts).resolve_left hne
  rw [List.concat_eq_append] at hpieces hparts ⊢
  have hdropped : blanks.filter (· ≠ "") = [] :=
    List.filter_eq_nil_iff.mpr fun blank hblank => by simp [hblanks blank hblank]
  have hkept : before.filter (· ≠ "") = before :=
    List.filter_eq_self.mpr fun part hpart => by
      simpa using hparts part (List.mem_append_left _ hpart)
  have hlast : last ≠ "" := hparts last (List.mem_append_right _ List.mem_cons_self)
  -- what is last is not empty, so the path does not ask for a directory
  unfold steps
  dsimp only
  rw [hpieces, ← List.append_assoc, List.dropLast_concat, List.getLast?_concat,
    List.filter_append, hdropped, hkept, List.nil_append]
  split
  · next heq => exact absurd (Option.some.inj heq) hlast
  · next heq => cases heq
  · next heq => rw [Option.some.inj heq]

/-- The parts of a path are followed, from the root if it has one. -/
theorem steps_toString {p : Path} (h : p.IsRead) (hne : p.parts ≠ []) :
    steps p.toString = (decide (p.root ≠ ""), p.parts) := by
  obtain ⟨root, parts⟩ := p
  have hsplit := Path.splitAt_parts h.parts hne
  have hslash := Path.intercalate_ne_slash h.parts
  have htext := Path.toList_toString (p := ⟨root, parts⟩) (.inr hne)
  have hparts : (parts.map String.toList).map String.ofList = parts := by simp
  have hfull : ∀ part ∈ parts, part ≠ "" := fun part hpart =>
    Path.ne_empty_of_part (h.parts part hpart)
  -- a root leaves nothing but empty pieces before the parts
  rcases h.root with hroot | hroot | hroot
  · obtain rfl : root = "" := hroot
    rw [String.toList_empty, List.nil_append] at htext
    have hpieces : (Path.splitAt '/' (Path.toString ⟨"", parts⟩).toList).map String.ofList =
        [] ++ parts := by
      rw [htext, hsplit, hparts, List.nil_append]
    rw [steps_of_pieces hpieces nofun hfull hne, htext]
    cases htext' : ['/'].intercalate (parts.map String.toList) with
    | nil => rfl
    | cons c cs =>
        have hc : c ≠ '/' := fun hc => hslash cs (hc ▸ htext')
        simp [hc]
  · obtain rfl : root = "/" := hroot
    have hone : "/".toList = ['/'] := by decide
    rw [hone, List.singleton_append] at htext
    have hpieces : (Path.splitAt '/' (Path.toString ⟨"/", parts⟩).toList).map String.ofList =
        [""] ++ parts := by
      rw [htext, Path.splitAt_sep_cons, hsplit, List.map_cons, hparts]
      rfl
    rw [steps_of_pieces hpieces (by simp) hfull hne, htext]
    rfl
  · obtain rfl : root = "//" := hroot
    have htwo : "//".toList = ['/', '/'] := by decide
    rw [htwo, List.cons_append, List.singleton_append] at htext
    have hpieces : (Path.splitAt '/' (Path.toString ⟨"//", parts⟩).toList).map String.ofList =
        ["", ""] ++ parts := by
      rw [htext, Path.splitAt_sep_cons, Path.splitAt_sep_cons, hsplit, List.map_cons,
        List.map_cons, hparts]
      rfl
    rw [steps_of_pieces hpieces (by simp) hfull hne, htext]
    rfl

/-! ## Absolute paths -/

theorem flatten_cons_of_ne {part : String} (h : part ≠ "..") (done parts : List String) :
    flatten done (part :: parts) = flatten (done ++ [part]) parts := by
  conv_lhs => unfold flatten
  split
  · next heq => cases heq
  · next heq => exact absurd (List.cons.inj heq).1 h
  · next heq => cases heq; rfl

theorem flatten_names {parts : List String} (h : ∀ part ∈ parts, Path.IsName part)
    (done : List String) : flatten done parts = done ++ parts := by
  induction parts generalizing done with
  | nil => exact (List.append_nil done).symm
  | cons part parts ih =>
      rw [flatten_cons_of_ne (h part List.mem_cons_self).ne_dots,
        ih fun p hp => h p (List.mem_cons_of_mem _ hp), List.append_assoc, List.singleton_append]

/-- A path that is normal is absolute as it is. -/
theorem absolute_toString {p : Path} (h : p.IsNormal) (workingDir : Place) :
    absolute workingDir p.toString = p := by
  have hroot : p.root ≠ "" := by
    rcases h.root with hroot | hroot <;> rw [hroot] <;> decide
  rw [absolute, Path.ofString_toString h.isRead, if_neg hroot, flatten_names h.names, List.nil_append]

theorem names_flatten {parts done : List String} (hdone : ∀ part ∈ done, Path.IsName part)
    (h : ∀ part ∈ parts, part = ".." ∨ Path.IsName part) :
    ∀ part ∈ flatten done parts, Path.IsName part := by
  induction parts generalizing done with
  | nil => exact hdone
  | cons part parts ih =>
      have hparts : ∀ p ∈ parts, p = ".." ∨ Path.IsName p :=
        fun p hp => h p (List.mem_cons_of_mem _ hp)
      by_cases hpart : part = ".."
      · rw [hpart, flatten]
        exact ih (fun p hp => hdone p (List.dropLast_subset done hp)) hparts
      · rw [flatten_cons_of_ne hpart]
        refine ih (fun p hp => ?_) hparts
        rcases List.mem_append.mp hp with hp | hp
        · exact hdone p hp
        · rw [List.mem_singleton] at hp
          exact hp ▸ (h part List.mem_cons_self).resolve_left hpart

/-- An absolute path is normal, wherever that is so of the working directory. -/
theorem isNormal_absolute {workingDir : Place} (h : ∀ name ∈ workingDir, Path.IsName name)
    (path : String) : (absolute workingDir path).IsNormal := by
  have hnames := Path.names_ofString path
  unfold absolute
  dsimp only
  split
  · exact ⟨.inl rfl, names_flatten h hnames⟩
  · next hroot =>
      exact ⟨(Path.root_ofString path).resolve_left hroot,
        names_flatten (fun _ hp => absurd hp List.not_mem_nil) hnames⟩

end Files.Tree

end ImportAudit
