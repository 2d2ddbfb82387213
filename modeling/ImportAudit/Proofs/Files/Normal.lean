/-
# ImportAudit.Proofs.Files.Normal — a path without what can be dropped.

The path that is read of a text has no empty parts and no single dots, and its text is no longer
(`utf8ByteSize_normal`).  Where names lead to a place, they lead there without the dots among them,
through any number of links (`walk_dropsDots`, `follow_dropsDots`).  So a path leads where the text
leads that it is read of (`locate_normal`), and it is not refused if that leads to something.
-/
import ImportAudit.Proofs.Files.Absolute
import ImportAudit.Proofs.Files.Discovery

namespace ImportAudit

namespace Path

/-! ## The text of a path -/

/-- What was split at a separator is joined again. -/
theorem intercalate_splitAt (sep : Char) (cs : List Char) :
    [sep].intercalate (splitAt sep cs) = cs := by
  induction cs with
  | nil => rfl
  | cons c cs ih =>
      cases hcs : splitAt sep cs with
      | nil => exact absurd hcs (splitAt_ne_nil sep cs)
      | cons piece pieces =>
          rw [hcs] at ih
          by_cases hc : c = sep
          · rw [hc, splitAt_sep_cons, hcs, List.intercalate_cons_cons, ih]
            rfl
          · rw [splitAt_cons hc hcs]
            cases pieces with
            | nil =>
                rw [List.intercalate_singleton] at ih ⊢
                rw [ih]
            | cons next pieces =>
                rw [List.intercalate_cons_cons] at ih ⊢
                rw [← ih]
                rfl

/-- Fewer pieces make a part of what all of them make. -/
theorem intercalate_filter_sublist (sep : Char) (keep : List Char → Bool)
    (pieces : List (List Char)) :
    List.Sublist ([sep].intercalate (pieces.filter keep)) ([sep].intercalate pieces) := by
  induction pieces with
  | nil => exact List.Sublist.refl _
  | cons piece pieces ih =>
      cases pieces with
      | nil =>
          rw [List.filter_cons, List.filter_nil]
          split
          · exact List.Sublist.refl _
          · exact List.nil_sublist _
      | cons next pieces =>
          rw [List.intercalate_cons_cons, List.filter_cons]
          split
          · cases hrest : (next :: pieces).filter keep with
            | nil =>
                rw [List.intercalate_singleton]
                exact (List.sublist_append_left _ _).trans (List.sublist_append_left _ _)
            | cons first rest =>
                rw [hrest] at ih
                rw [List.intercalate_cons_cons]
                exact (List.Sublist.refl _).append ih
          · exact ih.trans (List.sublist_append_right _ _)

/-- A piece that is neither empty nor a dot is a part of a path. -/
def isPart (piece : List Char) : Bool := ¬(piece = [] ∨ piece = ['.'])

theorem toList_parts (text : String) :
    (ofString text).parts.map String.toList = (splitAt '/' text.toList).filter isPart := by
  unfold ofString
  dsimp only
  induction splitAt '/' text.toList with
  | nil => rfl
  | cons piece pieces ih =>
      rw [List.filterMap_cons, List.filter_cons]
      by_cases hpiece : piece = [] ∨ piece = ['.']
      · have hdropped : isPart piece = false := decide_eq_false (not_not_intro hpiece)
        rw [if_pos hpiece, hdropped, if_neg Bool.false_ne_true]
        exact ih
      · have hkept : isPart piece = true := decide_eq_true hpiece
        rw [if_neg hpiece, hkept, if_pos rfl, List.map_cons, ih, String.toList_ofList]

/-- The parts of a text, joined again, are a part of the text. -/
theorem parts_sublist (cs : List Char) :
    List.Sublist (['/'].intercalate ((splitAt '/' cs).filter isPart)) cs := by
  have hpart := intercalate_filter_sublist '/' isPart (splitAt '/' cs)
  rwa [intercalate_splitAt] at hpart

/-- What a path is written with is a part of the text that it is read of, unless it is a dot. -/
theorem toString_sublist {text : String}
    (h : (ofString text).root ≠ "" ∨ (ofString text).parts ≠ []) :
    List.Sublist (ofString text).toString.toList text.toList := by
  have hblank : ∀ cs, (splitAt '/' ('/' :: cs)).filter isPart = (splitAt '/' cs).filter isPart := by
    intro cs
    have hdropped : isPart [] = false := by decide
    rw [splitAt_sep_cons, List.filter_cons, hdropped, if_neg Bool.false_ne_true]
  have hone : "/".toList = ['/'] := by decide
  have htwo : "//".toList = ['/', '/'] := by decide
  rw [toList_toString h, toList_parts]
  show List.Sublist ((rootOf text.toList).toList ++ _) _
  -- the slashes of a root are those that the text begins with, and no part lies between them
  unfold rootOf
  split
  · next cs heq =>
      rw [heq, hblank, hone]
      exact (List.Sublist.refl ['/']).append (parts_sublist _)
  · next cs hno heq =>
      rw [heq, hblank, hblank, htwo]
      exact (List.Sublist.refl ['/', '/']).append (parts_sublist _)
  · next cs hone' htwo' heq =>
      rw [heq, hblank, hone]
      exact (List.Sublist.refl ['/']).append (parts_sublist _)
  · exact parts_sublist _

theorem utf8Len_le_of_sublist {as bs : List Char} (h : List.Sublist as bs) :
    String.utf8Len as ≤ String.utf8Len bs := by
  induction h with
  | slnil => exact Nat.le_refl _
  | cons c _ ih =>
      rw [String.utf8Len_cons]
      omega
  | cons_cons c _ ih =>
      rw [String.utf8Len_cons, String.utf8Len_cons]
      omega

theorem utf8ByteSize_le_of_sublist {a b : String} (h : List.Sublist a.toList b.toList) :
    a.utf8ByteSize ≤ b.utf8ByteSize := by
  have hsize : ∀ s : String, s.utf8ByteSize = String.utf8Len s.toList := fun s => by
    rw [← String.utf8ByteSize_ofList, String.ofList_toList]
  rw [hsize, hsize]
  exact utf8Len_le_of_sublist h

/-- A path is no longer than the text that it is read of. -/
theorem utf8ByteSize_normal {text : String} (h : text ≠ "") :
    (ofString text).toString.utf8ByteSize ≤ text.utf8ByteSize := by
  by_cases hdot : (ofString text).root ≠ "" ∨ (ofString text).parts ≠ []
  · exact utf8ByteSize_le_of_sublist (toString_sublist hdot)
  · have hsize : 0 < text.utf8ByteSize := by
      rw [Nat.pos_iff_ne_zero]
      exact fun hzero => h (String.utf8ByteSize_eq_zero_iff.mp hzero)
    rw [toString, if_pos (by simpa [not_or] using hdot)]
    exact hsize

end Path

namespace Files.Tree

variable {t : Tree} {workingDir place end_ : Place} {names names' : List String}

/-! ## Dots among names -/

/-- Names without some of the dots among them. -/
inductive DropsDots : List String → List String → Prop
  | nil : DropsDots [] []
  | keep (name : String) {names names' : List String} (h : DropsDots names names') :
      DropsDots (name :: names) (name :: names')
  | drop {names names' : List String} (h : DropsDots names names') :
      DropsDots ("." :: names) names'

theorem DropsDots.append (before : List String) (h : DropsDots names names') :
    DropsDots (before ++ names) (before ++ names') := by
  induction before with
  | nil => exact h
  | cons name before ih => exact .keep name ih

theorem dropsDots_filter (names : List String) : DropsDots names (names.filter (· ≠ ".")) := by
  induction names with
  | nil => exact .nil
  | cons name names ih =>
      rw [List.filter_cons]
      by_cases hdot : name = "."
      · rw [if_neg (by simpa using hdot), hdot]
        exact .drop ih
      · rw [if_pos (by simpa using hdot)]
        exact .keep name ih

/-- Where names lead to a place, they lead there without dots. -/
theorem walk_dropsDots {again again' : Place → List String → Except Refusal Place}
    (hagain : ∀ {place names names'}, DropsDots names names' → again place names = .ok end_ →
      again' place names' = .ok end_)
    (h : DropsDots names names') (hwalk : t.walk true false again place names = .ok end_) :
    t.walk true false again' place names' = .ok end_ := by
  induction h generalizing place with
  | nil => exact hwalk
  | drop h ih =>
      rw [walk, if_pos rfl] at hwalk
      exact ih hwalk
  | @keep name names names' h ih =>
      cases t.leads place name with
      | on next hon =>
          rw [hon] at hwalk ⊢
          exact ih hwalk
      | nowhere r hwhy hnowhere =>
          rw [hnowhere] at hwalk
          cases hwalk
      | toFile next hfile =>
          -- a file ends the walk, so nothing is behind it, not even a dot
          rw [hfile] at hwalk ⊢
          split at hwalk
          · next hnone =>
              subst hnone
              cases h
              exact hwalk
          · cases hwalk
      | toLink target start hentry hlink =>
          rw [hlink] at hwalk ⊢
          exact hagain (h.append _) hwalk

/-- Through any number of links, names lead to the same place without dots. -/
theorem follow_dropsDots {links : Nat} (h : DropsDots names names')
    (hfollow : t.follow true false links place names = .ok end_) :
    t.follow true false links place names' = .ok end_ := by
  induction links generalizing place names names' with
  | zero =>
      unfold follow at hfollow ⊢
      refine walk_dropsDots ?_ h hfollow
      intro _ _ _ _ hmore
      cases hmore
  | succ links ih => exact walk_dropsDots ih h hfollow

/-! ## A path and its text -/

/-- A path begins at the root if its text does. -/
theorem root_ne_empty_iff (text : String) :
    (Path.ofString text).root ≠ "" ↔ text.toList.head? = some '/' := by
  show Path.rootOf text.toList ≠ "" ↔ _
  unfold Path.rootOf
  split
  · next heq => rw [heq]; simp
  · next heq => rw [heq]; simp
  · next heq => rw [heq]; simp
  · next hno =>
      cases htext : text.toList with
      | nil => simp
      | cons c cs =>
          have hc : c ≠ '/' := fun hc => hno cs (hc ▸ htext)
          simp [hc]

/-- The parts of a text are its pieces that are not dropped. -/
theorem parts_eq_filter (text : String) :
    (Path.ofString text).parts =
      (((Path.splitAt '/' text.toList).map String.ofList).filter (· ≠ "")).filter (· ≠ ".") := by
  have hparts : (Path.ofString text).parts =
      ((Path.ofString text).parts.map String.toList).map String.ofList := by
    rw [List.map_map]
    exact (List.map_id'' (fun _ => String.ofList_toList) _).symm
  rw [hparts, Path.toList_parts, List.filter_filter, List.filter_map]
  refine congrArg _ (List.filter_congr fun piece _ => ?_)
  have hempty : (String.ofList piece = "") = (piece = []) := propext String.ofList_inj
  have hdot : (String.ofList piece = ".") = (piece = ['.']) := propext String.ofList_inj
  simp only [Path.isPart, Function.comp_apply, ne_eq, hempty, hdot]
  by_cases h : piece = [] <;> by_cases h' : piece = ['.'] <;> simp [h, h']

/-- What is followed of a text is what is read of it, with dots. -/
theorem steps_ofString (text : String) :
    (steps text).1 = decide ((Path.ofString text).root ≠ "") ∧
      (steps text).2.filter (· ≠ ".") = (Path.ofString text).parts := by
  refine ⟨decide_eq_decide.mpr (root_ne_empty_iff text).symm, ?_⟩
  rw [parts_eq_filter]
  unfold steps
  dsimp only
  obtain hnone | ⟨before, last, hpieces⟩ :=
    List.eq_nil_or_concat ((Path.splitAt '/' text.toList).map String.ofList)
  · exact absurd (List.map_eq_nil_iff.mp hnone) (Path.splitAt_ne_nil _ _)
  rw [List.concat_eq_append] at hpieces
  rw [hpieces, List.getLast?_concat, List.dropLast_concat, List.filter_append]
  split
  · next heq =>
      rw [Option.some.inj heq]
      split
      · next hnone => rw [hnone]; simp
      · simp
  · next heq => cases heq
  · next hlast heq =>
      obtain rfl := Option.some.inj heq
      have hkept : [last].filter (· ≠ "") = [last] :=
        List.filter_eq_self.mpr fun piece hpiece => by
          simpa [List.mem_singleton.mp hpiece] using hlast
      rw [hkept]

/-- The text of a path is not empty. -/
theorem toString_ne_empty (text : String) : (Path.ofString text).toString ≠ "" := by
  intro hempty
  have hself : Path.ofString "" = Path.ofString text := by
    rw [← hempty, Path.ofString_toString (Path.isRead_ofString text)]
  rw [← hself] at hempty
  exact absurd hempty (by decide +kernel)

/-- A path without parts leads to where it begins. -/
theorem follow_of_noParts {root : String} (h : root = "" ∨ root = "/" ∨ root = "//")
    (start : Place) :
    (steps (Path.toString ⟨root, []⟩)).1 = decide (root ≠ "") ∧
      t.follow true false maxLinks start (steps (Path.toString ⟨root, []⟩)).2 = .ok start := by
  have hself : steps (Path.toString ⟨"", []⟩) = (false, ["."]) := by decide +kernel
  have hone : steps (Path.toString ⟨"/", []⟩) = (true, []) := by decide +kernel
  have htwo : steps (Path.toString ⟨"//", []⟩) = (true, []) := by decide +kernel
  rcases h with rfl | rfl | rfl
  · rw [hself]
    exact ⟨rfl, rfl⟩
  · rw [hone]
    exact ⟨rfl, rfl⟩
  · rw [htwo]
    exact ⟨rfl, rfl⟩

/-- A path leads where the text leads that it is read of. -/
theorem locate_normal {text : String}
    (h : t.locate true false workingDir text = .ok place) :
    t.locate true false workingDir (Path.ofString text).toString = .ok place := by
  unfold locate at h ⊢
  by_cases hempty : text = ""
  · rw [if_pos hempty] at h
    cases h
  rw [if_neg hempty] at h
  by_cases hlong : maxPath < text.utf8ByteSize
  · rw [if_pos hlong] at h
    cases h
  have hshort := Nat.le_trans (Path.utf8ByteSize_normal hempty) (Nat.not_lt.mp hlong)
  rw [if_neg hlong] at h
  rw [if_neg (toString_ne_empty text), if_neg (Nat.not_lt.mpr hshort)]
  obtain ⟨hroot, hparts⟩ := steps_ofString text
  dsimp only at h ⊢
  rw [hroot] at h
  have hdropped := follow_dropsDots (hparts ▸ dropsDots_filter _) h
  by_cases hnone : (Path.ofString text).parts = []
  · have hread := Path.isRead_ofString text
    generalize Path.ofString text = p at hread hnone hdropped ⊢
    obtain ⟨root, parts⟩ := p
    subst hnone
    obtain ⟨hbegin, hstays⟩ :=
      follow_of_noParts hread.root (if decide (root ≠ "") then [] else workingDir)
    rw [hbegin, hstays]
    exact hdropped
  · rw [steps_toString (Path.isRead_ofString text) hnone]
    exact hdropped

end Files.Tree

/-- A path is not refused if its text leads to something. -/
theorem Files.Discovery.not_refusesText_of_find {t : Tree} {workingDir : Place} {text : String}
    {e : Entry} (h : t.find workingDir text = .ok e) : ¬RefusesText t workingDir text := by
  intro hrefuses
  unfold Tree.find at h
  split at h
  · cases h
  · next place hlocate =>
      have hnormal := Tree.locate_normal hlocate
      rw [RefusesText, Tree.Refuses, hnormal] at hrefuses
      cases hrefuses

end ImportAudit
