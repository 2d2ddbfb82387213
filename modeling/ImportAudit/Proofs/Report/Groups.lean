/-
# ImportAudit.Proofs.Report.Groups — findings, file by file.

The findings are put into groups one after the other: each joins the group of its file, or makes a
new one behind all others (`addToGroups_of_mem`, `addToGroups_of_notMem`).  So there is a group for
each file in the order in which the files first appear, and it has the findings of the file in their
order (`byFile_eq_grouped`).  Together they have the findings, each as often as it was found
(`perm_byFile`).
-/
import ImportAudit.Proofs.Text.Sorted
import ImportAudit.Report.Result
import Mathlib.Algebra.GroupWithZero.Nat
import Mathlib.Data.Finset.Card

namespace ImportAudit

namespace CheckResult

/-! ## One more finding -/

/-- A finding of a file that has a group joins that group. -/
theorem addToGroups_of_mem {f : Finding} {names : List String} (hnodup : names.Nodup)
    (hmem : f.fileName ∈ names) (findings : String → List Finding) :
    addToGroups f (names.map fun name => (name, findings name)) =
      names.map fun name =>
        (name, findings name ++ if f.fileName = name then [f] else []) := by
  induction names with
  | nil => cases hmem
  | cons name names ih =>
      rw [List.nodup_cons] at hnodup
      rw [List.map_cons, addToGroups, List.map_cons]
      by_cases hname : name = f.fileName
      · -- no other group has that name, so the others stay as they are
        have hrest : ∀ other ∈ names, f.fileName ≠ other := by
          rintro other hother rfl
          exact hnodup.1 (hname ▸ hother)
        rw [if_pos hname, if_pos hname.symm]
        refine congrArg _ (List.map_congr_left fun other hother => ?_)
        rw [if_neg (hrest other hother), List.append_nil]
      · have hmem : f.fileName ∈ names :=
          (List.mem_cons.mp hmem).resolve_left (Ne.symm hname)
        rw [if_neg hname, if_neg (Ne.symm hname), List.append_nil, ih hnodup.2 hmem]

/-- A finding of a file that has no group makes a new one. -/
theorem addToGroups_of_notMem {f : Finding} {names : List String} (hnew : f.fileName ∉ names)
    (findings : String → List Finding) :
    addToGroups f (names.map fun name => (name, findings name)) =
      (names.map fun name => (name, findings name)) ++ [(f.fileName, [f])] := by
  induction names with
  | nil => rfl
  | cons name names ih =>
      rw [List.mem_cons, not_or] at hnew
      rw [List.map_cons, addToGroups, if_neg (Ne.symm hnew.1), ih hnew.2, List.cons_append]

/-- One more finding is one more among all those in the groups. -/
theorem perm_addToGroups (f : Finding) (gs : List (String × List Finding)) :
    ((addToGroups f gs).flatMap Prod.snd).Perm (gs.flatMap Prod.snd ++ [f]) := by
  induction gs with
  | nil => exact List.Perm.refl _
  | cons g gs ih =>
      obtain ⟨name, fs⟩ := g
      rw [addToGroups]
      split
      · show (fs ++ [f] ++ gs.flatMap Prod.snd).Perm (fs ++ gs.flatMap Prod.snd ++ [f])
        rw [List.append_assoc, List.append_assoc]
        exact List.perm_append_comm.append_left fs
      · show (fs ++ (addToGroups f gs).flatMap Prod.snd).Perm (fs ++ gs.flatMap Prod.snd ++ [f])
        rw [List.append_assoc]
        exact ih.append_left fs

/-! ## All findings -/

/-- The names of the files in which something was found, each once, in the order in which they first
appear. -/
def fileNames (findings : List Finding) : List String :=
  (findings.map Finding.fileName).eraseDups

/-- The findings of the file of a name. -/
def findingsIn (findings : List Finding) (name : String) : List Finding :=
  findings.filter fun f => f.fileName = name

theorem mem_fileNames {findings : List Finding} {name : String} :
    name ∈ fileNames findings ↔ ∃ f ∈ findings, f.fileName = name := by
  rw [fileNames, List.mem_eraseDups, List.mem_map]

theorem mem_findingsIn {findings : List Finding} {name : String} {f : Finding} :
    f ∈ findingsIn findings name ↔ f ∈ findings ∧ f.fileName = name := by
  rw [findingsIn, List.mem_filter, decide_eq_true_eq]

theorem fileNames_concat (findings : List Finding) (f : Finding) :
    fileNames (findings ++ [f]) = fileNames findings ++
      if f.fileName ∈ fileNames findings then [] else [f.fileName] := by
  unfold fileNames
  rw [List.map_append, List.map_singleton, eraseDups_concat]
  simp only [List.mem_eraseDups]

theorem findingsIn_concat (findings : List Finding) (f : Finding) (name : String) :
    findingsIn (findings ++ [f]) name =
      findingsIn findings name ++ if f.fileName = name then [f] else [] := by
  unfold findingsIn
  rw [List.filter_append]
  split
  · next hname => rw [List.filter_cons_of_pos (by simpa using hname), List.filter_nil]
  · next hname => rw [List.filter_cons_of_neg (by simpa using hname), List.filter_nil]

/-- There is a group for each file, which has the findings of that file. -/
theorem byFile_eq_grouped (r : CheckResult) :
    r.byFile = (fileNames r.findings).map fun name => (name, findingsIn r.findings name) := by
  unfold byFile
  -- from the end, as that is where a finding is added
  induction r.findings using List.reverseRecOn with
  | nil => rfl
  | append_singleton findings f ih =>
      rw [List.foldl_append, List.foldl_cons, List.foldl_nil, ih, fileNames_concat]
      by_cases hmem : f.fileName ∈ fileNames findings
      · have hnodup : (fileNames findings).Nodup := nodup_eraseDups _
        rw [if_pos hmem, List.append_nil, addToGroups_of_mem hnodup hmem]
        simp only [findingsIn_concat]
      · have hnone : findingsIn findings f.fileName = [] := by
          refine List.filter_eq_nil_iff.mpr fun g hg hname => hmem ?_
          exact mem_fileNames.mpr ⟨g, hg, of_decide_eq_true hname⟩
        rw [if_neg hmem, addToGroups_of_notMem hmem, List.map_append, List.map_singleton,
          findingsIn_concat, hnone, if_pos rfl]
        -- what is found in a new file adds nothing to the files before it
        refine congrArg (· ++ _) (List.map_congr_left fun name hname => ?_)
        have hne : f.fileName ≠ name := fun heq => hmem (heq ▸ hname)
        rw [findingsIn_concat, if_neg hne, List.append_nil]

/-- The groups together have the findings, each as often as it was found. -/
theorem perm_byFile (r : CheckResult) : (r.byFile.flatMap Prod.snd).Perm r.findings := by
  unfold byFile
  induction r.findings using List.reverseRecOn with
  | nil => exact List.Perm.refl _
  | append_singleton findings f ih =>
      rw [List.foldl_append, List.foldl_cons, List.foldl_nil]
      exact (perm_addToGroups f _).trans (ih.append_right [f])

/-- There are as many findings as there are in the groups. -/
theorem sum_length_byFile (r : CheckResult) :
    (r.byFile.map fun g => g.2.length).sum = r.findings.length := by
  rw [← (perm_byFile r).length_eq, List.length_flatMap]

/-- There are as many groups as there are files with findings. -/
theorem length_byFile (r : CheckResult) :
    r.byFile.length = (r.findings.map Finding.fileName).toFinset.card := by
  rw [byFile_eq_grouped, List.length_map, fileNames,
    ← List.toFinset_card_of_nodup (nodup_eraseDups (r.findings.map Finding.fileName))]
  refine congrArg Finset.card (Finset.ext fun name => ?_)
  rw [List.mem_toFinset, List.mem_toFinset, List.mem_eraseDups]

end CheckResult

end ImportAudit
