/-
# ImportAudit.Proofs.Report.Totals — what a result counts is what it has.

A result is shown in groups, one for each file, and tells how many findings there are, and in how
many files.  The groups part the findings, so that these numbers agree: with one another and with
the findings (`byFile_partitions`).
-/
import ImportAudit.Proofs.Report.Listing

namespace ImportAudit.CheckResult

open Console Report

/-- The number of files in which something was found. -/
def fileCount (r : CheckResult) : Nat := (r.findings.map Finding.fileName).toFinset.card

/-- If anything was found, the listing ends in a line that sums up, behind which there is one that
names the packages at most. -/
theorem exists_listing_eq {r : CheckResult} (hfound : r.findings ≠ []) (width : Nat)
    (verbose : Bool) :
    ∃ before behind, listing width verbose r = before ++
        paragraph width (summary r.findings.length r.fileCount) :: behind ∧
      behind.length ≤ 1 := by
  have hhas : r.hasFindings = true := by
    rw [hasFindings, Bool.not_eq_true', List.isEmpty_eq_false_iff]
    exact hfound
  have hfooter : ∃ behind, footer width verbose r =
      paragraph width (summary r.findings.length r.fileCount) :: behind ∧ behind.length ≤ 1 := by
    rw [footer, if_pos hhas, length_byFile]
    refine ⟨_, rfl, ?_⟩
    split <;> simp
  obtain ⟨behind, hfooter, hbehind⟩ := hfooter
  rw [listing, hfooter]
  exact ⟨_, behind, rfl, hbehind⟩

/-- The findings of a result are parted by the files that they are in:

* there is one group for the name of each file, in the order in which the names first appear;
* a group is not empty, and has all findings of its file in the order of the result;
* together the groups have the findings, each as often as it was found;
* the number of findings, and the one that is written, is the sum over the groups;
* if anything was found, the listing ends in a line that tells this number and that of the distinct
  names of files, behind which there may be one more; where it has room it is printed as it is. -/
theorem byFile_partitions (r : CheckResult) :
    r.byFile.map Prod.fst = (r.findings.map Finding.fileName).eraseDups ∧
      (∀ g ∈ r.byFile, g.2 ≠ [] ∧ g.2 = r.findings.filter fun f => f.fileName = g.1) ∧
      (r.byFile.flatMap Prod.snd).Perm r.findings ∧
      (r.byFile.map fun g => g.2.length).sum = r.findings.length ∧
      r.toValue.member? "total_findings" =
        some (.int ((r.byFile.map fun g => g.2.length).sum : Nat)) ∧
      ∀ (width : Nat) (verbose : Bool), r.findings ≠ [] →
        ∃ before behind shown, listing width verbose r = before ++ .ok shown :: behind ∧
          behind.length ≤ 1 ∧ paragraph width (summary r.findings.length r.fileCount) = .ok shown ∧
          (lineRoom (summary r.findings.length r.fileCount).toList ≤ width →
            shown = summary r.findings.length r.fileCount ++ "\n") := by
  have hsum := sum_length_byFile r
  refine ⟨?_, ?_, perm_byFile r, hsum, ?_, ?_⟩
  · rw [byFile_eq_grouped, List.map_map]
    exact List.map_id _
  · intro g hg
    refine ⟨nonempty_byFile r g hg, ?_⟩
    rw [byFile_eq_grouped] at hg
    obtain ⟨name, -, rfl⟩ := List.mem_map.mp hg
    rfl
  · rw [hsum]
    rfl
  · intro width verbose hfound
    obtain ⟨before, behind, hlisting, hbehind⟩ := exists_listing_eq hfound width verbose
    have hshown := paragraph_of_isLiteral
      (isLiteral_summary r.findings.length r.fileCount) width
    rw [hshown] at hlisting
    refine ⟨before, behind, _, hlisting, hbehind, hshown, fun hroom => ?_⟩
    rw [paragraph_summary hroom] at hshown
    exact (Except.ok.inj hshown).symm

/-- Three findings in two files, of which the first one has two, and the other one lies between
them. -/
def interleaved : CheckResult where
  findings := [⟨"a", Finding.messageFor "a", "x.js", 1, 1, 0, 3, ruleName⟩,
    ⟨"b", Finding.messageFor "b", "y.js", 1, 1, 0, 3, ruleName⟩,
    ⟨"c", Finding.messageFor "c", "x.js", 2, 1, 4, 7, ruleName⟩]

/-- The listing ends in a line that tells of three findings in two files. -/
theorem byFile_partitions_interleaved :
    interleaved.byFile.map Prod.fst = ["x.js", "y.js"] ∧
      ∃ before behind, listing 100 true interleaved = before ++
          .ok "⚠️  3 implicit dependencies in 2 file(s)\n" :: behind ∧
        behind.length ≤ 1 := by
  obtain ⟨hnames, -, -, -, -, hlisting⟩ := byFile_partitions interleaved
  obtain ⟨before, behind, shown, heq, hbehind, -, hroom⟩ := hlisting 100 true (by decide)
  have hsummary : summary interleaved.findings.length interleaved.fileCount =
      "⚠️  3 implicit dependencies in 2 file(s)" := by decide +kernel
  rw [hsummary] at hroom
  have hshown : shown = "⚠️  3 implicit dependencies in 2 file(s)\n" :=
    (hroom ((lineRoom_le (by decide +kernel)).trans (by decide +kernel))).trans (by decide +kernel)
  exact ⟨hnames.trans (by decide +kernel), before, behind, hshown ▸ heq, hbehind⟩

end ImportAudit.CheckResult
