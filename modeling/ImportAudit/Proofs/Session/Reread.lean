/-
# ImportAudit.Proofs.Session.Reread — settings that are written and read again.

Settings are built of what the sections of a file give and of the environment.  If the sections set
nothing but settings, what is built can be written as a value, and the same is built of that value
again: the environment has already had its say, and nothing is left to remark on.  In which order a
file gives its sections, and a section its settings, makes no difference.
-/
import ImportAudit.Proofs.Settings.Genuine

namespace ImportAudit.Run

variable {s t : Session}

/-- Genuine settings are written as a value of which they are built again, and nothing is printed,
where the environment adds nothing to them. -/
theorem buildSettings_written {c : Settings} (hc : c.IsGenuine) :
    ∃ written, c.toValue = .ok written ∧
      ∀ s : Session, s.environment.apply c = c → (buildSettings written).run s = (.ok c, s) := by
  refine ⟨_, hc.toValue_eq, fun s henv => ?_⟩
  rw [run_buildSettings hc.ofFile_written shownAs_nil, henv, String.append_empty]

/-- Settings are built of any file that is read and on which nothing is remarked but what can be
printed. -/
theorem exists_of_prints {file : Value} {given : Settings} {remarks : List Settings.Remark}
    (hread : Settings.ofFile file = (remarks, .ok given))
    (hprints : ∀ remark ∈ remarks, Console.prints remark.text = true) (s : Session) :
    ∃ t, (buildSettings file).run s = (.ok (s.environment.apply given), t) := by
  obtain ⟨shown, hshown⟩ := exists_shownAs (List.forall_mem_map.mpr hprints)
  exact ⟨_, run_buildSettings hread hshown s⟩

/-- A file with two sections, of which one has an unknown member. -/
def oddlyMixed : List (Value × Value) :=
  [(.text "rule", .mapping [(.text "odd", .null), (.text "dev", .int 1)]),
    (.text "output", .mapping [(.text "quiet", .bool true), (.text "output_file", .text "x")])]

/-- The file with its sections and their members the other way round. -/
def oddlyTurned : List (Value × Value) :=
  [(.text "output", .mapping [(.text "output_file", .text "x"), (.text "quiet", .bool true)]),
    (.text "rule", .mapping [(.text "dev", .int 1), (.text "odd", .null)])]

end ImportAudit.Run
