/-
# ImportAudit.Proofs.Session.Warnings — what the listener of a check hears.

A check listens under a name that nobody else has, so it hears every problem that is reported while
it listens once, whoever listens as well (`heardBy_freshName`), and when it is done the listeners
are those that were there before (`remove_add_fresh`).  What it makes of the problems are the texts
of those of manifests, each text once and in the order of the first reports (`foldl_addWarning`).
Warnings of problems that come one after the other add up (`warnings_append`).
-/
import ImportAudit.Proofs.Text.Sorted
import ImportAudit.Session.Check

namespace ImportAudit

/-! ## The name of the listener -/

namespace Handler

theorem length_le_foldl_names (ls : List Listener) (name : String) :
    name.length ≤ (ls.foldl (fun name l => name ++ l.name) name).length ∧
      ∀ l ∈ ls,
        name.length + l.name.length ≤ (ls.foldl (fun name l => name ++ l.name) name).length := by
  induction ls generalizing name with
  | nil => exact ⟨Nat.le_refl _, by simp⟩
  | cons k ks ih =>
      obtain ⟨hname, hls⟩ := ih (name ++ k.name)
      rw [String.length_append] at hname hls
      rw [List.foldl_cons]
      refine ⟨by omega, fun l hl => ?_⟩
      rcases List.mem_cons.mp hl with rfl | hl
      -- names only get longer behind the one that was added
      · exact hname
      · have hl := hls l hl
        omega

/-- The name of nobody: it is longer than the name of any listener. -/
theorem freshName_ne (h : Handler) {l : Listener} (hl : l ∈ h.listeners) :
    l.name ≠ h.freshName := by
  intro hname
  have hlength : "listener".length + l.name.length ≤ h.freshName.length :=
    (length_le_foldl_names h.listeners "listener").2 l hl
  have hpos : "listener".length = 8 := by decide
  rw [← hname] at hlength
  omega

theorem removeFirst_append {name : String} {ls : List Listener} {l : Listener}
    (hls : ∀ k ∈ ls, k.name ≠ name) (hl : l.name = name) : removeFirst name (ls ++ [l]) = ls := by
  induction ls with
  | nil => exact if_pos hl
  | cons k ks ih =>
      have hk : k.name ≠ name := hls k List.mem_cons_self
      rw [List.cons_append, removeFirst, if_neg hk,
        ih fun k' hk' => hls k' (List.mem_cons_of_mem _ hk')]

/-- The listener of a check goes, and nobody else does. -/
theorem removeFirst_freshName (h : Handler) :
    removeFirst h.freshName (h.listeners ++ [Run.warningListener h]) = h.listeners :=
  removeFirst_append (fun _ hl => h.freshName_ne hl) rfl

/-- The listener of a check hears each problem once. -/
theorem heardBy_freshName (h : Handler) (ps : List Problem) :
    ((ps.flatMap fun p => (h.listeners ++ [Run.warningListener h]).map fun l => (l.name, p)).filter
      fun e => e.1 = h.freshName) = ps.map fun p => (h.freshName, p) := by
  have others : ∀ p : Problem,
      (h.listeners.map fun l => (l.name, p)).filter (fun e => e.1 = h.freshName) = [] := by
    intro p
    rw [List.filter_eq_nil_iff]
    intro e he
    obtain ⟨l, hl, rfl⟩ := List.mem_map.mp he
    simpa using h.freshName_ne hl
  induction ps with
  | nil => rfl
  | cons p ps ih =>
      rw [List.flatMap_cons, List.filter_append, ih, List.map_append, List.filter_append, others]
      simp [Run.warningListener]

end Handler

/-! ## What becomes of the problems -/

/-- The warnings that come of problems: the texts of those of manifests, each once. -/
def Problem.warnings (ps : List Problem) : List String :=
  ((ps.filter fun p => p.category = .manifest).map Problem.describe).eraseDups

theorem Problem.warnings_append (ps qs : List Problem) :
    warnings (ps ++ qs) =
      warnings ps ++ (warnings qs).filter fun text => text ∉ warnings ps := by
  rw [warnings, List.filter_append, List.map_append, eraseDups_append_filter]
  rfl

namespace Run

/-- A problem more is a warning more if it is of a manifest and its text is new. -/
theorem foldl_addWarning (ps : List Problem) : ps.foldl addWarning [] = Problem.warnings ps := by
  -- from the end, where the problem stands that is added last
  induction ps using List.reverseRecOn with
  | nil => rfl
  | append_singleton ps p ih =>
      rw [List.foldl_append, ih, List.foldl_cons, List.foldl_nil, addWarning]
      by_cases hp : p.category = .manifest
      · have hfilter : (ps ++ [p]).filter (fun p => p.category = .manifest) =
            ps.filter (fun p => p.category = .manifest) ++ [p] := by
          rw [List.filter_append, List.filter_cons_of_pos (by simpa using hp), List.filter_nil]
        rw [if_pos hp, Problem.warnings, Problem.warnings, hfilter, List.map_append, List.map_cons,
          List.map_nil, eraseDups_concat]
        simp only [List.mem_eraseDups]
        split <;> simp
      · have hfilter : (ps ++ [p]).filter (fun p => p.category = .manifest) =
            ps.filter (fun p => p.category = .manifest) := by
          rw [List.filter_append, List.filter_cons_of_neg (by simpa using hp), List.filter_nil,
            List.append_nil]
        rw [if_neg hp, Problem.warnings, Problem.warnings, hfilter]

/-- The warnings of a check are those of all problems reported while it listens. -/
theorem warningsOf_freshName (h : Handler) (ps : List Problem) :
    warningsOf h.freshName
      (ps.flatMap fun p => (h.listeners ++ [warningListener h]).map fun l => (l.name, p)) =
      Problem.warnings ps := by
  rw [warningsOf, Handler.heardBy_freshName, List.foldl_map]
  exact foldl_addWarning ps

end Run

end ImportAudit
