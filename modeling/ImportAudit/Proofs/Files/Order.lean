/-
# ImportAudit.Proofs.Files.Order — paths in order, each once.

Paths are compared by their components (`keysBefore_iff`), which tell paths apart
(`keys_injective`).  So the list of different paths that is in order is strictly increasing
(`pairwise_ordered`), and it is determined by what is in it (`eq_of_pairwise`).
-/
import ImportAudit.Files.Discovery
import ImportAudit.Proofs.Files.Absolute
import ImportAudit.Proofs.Text.Sorted
import Mathlib.Data.List.Lex

namespace ImportAudit

namespace Path

/-! ## Components -/

theorem keysBefore_iff (as bs : List String) : keysBefore as bs = true ↔ as < bs := by
  induction as generalizing bs with
  | nil =>
      cases bs with
      | nil => simp [keysBefore]
      | cons b bs => simp [keysBefore]
  | cons a as ih =>
      cases bs with
      | nil => simp [keysBefore]
      | cons b bs =>
          rw [keysBefore, List.cons_lt_cons_iff]
          split
          · next hab =>
              subst hab
              rw [ih]
              simp
          · next hab => simp [hab]

theorem before_iff (p q : Path) : p.before q = true ↔ p.keys < q.keys := keysBefore_iff _ _

/-- What a path is read as may have names behind it. -/
theorem IsRead.append {p : Path} (h : p.IsRead) {names : List String}
    (hnames : ∀ name ∈ names, IsName name) : IsRead { p with parts := p.parts ++ names } := by
  refine ⟨h.root, fun part hpart => ?_⟩
  rcases List.mem_append.mp hpart with hold | hnew
  · exact h.parts part hold
  · exact .inr (hnames part hnew)

/-- A root is not a part of a path. -/
theorem IsRead.root_notMem {p q : Path} (hp : p.IsRead) (hq : q.IsRead) (hroot : q.root ≠ "") :
    q.root ∉ p.parts := by
  intro hmem
  have hslash : '/' ∈ q.root.toList := by
    rcases hq.root with hnone | hone | htwo
    · exact absurd hnone hroot
    · rw [hone]
      decide
    · rw [htwo]
      decide
  exact noSlash_of_part (hp.parts _ hmem) hslash

theorem keys_injective {p q : Path} (hp : p.IsRead) (hq : q.IsRead) (h : p.keys = q.keys) :
    p = q := by
  have hparts : p.root = q.root → p.parts = q.parts → p = q := by
    intro hroot hparts
    cases p
    cases q
    cases hroot
    cases hparts
    rfl
  -- a root has a slash, so it is not taken for a part
  unfold keys at h
  by_cases hpr : p.root = ""
  · by_cases hqr : q.root = ""
    · rw [if_pos hpr, if_pos hqr] at h
      exact hparts (hpr.trans hqr.symm) h
    · rw [if_pos hpr, if_neg hqr] at h
      exact absurd (h ▸ List.mem_cons_self) (hp.root_notMem hq hqr)
  · by_cases hqr : q.root = ""
    · rw [if_neg hpr, if_pos hqr] at h
      exact absurd (h ▸ List.mem_cons_self) (hq.root_notMem hp hpr)
    · rw [if_neg hpr, if_neg hqr] at h
      obtain ⟨hroot, hrest⟩ := List.cons.inj h
      exact hparts hroot hrest

end Path

namespace Files.Discovery

open ImportAudit.Path

/-! ## Sorting -/

/-- Paths in order, each once. -/
def ordered (files : List Path) : List Path := files.eraseDups.mergeSort inOrder

theorem inOrder_iff (p q : Path) : inOrder p q = true ↔ p.keys ≤ q.keys := by
  rw [inOrder, Bool.not_eq_true', ← Bool.not_eq_true, before_iff, not_lt]

theorem mem_ordered {files : List Path} {p : Path} : p ∈ ordered files ↔ p ∈ files := by
  rw [ordered, List.mem_mergeSort, List.mem_eraseDups]

theorem nodup_ordered (files : List Path) : (ordered files).Nodup :=
  (List.mergeSort_perm files.eraseDups _).nodup_iff.mpr (nodup_eraseDups files)

/-- Different paths in order are strictly increasing. -/
theorem pairwise_ordered {files : List Path} (h : ∀ p ∈ files, p.IsRead) :
    (ordered files).Pairwise fun p q => p.keys < q.keys := by
  have hle : (ordered files).Pairwise fun p q => inOrder p q = true := by
    refine List.pairwise_mergeSort (fun p q r hpq hqr => ?_) (fun p q => ?_) files.eraseDups
    · rw [inOrder_iff] at hpq hqr ⊢
      exact hpq.trans hqr
    · rw [Bool.or_eq_true, inOrder_iff, inOrder_iff]
      exact le_total p.keys q.keys
  -- paths that are different have different components, so no two of them are level
  have hboth := hle.and (nodup_ordered files)
  refine hboth.imp_of_mem fun {p q} hp hq hpq => ?_
  refine lt_of_le_of_ne ((inOrder_iff p q).mp hpq.1) fun heq => hpq.2 ?_
  exact keys_injective (h p (mem_ordered.mp hp)) (h q (mem_ordered.mp hq)) heq

/-- Two strictly increasing lists of the same paths are the same. -/
theorem eq_of_pairwise {ps qs : List Path} (hps : ps.Pairwise fun p q => p.keys < q.keys)
    (hqs : qs.Pairwise fun p q => p.keys < q.keys) (h : ∀ p, p ∈ ps ↔ p ∈ qs) : ps = qs := by
  have hnodup : ∀ {xs : List Path}, xs.Pairwise (fun p q => p.keys < q.keys) → xs.Nodup := by
    intro xs hxs
    refine hxs.imp fun {p q} hlt heq => ?_
    rw [heq] at hlt
    exact lt_irrefl _ hlt
  have hperm : ps.Perm qs := by
    rw [List.perm_ext_iff_of_nodup (hnodup hps) (hnodup hqs)]
    exact h
  exact hperm.eq_of_pairwise (fun p q _ _ hpq hqp => absurd hpq (lt_asymm hqp)) hps hqs

end Files.Discovery

end ImportAudit
