/-
# ImportAudit.Proofs.Text.Sorted — a set of texts has one list.

Dropping repetitions keeps the first of equal items (`eraseDups_concat`, `eraseDups_append_filter`).
A list without repetitions that is in order is determined by what is in it, so two lists of the same
texts give the same sorted one (`sortedSet_congr`).
-/
import ImportAudit.Text.Sorted
import Mathlib.Data.List.Induction
import Mathlib.Data.List.Perm.Basic
import Mathlib.Data.String.Basic

namespace ImportAudit

/-! ## Items without repetition -/

section Repetition

variable {α : Type} [DecidableEq α]

theorem eraseDups_concat (as : List α) (a : α) :
    (as ++ [a]).eraseDups = as.eraseDups ++ if a ∈ as then [] else [a] := by
  rw [List.eraseDups_append]
  by_cases ha : a ∈ as
  · simp [List.removeAll, ha]
  · simp [List.removeAll, ha, List.eraseDups_cons]

theorem eraseDups_filter (q : α → Bool) (as : List α) :
    (as.filter q).eraseDups = as.eraseDups.filter q := by
  induction as using List.reverseRecOn with
  | nil => rfl
  | append_singleton as a ih =>
      rw [List.filter_append, eraseDups_concat, List.filter_append, ← ih]
      by_cases hq : q a = true
      · rw [List.filter_cons_of_pos hq, List.filter_nil, eraseDups_concat]
        by_cases ha : a ∈ as
        · simp [ha, hq]
        · simp [ha, hq]
      · rw [List.filter_cons_of_neg hq, List.filter_nil, List.append_nil]
        split <;> simp [hq]

/-- Of the second list remains what is not in the first. -/
theorem eraseDups_append_filter (as bs : List α) :
    (as ++ bs).eraseDups = as.eraseDups ++ bs.eraseDups.filter fun b => b ∉ as.eraseDups := by
  rw [List.eraseDups_append, List.removeAll, eraseDups_filter]
  congr 1
  apply List.filter_congr
  intro b _
  simp [List.mem_eraseDups]

/-- What comes first for which there is something comes first whatever is repeated. -/
theorem findSome?_eraseDups {β : Type} (f : α → Option β) (as : List α) :
    as.eraseDups.findSome? f = as.findSome? f := by
  induction as using List.reverseRecOn with
  | nil => rfl
  | append_singleton as a ih =>
      rw [eraseDups_concat, List.findSome?_append, List.findSome?_append, ih]
      split
      · next ha =>
          -- if there is nothing for the others, there is nothing for the repeated one
          cases hfirst : as.findSome? f with
          | some b => rfl
          | none =>
              have hnone := List.findSome?_eq_none_iff.mp hfirst a ha
              rw [List.findSome?_cons, hnone]
      · rfl

theorem nodup_eraseDups (as : List α) : as.eraseDups.Nodup := by
  -- from the end, where an item stands only if it is not among those before it
  induction as using List.reverseRecOn with
  | nil => exact List.nodup_nil
  | append_singleton as a ih =>
      rw [eraseDups_concat]
      split
      · rwa [List.append_nil]
      · next ha =>
          rw [List.nodup_append]
          refine ⟨ih, by simp, fun b hb c hc => ?_⟩
          rw [List.mem_singleton] at hc
          rintro rfl
          exact ha (hc ▸ List.mem_eraseDups.mp hb)

end Repetition

/-! ## Texts in order -/

namespace Text

theorem pairwise_sorted (texts : List String) : (sorted texts).Pairwise fun a b => a ≤ b := by
  have h : (sorted texts).Pairwise fun a b => decide (a ≤ b) = true :=
    List.pairwise_mergeSort (fun a b c hab hbc => by
      rw [decide_eq_true_eq] at hab hbc ⊢
      exact String.le_trans hab hbc) (fun a b => by
      rw [Bool.or_eq_true, decide_eq_true_eq, decide_eq_true_eq]
      exact String.le_total a b) texts
  exact h.imp of_decide_eq_true

theorem nodup_sortedSet (texts : List String) : (sortedSet texts).Nodup :=
  (List.mergeSort_perm texts.eraseDups _).nodup_iff.mpr (nodup_eraseDups texts)

/-- The sorted list goes by what is in a list alone. -/
theorem sortedSet_congr {as bs : List String} (h : ∀ text, text ∈ as ↔ text ∈ bs) :
    sortedSet as = sortedSet bs := by
  have hperm : (sortedSet as).Perm (sortedSet bs) := by
    rw [List.perm_ext_iff_of_nodup (nodup_sortedSet as) (nodup_sortedSet bs)]
    intro text
    rw [mem_sortedSet, mem_sortedSet, h]
  exact hperm.eq_of_pairwise (fun _ _ _ _ hab hba => String.le_antisymm hab hba)
    (pairwise_sorted _) (pairwise_sorted _)

end Text

end ImportAudit
