/-
# ImportAudit.Text.Sorted — texts in order, each once.

Where an answer is a set of texts it is given in the order of code points, without repetitions.
-/

namespace ImportAudit.Text

/-- The texts in the order of code points. -/
def sorted (texts : List String) : List String := texts.mergeSort fun a b => decide (a ≤ b)

/-- The texts in the order of code points, each once. -/
def sortedSet (texts : List String) : List String := sorted texts.eraseDups

theorem mem_sorted {s : String} {texts : List String} : s ∈ sorted texts ↔ s ∈ texts :=
  List.mem_mergeSort

theorem mem_sortedSet {s : String} {texts : List String} : s ∈ sortedSet texts ↔ s ∈ texts := by
  simp [sortedSet, mem_sorted]

end ImportAudit.Text
