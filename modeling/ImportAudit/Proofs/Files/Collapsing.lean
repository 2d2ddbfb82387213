/-
# ImportAudit.Proofs.Files.Collapsing — what path a text stands for.

The pieces between the slashes of a text are collapsed one at a time: an empty piece and a single
dot are dropped, a name is dropped with the two dots behind it, and two dots are dropped at a root,
where they lead nowhere (`Collapses`).  The names that are left are those of the path that the text
stands for (`StandsFor`).  Collapsing does not change what is left once nothing can be dropped
(`collapsed_of_collapses`), and it comes to an end (`collapses_names`), so in whatever order pieces
are dropped, a text stands for one path, its absolute path (`standsFor_iff`).
-/
import ImportAudit.Proofs.Files.Normal
import Mathlib.Logic.Relation

namespace ImportAudit

namespace Path

/-- The pieces of a text between its slashes. -/
def pieces (text : String) : List String := (splitAt '/' text.toList).map String.ofList

/-- Pieces behind a root, and the same with one thing less. -/
inductive Collapses : List String → List String → Prop
  | empty (before after : List String) : Collapses (before ++ "" :: after) (before ++ after)
  | dot (before after : List String) : Collapses (before ++ "." :: after) (before ++ after)
  | back (before after : List String) {name : String} (h : IsName name) :
      Collapses (before ++ name :: ".." :: after) (before ++ after)
  | top (after : List String) : Collapses (".." :: after) after

/-- A piece of a text is empty, dots or a name. -/
theorem pieces_cases {text piece : String} (h : piece ∈ pieces text) :
    piece = "" ∨ piece = "." ∨ piece = ".." ∨ IsName piece := by
  obtain ⟨cs, hcs, rfl⟩ := List.mem_map.mp h
  by_cases hempty : String.ofList cs = ""
  · exact .inl hempty
  by_cases hdot : String.ofList cs = "."
  · exact .inr (.inl hdot)
  by_cases hdots : String.ofList cs = ".."
  · exact .inr (.inr (.inl hdots))
  refine .inr (.inr (.inr ⟨hempty, hdot, hdots, ?_⟩))
  rw [String.toList_ofList]
  exact notMem_of_mem_splitAt hcs

end Path

namespace Files.Tree

open ImportAudit.Path (Collapses IsName)
open Relation (ReflTransGen)

/-- The names that pieces behind a root come to. -/
def collapsed (pieces : List String) : List String :=
  flatten [] ((pieces.filter (· ≠ "")).filter (· ≠ "."))

theorem flatten_append (done before after : List String) :
    flatten done (before ++ after) = flatten (flatten done before) after := by
  induction before generalizing done with
  | nil => rfl
  | cons part before ih =>
      by_cases hpart : part = ".."
      · rw [hpart, List.cons_append, flatten, flatten]
        exact ih done.dropLast
      · rw [List.cons_append, flatten_cons_of_ne hpart, flatten_cons_of_ne hpart]
        exact ih (done ++ [part])

theorem filter_names {names : List String} (h : ∀ name ∈ names, IsName name) :
    (names.filter (· ≠ "")).filter (· ≠ ".") = names := by
  rw [List.filter_filter, List.filter_eq_self]
  intro name hname
  simp [(h name hname).ne_empty, (h name hname).ne_dot]

/-- Names come to themselves. -/
theorem collapsed_names {names : List String} (h : ∀ name ∈ names, IsName name) :
    collapsed names = names := by
  rw [collapsed, filter_names h, flatten_names h, List.nil_append]

theorem collapsed_append (before after : List String) :
    collapsed (before ++ after) =
      flatten (collapsed before) ((after.filter (· ≠ "")).filter (· ≠ ".")) := by
  rw [collapsed, List.filter_append, List.filter_append, flatten_append, collapsed]

/-- What pieces come to stays the same when one of them is dropped. -/
theorem collapsed_eq {pieces fewer : List String} (h : Collapses pieces fewer) :
    collapsed pieces = collapsed fewer := by
  cases h with
  | empty before after =>
      rw [collapsed_append, collapsed_append]
      rfl
  | dot before after =>
      rw [collapsed_append, collapsed_append]
      rfl
  | @back before after name hname =>
      have hkept : ((name :: ".." :: after).filter (· ≠ "")).filter (· ≠ ".") =
          name :: ".." :: (after.filter (· ≠ "")).filter (· ≠ ".") := by
        simp [hname.ne_empty, hname.ne_dot]
      rw [collapsed_append, collapsed_append, hkept, flatten_cons_of_ne hname.ne_dots, flatten,
        List.dropLast_concat]
  | top after => rfl

/-- What is left when only names are left. -/
theorem collapsed_of_collapses {pieces names : List String}
    (h : ReflTransGen Collapses pieces names) (hnames : ∀ name ∈ names, IsName name) :
    collapsed pieces = names := by
  induction h using ReflTransGen.head_induction_on with
  | refl => exact collapsed_names hnames
  | head hstep _ ih => exact (collapsed_eq hstep).trans ih

/-- Pieces behind names can be collapsed until only names are left. -/
theorem collapses_names {pieces done : List String} (hdone : ∀ name ∈ done, IsName name)
    (h : ∀ piece ∈ pieces, piece = "" ∨ piece = "." ∨ piece = ".." ∨ IsName piece) :
    ReflTransGen Collapses (done ++ pieces)
      (flatten done ((pieces.filter (· ≠ "")).filter (· ≠ "."))) := by
  induction pieces generalizing done with
  | nil =>
      rw [List.append_nil]
      exact .refl
  | cons piece pieces ih =>
      have hrest := fun p hp => h p (List.mem_cons_of_mem piece hp)
      rcases h piece List.mem_cons_self with rfl | rfl | rfl | hname
      · exact .head (.empty done pieces) (ih hdone hrest)
      · exact .head (.dot done pieces) (ih hdone hrest)
      · show ReflTransGen Collapses _ (flatten done (".." :: _))
        rw [flatten]
        -- two dots take back the last name, if there is one
        obtain rfl | ⟨before, last, rfl⟩ := List.eq_nil_or_concat done
        · exact .head (.top pieces) (ih hdone hrest)
        · rw [List.concat_eq_append] at hdone ⊢
          have hlast : IsName last := hdone last (List.mem_append_right before List.mem_cons_self)
          have hbefore : ∀ name ∈ before, IsName name := fun name hmem =>
            hdone name (List.mem_append_left [last] hmem)
          rw [List.dropLast_concat, List.append_assoc, List.singleton_append]
          exact .head (.back before pieces hlast) (ih hbefore hrest)
      · have hkept : ((piece :: pieces).filter (· ≠ "")).filter (· ≠ ".") =
            piece :: (pieces.filter (· ≠ "")).filter (· ≠ ".") := by
          simp [hname.ne_empty, hname.ne_dot]
        rw [hkept, flatten_cons_of_ne hname.ne_dots, List.append_cons]
        refine ih (fun p hp => ?_) hrest
        rcases List.mem_append.mp hp with hp | hp
        · exact hdone p hp
        · rwa [List.mem_singleton.mp hp]

/-- A text stands for a path, seen from a working directory: the path begins at the root of the
text, or at that of the working directory, and has the names that are left of the pieces. -/
structure StandsFor (workingDir : Place) (text : String) (p : Path) : Prop where
  root : p.root = if (Path.ofString text).root = "" then "/" else (Path.ofString text).root
  names : ∀ name ∈ p.parts, IsName name
  collapses : ReflTransGen Collapses
    ((if (Path.ofString text).root = "" then workingDir else []) ++ Path.pieces text) p.parts

variable {workingDir : Place}

/-- The absolute path of a text has the names that its pieces come to. -/
theorem absolute_eq (hnames : ∀ name ∈ workingDir, IsName name) (text : String) :
    absolute workingDir text =
      ⟨if (Path.ofString text).root = "" then "/" else (Path.ofString text).root,
        collapsed ((if (Path.ofString text).root = "" then workingDir else []) ++
          Path.pieces text)⟩ := by
  rw [absolute, Path.pieces, collapsed_append, ← parts_eq_filter]
  by_cases hroot : (Path.ofString text).root = ""
  · rw [if_pos hroot, if_pos hroot, if_pos hroot, collapsed_names hnames]
  · rw [if_neg hroot, if_neg hroot, if_neg hroot, collapsed_names (List.forall_mem_nil _)]

/-- A text stands for one path, its absolute path. -/
theorem standsFor_iff (hnames : ∀ name ∈ workingDir, IsName name) {text : String} {p : Path} :
    StandsFor workingDir text p ↔ p = absolute workingDir text := by
  rw [absolute_eq hnames]
  constructor
  · intro h
    obtain ⟨root, parts⟩ := p
    rw [Path.mk.injEq]
    exact ⟨h.root, (collapsed_of_collapses h.collapses h.names).symm⟩
  · rintro rfl
    have hnormal := isNormal_absolute hnames text
    rw [absolute_eq hnames] at hnormal
    refine ⟨rfl, hnormal.names, ?_⟩
    show ReflTransGen Collapses _ (collapsed _)
    by_cases hroot : (Path.ofString text).root = ""
    · rw [if_pos hroot, collapsed_append, collapsed_names hnames]
      exact collapses_names hnames fun piece => Path.pieces_cases
    · rw [if_neg hroot, List.nil_append]
      exact collapses_names (List.forall_mem_nil _) fun piece => Path.pieces_cases

end Files.Tree

end ImportAudit
