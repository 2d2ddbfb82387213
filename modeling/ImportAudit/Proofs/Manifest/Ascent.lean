/-
# ImportAudit.Proofs.Manifest.Ascent — the search for the nearest manifest.

A manifest is looked for in a directory, then in its parent, and so on until a directory is its own
parent (`Ascends`).  The search comes to an end (`ascends_ancestors`), and how it ends says what
there is on the way: a manifest and none below it, or none at all, or a path that the system does
not look up and no manifest below it (`Ascends.outcome`, `Outcome.unique`).  It begins in the
directory that the start stands for, so starts that stand for the same directory have the same
manifest (`nearest_ascends`).
-/
import ImportAudit.Proofs.Files.Collapsing
import ImportAudit.Proofs.Manifest.Nearest

namespace ImportAudit

namespace Path

variable {p : Path}

/-- A path is its own parent if it has no parts. -/
theorem parent_eq_self_iff : p.parent = p ↔ p.parts = [] := by
  obtain ⟨root, parts⟩ := p
  rw [parent, Path.mk.injEq]
  show _ ∧ parts.dropLast = parts ↔ parts = []
  constructor
  · rintro ⟨-, hparts⟩
    have hlength := congrArg List.length hparts
    rw [List.length_dropLast] at hlength
    exact List.eq_nil_iff_length_eq_zero.mpr (by omega)
  · rintro rfl
    exact ⟨rfl, rfl⟩

theorem ancestors_of_noParts (h : p.parts = []) : p.ancestors = [p] := by
  obtain ⟨root, parts⟩ := p
  obtain rfl : parts = [] := h
  rfl

/-- Above a path are its parent and what is above that. -/
theorem ancestors_of_parts (h : p.parts ≠ []) : p.ancestors = p :: p.parent.ancestors := by
  obtain ⟨root, parts⟩ := p
  obtain ⟨before, last, rfl⟩ := (List.eq_nil_or_concat parts).resolve_left h
  have hself : List.take (before.length + 1) (before ++ [last]) = before ++ [last] :=
    List.take_of_length_le (by simp)
  rw [ancestors, ancestors, parent]
  dsimp only
  rw [List.concat_eq_append, List.dropLast_concat, List.length_append, List.length_singleton,
    List.range_succ, List.reverse_concat, List.map_cons, hself]
  refine congrArg (List.cons _) (List.map_congr_left fun n hn => ?_)
  have hn : n ≤ before.length := by
    have := List.mem_range.mp (List.mem_reverse.mp hn)
    omega
  rw [List.take_append_of_le_length hn]

/-- A root is reached after as many parents as there are parts, and no sooner. -/
theorem parent_iterate_eq_self_iff (p : Path) (n : Nat) :
    (parent^[n] p).parent = parent^[n] p ↔ p.parts.length ≤ n := by
  have hlength : (parent^[n] p).parts.length = p.parts.length - n := by
    induction n with
    | zero => rfl
    | succ n ih =>
        rw [Function.iterate_succ_apply']
        show ((parent^[n] p).parts.dropLast).length = _
        rw [List.length_dropLast, ih]
        omega
  rw [parent_eq_self_iff, List.eq_nil_iff_length_eq_zero, hlength]
  omega

end Path

namespace Files.Tree

variable {t : Tree} {workingDir : Place} {path : String}

/-- A path leads to something. -/
def Present (t : Tree) (workingDir : Place) (path : String) : Prop :=
  ∃ e, t.find workingDir path = .ok e

/-- A path leads to nothing, as far as the system says. -/
def Absent (t : Tree) (workingDir : Place) (path : String) : Prop :=
  ∃ r, isAbsence r = true ∧ t.find workingDir path = .error r

theorem hasEntry_of_present (h : t.Present workingDir path) :
    t.hasEntry workingDir path = .ok true := by
  obtain ⟨e, hfind⟩ := h
  rw [hasEntry, look, hfind]
  rfl

theorem hasEntry_of_absent (h : t.Absent workingDir path) :
    t.hasEntry workingDir path = .ok false := by
  obtain ⟨r, habsent, hfind⟩ := h
  rw [hasEntry, look, hfind]
  dsimp only
  rw [if_pos habsent]
  rfl

theorem hasEntry_of_refuses (h : t.Refuses workingDir path) :
    t.hasEntry workingDir path = .error ⟨.nameTooLong, path⟩ := by
  rw [hasEntry, look_of_refuses h]

/-- A path leads to something or to nothing, or the system does not look it up. -/
theorem present_or_absent_or_refuses (t : Tree) (workingDir : Place) (path : String) :
    t.Present workingDir path ∨ t.Absent workingDir path ∨ t.Refuses workingDir path := by
  cases hfind : t.find workingDir path with
  | ok e => exact .inl ⟨e, hfind⟩
  | error r =>
      refine .inr (or_iff_not_imp_right.mpr fun hkept => ⟨r, ?_, hfind⟩)
      obtain ⟨found, hlook, -⟩ := exists_look hkept
      rw [look, hfind] at hlook
      dsimp only at hlook
      split at hlook
      · assumption
      · cases hlook

theorem not_absent_of_present (h : t.Present workingDir path) : ¬t.Absent workingDir path := by
  intro habsent
  have hentry := hasEntry_of_present h
  rw [hasEntry_of_absent habsent] at hentry
  cases hentry

theorem not_absent_of_refuses (h : t.Refuses workingDir path) : ¬t.Absent workingDir path := by
  intro habsent
  have hentry := hasEntry_of_refuses h
  rw [hasEntry_of_absent habsent] at hentry
  cases hentry

theorem not_refuses_of_present (h : t.Present workingDir path) : ¬t.Refuses workingDir path := by
  intro hrefuses
  have hentry := hasEntry_of_present h
  rw [hasEntry_of_refuses hrefuses] at hentry
  cases hentry

end Files.Tree

namespace Manifest

open Files

variable {t : Tree} {workingDir : Place} {p : Path} {result : Except Files.Fault (Option Path)}

/-- Where the manifest of a directory would be. -/
def placeIn (directory : Path) : String := (directory.child fileName).toString

theorem isName_fileName : Path.IsName fileName := by decide +kernel

/-- How a search goes that begins in a directory, and what it ends with. -/
inductive Ascends (t : Tree) (workingDir : Place) :
    Path → Except Files.Fault (Option Path) → Prop
  | found {p : Path} (h : t.Present workingDir (placeIn p)) :
      Ascends t workingDir p (.ok (some (p.child fileName)))
  | refused {p : Path} (h : t.Refuses workingDir (placeIn p)) :
      Ascends t workingDir p (.error ⟨.nameTooLong, placeIn p⟩)
  | top {p : Path} (h : t.Absent workingDir (placeIn p)) (htop : p.parent = p) :
      Ascends t workingDir p (.ok none)
  | up {p : Path} {result : Except Files.Fault (Option Path)}
      (h : t.Absent workingDir (placeIn p)) (hup : p.parent ≠ p)
      (hrest : Ascends t workingDir p.parent result) : Ascends t workingDir p result

/-- From every directory the search comes to an end. -/
theorem ascends_ancestors (t : Tree) (workingDir : Place) (p : Path) :
    Ascends t workingDir p (t.firstPresent workingDir (p.ancestors.map (·.child fileName))) := by
  -- a parent has one part less
  induction hlength : p.parts.length generalizing p with
  | zero =>
      have hnone := List.eq_nil_iff_length_eq_zero.mpr hlength
      rw [Path.ancestors_of_noParts hnone, List.map_singleton, Tree.firstPresent]
      rcases t.present_or_absent_or_refuses workingDir (placeIn p) with hhere | hhere | hhere
      · rw [← placeIn, Tree.hasEntry_of_present hhere]
        exact .found hhere
      · rw [← placeIn, Tree.hasEntry_of_absent hhere]
        exact .top hhere (Path.parent_eq_self_iff.mpr hnone)
      · rw [← placeIn, Tree.hasEntry_of_refuses hhere]
        exact .refused hhere
  | succ n ih =>
      have hsome : p.parts ≠ [] := fun hnone => by
        rw [hnone] at hlength
        cases hlength
      have hparent : p.parent.parts.length = n := by
        show p.parts.dropLast.length = n
        rw [List.length_dropLast]
        omega
      rw [Path.ancestors_of_parts hsome, List.map_cons, Tree.firstPresent]
      rcases t.present_or_absent_or_refuses workingDir (placeIn p) with hhere | hhere | hhere
      · rw [← placeIn, Tree.hasEntry_of_present hhere]
        exact .found hhere
      · rw [← placeIn, Tree.hasEntry_of_absent hhere]
        exact .up hhere (fun hself => hsome (Path.parent_eq_self_iff.mp hself)) (ih _ hparent)
      · rw [← placeIn, Tree.hasEntry_of_refuses hhere]
        exact .refused hhere

/-- What the end of a search says about the directories from its beginning up. -/
inductive Outcome (t : Tree) (workingDir : Place) (p : Path) :
    Except Files.Fault (Option Path) → Prop
  | found (n : Nat) (h : t.Present workingDir (placeIn (Path.parent^[n] p)))
      (hcloser : ∀ m < n, t.Absent workingDir (placeIn (Path.parent^[m] p))) :
      Outcome t workingDir p (.ok (some ((Path.parent^[n] p).child fileName)))
  | none (h : ∀ n, t.Absent workingDir (placeIn (Path.parent^[n] p))) :
      Outcome t workingDir p (.ok none)
  | refused (n : Nat) (h : t.Refuses workingDir (placeIn (Path.parent^[n] p)))
      (hcloser : ∀ m < n, t.Absent workingDir (placeIn (Path.parent^[m] p))) :
      Outcome t workingDir p (.error ⟨.nameTooLong, placeIn (Path.parent^[n] p)⟩)

/-- How a search ends says what there is on the way. -/
theorem Ascends.outcome (h : Ascends t workingDir p result) : Outcome t workingDir p result := by
  induction h with
  | found h => exact .found 0 h nofun
  | refused h => exact .refused 0 h nofun
  | @top p h htop =>
      refine .none fun n => ?_
      rwa [Function.iterate_fixed htop]
  | @up p result h hup hrest ih =>
      have hcloser : ∀ {n}, (∀ m < n, t.Absent workingDir (placeIn (Path.parent^[m] p.parent))) →
          ∀ m < n + 1, t.Absent workingDir (placeIn (Path.parent^[m] p)) := fun hall m hm => by
        cases m with
        | zero => exact h
        | succ m => exact hall m (by omega)
      cases ih with
      | found n hn hall => exact .found (n + 1) hn (hcloser hall)
      | none hall =>
          refine .none fun n => hcloser (n := n) (fun m _ => hall m) n (by omega)
      | refused n hn hall => exact .refused (n + 1) hn (hcloser hall)

/-- A search stops in one directory only. -/
theorem eq_of_closer {n n' : Nat}
    (h : ¬t.Absent workingDir (placeIn (Path.parent^[n] p)))
    (hcloser : ∀ m < n, t.Absent workingDir (placeIn (Path.parent^[m] p)))
    (h' : ¬t.Absent workingDir (placeIn (Path.parent^[n'] p)))
    (hcloser' : ∀ m < n', t.Absent workingDir (placeIn (Path.parent^[m] p))) : n = n' := by
  rcases Nat.lt_trichotomy n n' with hlt | heq | hgt
  · exact absurd (hcloser' n hlt) h
  · exact heq
  · exact absurd (hcloser n' hgt) h'

/-- What there is on the way leaves one end for a search. -/
theorem Outcome.unique {result result' : Except Files.Fault (Option Path)}
    (h : Outcome t workingDir p result) (h' : Outcome t workingDir p result') :
    result = result' := by
  cases h with
  | found n hn hcloser =>
      have hstop := Tree.not_absent_of_present hn
      cases h' with
      | found n' hn' hcloser' =>
          rw [eq_of_closer hstop hcloser (Tree.not_absent_of_present hn') hcloser']
      | none hall => exact absurd (hall n) hstop
      | refused n' hn' hcloser' =>
          obtain rfl := eq_of_closer hstop hcloser (Tree.not_absent_of_refuses hn') hcloser'
          exact absurd hn' (Tree.not_refuses_of_present hn)
  | none hall =>
      cases h' with
      | found n' hn' _ => exact absurd (hall n') (Tree.not_absent_of_present hn')
      | none _ => rfl
      | refused n' hn' _ => exact absurd (hall n') (Tree.not_absent_of_refuses hn')
  | refused n hn hcloser =>
      have hstop := Tree.not_absent_of_refuses hn
      cases h' with
      | found n' hn' hcloser' =>
          obtain rfl := eq_of_closer hstop hcloser (Tree.not_absent_of_present hn') hcloser'
          exact absurd hn (Tree.not_refuses_of_present hn')
      | none hall => exact absurd (hall n) hstop
      | refused n' hn' hcloser' =>
          rw [eq_of_closer hstop hcloser (Tree.not_absent_of_refuses hn') hcloser']

/-- Above a path that is normal there are such paths only. -/
theorem isNormal_iterate (h : p.IsNormal) (n : Nat) : (Path.parent^[n] p).IsNormal := by
  induction n with
  | zero => exact h
  | succ n ih =>
      rw [Function.iterate_succ_apply']
      exact ⟨ih.root, fun part hpart => ih.names part (List.dropLast_subset _ hpart)⟩

theorem isRead_child (h : p.IsNormal) : (p.child fileName).IsRead := by
  refine ⟨.inr h.root, fun part hpart => .inr ?_⟩
  rcases List.mem_append.mp hpart with hpart | hpart
  · exact h.names part hpart
  · rw [List.mem_singleton.mp hpart]
    exact isName_fileName

/-- In a sound tree without links, only its length keeps the system from looking up where the
manifest of a directory would be, or the length of a name on the way to it. -/
theorem isTooLong_of_refuses (hsound : t.Sound) (hlinks : t.LinkFree) (hp : p.IsNormal)
    (h : t.Refuses workingDir (placeIn p)) :
    Tree.maxPath < (placeIn p).utf8ByteSize ∨
      ∃ name ∈ p.parts, Tree.maxName < name.utf8ByteSize := by
  refine (Tree.isTooLong_of_refuses (isRead_child hp) hsound hlinks h).imp_right ?_
  rintro ⟨part, hpart, hlong⟩
  rcases List.mem_append.mp hpart with hpart | hpart
  · exact ⟨part, hpart, hlong⟩
  · -- the name of a manifest is short
    rw [List.mem_singleton.mp hpart] at hlong
    exact absurd hlong (by decide)

/-- A tree with a manifest above a directory that has none. -/
def lonely : Tree where
  entries := [(["home"], .directory), (["home", "package.json"], .file []),
    (["home", "app"], .directory)]

/-- Where the manifest of a directory would be is not looked up if a name on the way is too long. -/
theorem refuses_of_longName {name : String} (hname : Path.IsName name)
    (hlong : Tree.maxName < name.utf8ByteSize) :
    t.Refuses workingDir (placeIn ⟨"/", [name]⟩) := by
  have hread : (Path.child ⟨"/", [name]⟩ fileName).IsRead :=
    isRead_child ⟨.inl rfl, fun part hpart => List.mem_singleton.mp hpart ▸ hname⟩
  have hsome : placeIn ⟨"/", [name]⟩ ≠ "" := by
    have hne := Tree.toString_ne_empty (placeIn ⟨"/", [name]⟩)
    rwa [placeIn, Path.ofString_toString hread] at hne
  have hsteps : Tree.steps (placeIn ⟨"/", [name]⟩) = (true, [name, fileName]) :=
    Tree.steps_toString hread (List.cons_ne_nil _ _)
  unfold Tree.Refuses Tree.locate
  rw [if_neg hsome]
  split
  · rfl
  · rw [hsteps]
    unfold Tree.maxLinks Tree.follow
    show Tree.walk _ _ _ _ _ [name, fileName] = _
    rw [Tree.walk, if_neg hname.ne_dot, if_neg hname.ne_dots, if_pos hlong]

end Manifest

end ImportAudit
