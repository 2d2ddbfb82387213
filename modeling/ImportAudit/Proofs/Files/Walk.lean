/-
# ImportAudit.Proofs.Files.Walk — what a walk through directories finds.

In a sound tree every entry lies in directories, each of which has one entry (`directory_of_mem`).  A
walk goes from directory to directory and leaves those out that are excluded; what it finds is what
lies below the directory it starts from, has the name of a source file, and has no excluded directory
above it (`mem_walk`), as long as the paths of the directories on the way are not too long for the
system.  The proof is by induction on the number of directories that may be entered one in the other,
which the depth of the tree bounds.
-/
import ImportAudit.Files.Discovery
import ImportAudit.Proofs.Files.Absolute
import Mathlib.Data.List.Induction

namespace ImportAudit.Files

namespace Tree

/-! ## Sound trees -/

/-- Each place has one entry, what leads to it are names, and what holds an entry is a directory. -/
structure Sound (t : Tree) : Prop where
  once : (t.entries.map Prod.fst).Nodup
  ne_root : ∀ e ∈ t.entries, e.1 ≠ []
  names : ∀ e ∈ t.entries, ∀ name ∈ e.1, Path.IsName name
  inDirectory : ∀ e ∈ t.entries, e.1.dropLast ≠ [] → (e.1.dropLast, .directory) ∈ t.entries

/-- No entry is a link. -/
def LinkFree (t : Tree) : Prop := ∀ e ∈ t.entries, ∀ target, e.2 ≠ .link target

variable {t : Tree} {place : Place} {e : Entry}

theorem lookup_eq_some_iff {entries : List (Place × Entry)} (h : (entries.map Prod.fst).Nodup) :
    entries.lookup place = some e ↔ (place, e) ∈ entries := by
  induction entries with
  | nil => simp
  | cons d entries ih =>
      obtain ⟨p, f⟩ := d
      rw [List.map_cons, List.nodup_cons] at h
      rw [List.lookup_cons, List.mem_cons, Prod.mk.injEq]
      by_cases hp : place = p
      · subst hp
        rw [beq_self_eq_true]
        constructor
        · intro heq
          exact .inl ⟨rfl, (Option.some.inj heq).symm⟩
        · rintro (⟨-, rfl⟩ | hmem)
          · rfl
          · exact absurd (List.mem_map_of_mem (f := Prod.fst) hmem) h.1
      · rw [beq_false_of_ne hp]
        simp only [hp, false_and, false_or]
        exact ih h.2

/-- What is in a place is its entry. -/
theorem Sound.entry?_eq_some_iff (h : t.Sound) (hne : place ≠ []) :
    t.entry? place = some e ↔ (place, e) ∈ t.entries := by
  unfold entry?
  rw [if_neg hne, lookup_eq_some_iff h.once]

/-- Every place on the way to an entry is that of a directory. -/
theorem Sound.directory_of_mem (h : t.Sound) {below : Place} (hmem : (place ++ below, e) ∈ t.entries)
    (hplace : place ≠ []) (hbelow : below ≠ []) : (place, .directory) ∈ t.entries := by
  -- from the end, name by name
  induction below using List.reverseRecOn generalizing e with
  | nil => exact absurd rfl hbelow
  | append_singleton names name ih =>
      have habove := h.inDirectory _ hmem
      simp only [← List.append_assoc, List.dropLast_concat] at habove
      have hne : place ++ names ≠ [] := by
        intro hnil
        exact hplace (List.append_eq_nil_iff.mp hnil).1
      by_cases hnames : names = []
      · subst hnames
        simpa using habove hne
      · exact ih (habove hne) hnames

/-! ## Children -/

theorem nameIn?_eq_some_iff {directory place : Place} {name : String} :
    nameIn? directory place = some name ↔ place = directory ++ [name] := by
  induction directory generalizing place with
  | nil =>
      cases place with
      | nil => simp [nameIn?]
      | cons p ps =>
          cases ps with
          | nil => simp [nameIn?]
          | cons q qs => simp [nameIn?]
  | cons d ds ih =>
      cases place with
      | nil => simp [nameIn?]
      | cons p ps =>
          rw [nameIn?, List.cons_append, List.cons.injEq]
          split
          · next hd => rw [ih, hd]; simp
          · next hd => simp [Ne.symm hd]

theorem mem_children {directory : Place} {name : String} :
    (name, e) ∈ t.children directory ↔ (directory ++ [name], e) ∈ t.entries := by
  unfold children
  rw [List.mem_filterMap]
  constructor
  · rintro ⟨⟨place, f⟩, hmem, hname⟩
    obtain ⟨n, hn, heq⟩ := Option.map_eq_some_iff.mp hname
    obtain ⟨rfl, rfl⟩ := Prod.mk.inj heq
    have hplace : place = directory ++ [n] := nameIn?_eq_some_iff.mp hn
    rwa [hplace] at hmem
  · intro hmem
    refine ⟨_, hmem, ?_⟩
    rw [nameIn?_eq_some_iff.mpr rfl]
    rfl

/-- No entry lies deeper than the tree is deep. -/
theorem length_le_depth (h : (place, e) ∈ t.entries) : place.length ≤ t.depth := by
  unfold depth
  generalize t.entries = entries at h ⊢
  induction entries with
  | nil => cases h
  | cons d entries ih =>
      rw [List.foldr_cons]
      rcases List.mem_cons.mp h with rfl | hrest
      · exact Nat.le_max_left _ _
      · exact Nat.le_trans (ih hrest) (Nat.le_max_right _ _)

end Tree

namespace Discovery

variable {t : Tree} {endings excluded : List String}

/-! ## Paths -/

/-- The path of what names lead to from a directory. -/
def joinedAll (path : String) (names : List String) : String := names.foldl joined path

/-- A slash is put between a path and a name unless there is one. -/
theorem utf8ByteSize_joined (path name : String) :
    path.utf8ByteSize + name.utf8ByteSize ≤ (joined path name).utf8ByteSize ∧
      (joined path name).utf8ByteSize ≤ path.utf8ByteSize + name.utf8ByteSize + 1 := by
  have hslash : "/".utf8ByteSize = 1 := by decide
  unfold joined
  split
  · rw [String.utf8ByteSize_append]
    omega
  · rw [String.utf8ByteSize_append, String.utf8ByteSize_append, hslash]
    omega

/-- A path grows with the names that are joined to it. -/
theorem utf8ByteSize_le_joinedAll (path : String) (names : List String) :
    path.utf8ByteSize ≤ (joinedAll path names).utf8ByteSize := by
  unfold joinedAll
  induction names generalizing path with
  | nil => exact Nat.le_refl _
  | cons name names ih =>
      have hjoined := (utf8ByteSize_joined path name).1
      exact Nat.le_trans (Nat.le_trans (Nat.le_add_right _ _) hjoined) (ih _)

/-! ## Walking -/

/-- One step of a walk: what is found in a directory lies right there, or below a directory in it
that is not excluded. -/
theorem mem_walk_succ {path : String} (hpath : path.utf8ByteSize ≤ Tree.maxPath) (depth : Nat)
    (place way : Place) :
    way ∈ walk t endings excluded (depth + 1) path place ↔
      (∃ name e, way = [name] ∧ (place ++ [name], e) ∈ t.entries ∧
        isFile t (place ++ [name]) e = true ∧ isSource endings name = true) ∨
      ∃ d rest, way = d :: rest ∧ (place ++ [d], .directory) ∈ t.entries ∧ d ∉ excluded ∧
        rest ∈ walk t endings excluded depth (joined path d) (place ++ [d]) := by
  rw [walk, if_neg (Nat.not_lt.mpr hpath)]
  simp only [List.mem_append, List.mem_map, List.mem_flatMap, List.mem_filter, Bool.and_eq_true,
    decide_eq_true_eq, Bool.not_eq_true', Prod.exists, Tree.mem_children, List.contains_eq_mem,
    decide_eq_false_iff_not]
  constructor
  · rintro (⟨name, e, ⟨hmem, hfile, hsource⟩, rfl⟩ | ⟨d, e, ⟨hmem, rfl, hkept⟩, rest, hrest, rfl⟩)
    · exact .inl ⟨name, e, rfl, hmem, hfile, hsource⟩
    · exact .inr ⟨d, rest, rfl, hmem, hkept, hrest⟩
  · rintro (⟨name, e, rfl, hmem, hfile, hsource⟩ | ⟨d, rest, rfl, hmem, hkept, hrest⟩)
    · exact .inl ⟨name, e, ⟨hmem, hfile, hsource⟩, rfl⟩
    · exact .inr ⟨d, .directory, ⟨hmem, rfl, hkept⟩, rest, hrest, rfl⟩

/-- Nothing is found in a directory whose path is too long. -/
theorem notMem_walk {path : String} (hpath : ¬path.utf8ByteSize ≤ Tree.maxPath) (depth : Nat)
    (place way : Place) : way ∉ walk t endings excluded depth path place := by
  cases depth with
  | zero => exact List.not_mem_nil
  | succ depth =>
      rw [walk, if_pos (Nat.lt_of_not_le hpath)]
      exact List.not_mem_nil

/-- What a walk finds: the files below the directory whose names are those of source files, which
have no excluded directory above them, in directories whose paths are not too long. -/
theorem mem_walk (hsound : t.Sound) (depth : Nat) (path : String) (place way : Place)
    (hdepth : t.depth < place.length + depth) :
    way ∈ walk t endings excluded depth path place ↔
      ∃ names name e, way = names ++ [name] ∧ (place ++ way, e) ∈ t.entries ∧
        isFile t (place ++ way) e = true ∧ (∀ d ∈ names, d ∉ excluded) ∧
        isSource endings name = true ∧
        (joinedAll path names).utf8ByteSize ≤ Tree.maxPath := by
  induction depth generalizing path place way with
  | zero =>
      constructor
      · intro hmem
        cases hmem
      · rintro ⟨names, name, e, rfl, hmem, -⟩
        -- nothing lies as deep as this
        have hlength := Tree.length_le_depth hmem
        simp only [List.length_append, List.length_cons] at hlength
        omega
  | succ depth ih =>
      have hdeeper : ∀ name : String, t.depth < (place ++ [name]).length + depth := by
        intro name
        rw [List.length_append, List.length_singleton]
        omega
      by_cases hpath : path.utf8ByteSize ≤ Tree.maxPath
      · rw [mem_walk_succ hpath]
        constructor
        · rintro (⟨name, e, rfl, hmem, hfile, hsource⟩ | ⟨d, rest, rfl, -, hkept, hrest⟩)
          · exact ⟨[], name, e, rfl, hmem, hfile, nofun, hsource, hpath⟩
          · rw [ih _ _ _ (hdeeper d)] at hrest
            obtain ⟨names, name, e, rfl, hmem, hfile, hnames, hsource, hshort⟩ := hrest
            rw [List.append_assoc] at hmem hfile
            refine ⟨d :: names, name, e, rfl, hmem, hfile, ?_, hsource, hshort⟩
            intro n hn
            rcases List.mem_cons.mp hn with rfl | hlater
            · exact hkept
            · exact hnames n hlater
        · rintro ⟨names, name, e, rfl, hmem, hfile, hnames, hsource, hshort⟩
          cases names with
          | nil => exact .inl ⟨name, e, rfl, hmem, hfile, hsource⟩
          | cons d names =>
              -- the first name is that of a directory, because something lies below it
              have hassoc : place ++ (d :: names ++ [name]) =
                  place ++ [d] ++ (names ++ [name]) := by simp
              rw [hassoc] at hmem hfile
              have hdirectory : (place ++ [d], .directory) ∈ t.entries :=
                hsound.directory_of_mem hmem (by simp) (by simp)
              refine .inr ⟨d, names ++ [name], rfl, hdirectory, hnames d List.mem_cons_self, ?_⟩
              rw [ih _ _ _ (hdeeper d)]
              exact ⟨names, name, e, rfl, hmem, hfile,
                fun n hn => hnames n (List.mem_cons_of_mem d hn), hsource, hshort⟩
      · constructor
        · intro hmem
          exact absurd hmem (notMem_walk hpath _ place way)
        · rintro ⟨names, name, e, -, -, -, -, -, hshort⟩
          exact absurd (Nat.le_trans (utf8ByteSize_le_joinedAll path names) hshort) hpath

end Discovery

end ImportAudit.Files
