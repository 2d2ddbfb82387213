/-
# ImportAudit.Proofs.Files.Discovery — which files paths stand for.

What paths stand for is found in any tree, unless one of them is refused (`find_eq_ok_iff`).  Let a
tree be sound and have no links.  Then only its length keeps a path from being looked up
(`isTooLong_of_refuses`).  A path that is not refused stands for itself, if it leads to a file, or
for the files that a walk finds below it (`exists_ofPath`), and paths stand for what each of them
stands for (`exists_find`).  What is found is put in order, so it does not matter in which order the
paths are given and how often (`AreFound.congr`), and paths behind other ones add what they stand
for (`AreFound.append`).
-/
import ImportAudit.Proofs.Files.Order
import ImportAudit.Proofs.Files.Walk

namespace ImportAudit.Files

namespace Tree

variable {t : Tree} {workingDir : Place}

/-! ## What is refused -/

/-- The system does not look a path up because it is too long. -/
def Refuses (t : Tree) (workingDir : Place) (path : String) : Prop :=
  t.locate true false workingDir path = .error .nameTooLong

/-- A sound tree without links leads to no link. -/
theorem LinkFree.entry?_ne_link (hlinks : t.LinkFree) (hsound : t.Sound) (place : Place)
    (target : String) : t.entry? place ≠ some (.link target) := by
  intro hentry
  by_cases hroot : place = []
  · unfold entry? at hentry
    rw [if_pos hroot] at hentry
    cases hentry
  · exact hlinks _ ((hsound.entry?_eq_some_iff hroot).mp hentry) target rfl

/-- What a name does to a walk, whatever stands behind it: it leads on, it leads nowhere, it leads to
a file, behind which there must be nothing, or it leads to a link, from which on the walk is another
one. -/
inductive Leads (t : Tree) (place : Place) (name : String) : Prop
  | on (next : Place) (h : ∀ again names, t.walk true false again place (name :: names) =
      t.walk true false again next names)
  | nowhere (r : Refusal)
      (why : isAbsence r = true ∨ r = .nameTooLong ∧ maxName < name.utf8ByteSize)
      (h : ∀ again names, t.walk true false again place (name :: names) = .error r)
  | toFile (next : Place) (h : ∀ again names, t.walk true false again place (name :: names) =
      if names = [] then .ok next else .error .notDirectory)
  | toLink (target : String) (start : Place)
      (entry : t.entry? (place ++ [name]) = some (.link target))
      (h : ∀ again names, t.walk true false again place (name :: names) =
        again start ((steps target).2 ++ names))

theorem leads (t : Tree) (place : Place) (name : String) : t.Leads place name := by
  by_cases hdot : name = "."
  · exact .on place fun again names => by rw [walk, if_pos hdot]
  by_cases hdots : name = ".."
  · exact .on place.dropLast fun again names => by rw [walk, if_neg hdot, if_pos hdots]
  by_cases hlong : maxName < name.utf8ByteSize
  · refine .nowhere .nameTooLong (.inr ⟨rfl, hlong⟩) fun again names => ?_
    rw [walk, if_neg hdot, if_neg hdots, if_pos hlong]
  -- a plain name is looked up
  cases hentry : t.entry? (place ++ [name]) with
  | none =>
      refine .nowhere .noEntry (.inl rfl) fun again names => ?_
      rw [walk, if_neg hdot, if_neg hdots, if_neg hlong]
      simp [hentry]
  | some e =>
      cases e with
      | directory =>
          refine .on (place ++ [name]) fun again names => ?_
          rw [walk, if_neg hdot, if_neg hdots, if_neg hlong]
          simp [hentry]
      | file bytes =>
          refine .toFile (place ++ [name]) fun again names => ?_
          rw [walk, if_neg hdot, if_neg hdots, if_neg hlong]
          simp [hentry]
      | link target =>
          refine .toLink target (if (steps target).1 then [] else place) hentry fun again names => ?_
          rw [walk, if_neg hdot, if_neg hdots, if_neg hlong]
          simp [hentry]

/-- Where names lead nowhere, there is nothing, or one of the names is too long, or they lead to a
link and what it stands for leads nowhere. -/
theorem walk_eq_error {again : Place → List String → Except Refusal Place} {place : Place}
    {names : List String} {r : Refusal} (h : t.walk true false again place names = .error r) :
    isAbsence r = true ∨ (r = .nameTooLong ∧ ∃ name ∈ names, maxName < name.utf8ByteSize) ∨
      ∃ link target next further,
        t.entry? link = some (.link target) ∧ again next further = .error r := by
  induction names generalizing place with
  | nil => cases h
  | cons name names ih =>
      cases t.leads place name with
      | on next hon =>
          rw [hon] at h
          rcases ih h with habsent | ⟨hr, n, hn, hlong⟩ | hlink
          · exact .inl habsent
          · exact .inr (.inl ⟨hr, n, List.mem_cons_of_mem name hn, hlong⟩)
          · exact .inr (.inr hlink)
      | nowhere r' hwhy hnowhere =>
          rw [hnowhere] at h
          obtain rfl := Except.error.inj h
          rcases hwhy with habsent | ⟨hr, hlong⟩
          · exact .inl habsent
          · exact .inr (.inl ⟨hr, name, List.mem_cons_self, hlong⟩)
      | toFile next hfile =>
          rw [hfile] at h
          split at h
          · cases h
          · cases h
            exact .inl rfl
      | toLink target start hentry hlink =>
          rw [hlink] at h
          exact .inr (.inr ⟨_, target, _, _, hentry, h⟩)

/-- Through any number of links, names lead nowhere because there is nothing or because a name is
too long. -/
theorem follow_eq_error {links : Nat} {place : Place} {names : List String} {r : Refusal}
    (h : t.follow true false links place names = .error r) :
    isAbsence r = true ∨ r = .nameTooLong := by
  induction links generalizing place names with
  | zero =>
      rcases walk_eq_error h with habsent | ⟨hr, -⟩ | ⟨_, _, _, _, -, hlinks⟩
      · exact .inl habsent
      · exact .inr hr
      · cases hlinks
        exact .inl rfl
  | succ links ih =>
      rcases walk_eq_error h with habsent | ⟨hr, -⟩ | ⟨_, _, _, _, -, hfurther⟩
      · exact .inl habsent
      · exact .inr hr
      · exact ih hfurther

/-- A path that leads nowhere leads to nothing, or it is refused. -/
theorem isAbsence_of_locate {path : String} {r : Refusal}
    (h : t.locate true false workingDir path = .error r) (hkept : ¬t.Refuses workingDir path) :
    isAbsence r = true := by
  have hlocate := h
  unfold locate at h
  by_cases hempty : path = ""
  · rw [if_pos hempty] at h
    cases h
    rfl
  rw [if_neg hempty] at h
  by_cases hlong : maxPath < path.utf8ByteSize
  · rw [if_pos hlong] at h
    cases h
    exact absurd hlocate hkept
  rw [if_neg hlong] at h
  rcases follow_eq_error h with habsent | rfl
  · exact habsent
  · exact absurd hlocate hkept

/-- A path is refused only if its text is too long, or one of its parts is. -/
theorem isTooLong_of_refuses {p : Path} (hread : p.IsRead) (hsound : t.Sound) (hlinks : t.LinkFree)
    (h : t.Refuses workingDir p.toString) :
    maxPath < p.toString.utf8ByteSize ∨ ∃ part ∈ p.parts, maxName < part.utf8ByteSize := by
  unfold Refuses locate at h
  by_cases hempty : p.toString = ""
  · rw [if_pos hempty] at h
    cases h
  rw [if_neg hempty] at h
  by_cases hlong : maxPath < p.toString.utf8ByteSize
  · exact .inl hlong
  rw [if_neg hlong] at h
  unfold maxLinks follow at h
  rcases walk_eq_error h with habsent | ⟨-, name, hname, hover⟩ | ⟨link, target, _, _, hlink, -⟩
  · cases habsent
  · have hfollowed : name ∈ (steps p.toString).2 := hname
    refine .inr ⟨name, ?_, hover⟩
    by_cases hnone : p.parts = []
    · -- a path without parts is a dot or a root
      have hshort : ∀ root ∈ ["", "/", "//"], ∀ name ∈ (steps (Path.toString ⟨root, []⟩)).2,
          name.utf8ByteSize ≤ maxName := by decide +kernel
      obtain ⟨root, parts⟩ := p
      obtain rfl : parts = [] := hnone
      have hroot : root ∈ ["", "/", "//"] := by simpa using hread.root
      exact absurd hover (Nat.not_lt.mpr (hshort root hroot name hfollowed))
    · rwa [steps_toString hread hnone] at hfollowed
  · exact absurd hlink (hlinks.entry?_ne_link hsound link target)

/-- A name that is too long is refused. -/
theorem refuses_name {name : String} (h : Path.IsName name) (hlong : maxName < name.utf8ByteSize) :
    t.Refuses workingDir name := by
  have hsteps := steps_toString h.isRead (List.cons_ne_nil _ _)
  rw [Path.toString_name] at hsteps
  unfold Refuses locate
  rw [if_neg h.ne_empty]
  split
  · rfl
  · rw [hsteps]
    unfold maxLinks follow
    show walk _ _ _ _ _ [name] = _
    rw [walk, if_neg h.ne_dot, if_neg h.ne_dots, if_pos hlong]

theorem look_of_refuses {path : String} (h : t.Refuses workingDir path) :
    t.look workingDir path = .error ⟨.nameTooLong, path⟩ := by
  unfold Refuses at h
  unfold look find
  rw [h]
  rfl

/-- A path that is not refused leads to an entry or to nothing. -/
theorem exists_look {path : String} (h : ¬t.Refuses workingDir path) :
    ∃ found, t.look workingDir path = .ok found ∧
      ∀ e, found = some e ↔ t.find workingDir path = .ok e := by
  cases hfind : t.find workingDir path with
  | ok e =>
      refine ⟨some e, by rw [look, hfind], fun d => ?_⟩
      rw [Option.some.injEq, Except.ok.injEq]
  | error r =>
      -- the path is not refused, so what is in the way is an absence
      have habsent : isAbsence r = true := by
        unfold find at hfind
        split at hfind
        · next r' hlocate =>
            obtain rfl := Except.error.inj hfind
            exact isAbsence_of_locate hlocate h
        · split at hfind
          · cases hfind
          · cases hfind
            rfl
      refine ⟨none, ?_, fun d => ?_⟩
      · rw [look, hfind]
        exact if_pos habsent
      · constructor <;> intro hd <;> cases hd

end Tree

namespace Discovery

open ImportAudit.Path (ofString)

variable {t : Tree} {workingDir : Place} {endings excluded : List String}

/-! ## One path -/

/-- The files that a path stands for: itself, if it leads to a file, or, if it leads to a directory,
what lies below it in directories that are not excluded, has one of the endings, and does not only
declare types.  The paths of the directories on the way are short enough for the system. -/
inductive Finds (t : Tree) (workingDir : Place) (endings excluded : List String) (path : Path) :
    Path → Prop
  | itself {bytes : List UInt8} (hfile : t.find workingDir path.toString = .ok (.file bytes)) :
      Finds t workingDir endings excluded path path
  | below {place names : List String} {name : String} {bytes : List UInt8}
      (hdirectory : t.enter workingDir path.toString = .ok place)
      (hfile : (place ++ (names ++ [name]), .file bytes) ∈ t.entries)
      (hkept : ∀ d ∈ names, d ∉ excluded)
      (hdeclares : ¬declarations.toList <:+ name.toList)
      (hending : Text.lower (Path.suffixOf name) ∈ endings)
      (hshort : (joinedAll path.toString names).utf8ByteSize ≤ Tree.maxPath) :
      Finds t workingDir endings excluded path { path with parts := path.parts ++ (names ++ [name]) }

theorem isSource_iff {name : String} :
    isSource endings name = true ↔
      ¬declarations.toList <:+ name.toList ∧ Text.lower (Path.suffixOf name) ∈ endings := by
  rw [isSource, Bool.and_eq_true, Bool.not_eq_true', ← Bool.not_eq_true, List.isSuffixOf_iff_suffix,
    List.contains_iff_mem]

/-- What is found for a path is a path that is read of its text. -/
theorem Finds.isRead {p q : Path} (h : Finds t workingDir endings excluded p q) (hsound : t.Sound)
    (hp : p.IsRead) : q.IsRead := by
  cases h with
  | itself hfile => exact hp
  | below hdirectory hfile hkept hdeclares hending hshort =>
      refine hp.append fun part hpart => ?_
      exact hsound.names _ hfile part (List.mem_append_right _ hpart)

theorem mem_sources (hsound : t.Sound) (hlinks : t.LinkFree) {path : String} {place way : Place} :
    way ∈ sources t endings excluded path place ↔
      ∃ names name bytes, way = names ++ [name] ∧ (place ++ way, .file bytes) ∈ t.entries ∧
        (∀ d ∈ names, d ∉ excluded) ∧ isSource endings name = true ∧
        (joinedAll path names).utf8ByteSize ≤ Tree.maxPath := by
  rw [sources, mem_walk hsound _ _ _ _ (by omega)]
  constructor
  · rintro ⟨names, name, e, hway, hmem, hfile, hrest⟩
    cases e with
    | file bytes => exact ⟨names, name, bytes, hway, hmem, hrest⟩
    | directory => cases hfile
    | link target => exact absurd rfl (hlinks _ hmem target)
  · rintro ⟨names, name, bytes, hway, hmem, hrest⟩
    exact ⟨names, name, .file bytes, hway, hmem, rfl, hrest⟩

theorem ofPath_of_refuses {p : Path} (h : t.Refuses workingDir p.toString) :
    ofPath t workingDir endings excluded p = .error ⟨.nameTooLong, p.toString⟩ := by
  rw [ofPath, Tree.look_of_refuses h]

theorem exists_ofPath (endings excluded : List String) (hsound : t.Sound) (hlinks : t.LinkFree)
    {p : Path} (h : ¬t.Refuses workingDir p.toString) :
    ∃ files, ofPath t workingDir endings excluded p = .ok files ∧
      ∀ q, q ∈ files ↔ Finds t workingDir endings excluded p q := by
  obtain ⟨found, hlook, hfound⟩ := Tree.exists_look h
  -- a directory is entered where it is found, and nowhere else
  have henter : ∀ place, t.enter workingDir p.toString = .ok place ↔
      t.locate true false workingDir p.toString = .ok place ∧ found = some .directory := by
    intro place
    rw [hfound, Tree.enter, Tree.find]
    cases hlocate : t.locate true false workingDir p.toString with
    | error r => simp
    | ok end_ =>
        dsimp only
        cases hentry : t.entry? end_ with
        | none => simp
        | some e => cases e <;> simp
  have hnothing : (∀ bytes, found ≠ some (.file bytes)) → found ≠ some .directory →
      ∀ q, q ∈ ([] : List Path) ↔ Finds t workingDir endings excluded p q := by
    intro hfile hdirectory q
    refine ⟨nofun, fun hq => ?_⟩
    cases hq with
    | itself hfind => exact absurd ((hfound _).mpr hfind) (hfile _)
    | below henters => exact absurd ((henter _).mp henters).2 hdirectory
  unfold ofPath
  rw [hlook]
  match found with
  | none => exact ⟨[], rfl, hnothing nofun nofun⟩
  | some (.link target) => exact ⟨[], rfl, hnothing nofun nofun⟩
  | some (.file bytes) =>
      refine ⟨[p], rfl, fun q => ?_⟩
      rw [List.mem_singleton]
      constructor
      · rintro rfl
        exact .itself ((hfound _).mp rfl)
      · intro hq
        cases hq with
        | itself hfile => rfl
        | below hdirectory => cases ((henter _).mp hdirectory).2
  | some .directory =>
      obtain ⟨place, hlocate⟩ : ∃ place, t.locate true false workingDir p.toString = .ok place := by
        have hfind := (hfound _).mp rfl
        unfold Tree.find at hfind
        split at hfind
        · cases hfind
        · next place hlocate => exact ⟨place, hlocate⟩
      rw [hlocate]
      refine ⟨_, rfl, fun q => ?_⟩
      rw [List.mem_map]
      constructor
      · rintro ⟨way, hway, rfl⟩
        obtain ⟨names, name, bytes, rfl, hmem, hkept, hsource, hshort⟩ :=
          (mem_sources hsound hlinks).mp hway
        obtain ⟨hdeclares, hending⟩ := isSource_iff.mp hsource
        exact .below ((henter place).mpr ⟨hlocate, rfl⟩) hmem hkept hdeclares hending hshort
      · intro hq
        cases hq with
        | itself hfile => cases (hfound _).mpr hfile
        | below hdirectory hmem hkept hdeclares hending hshort =>
            obtain rfl : place = _ :=
              Except.ok.inj (hlocate.symm.trans ((henter _).mp hdirectory).1)
            refine ⟨_, (mem_sources hsound hlinks).mpr ?_, rfl⟩
            exact ⟨_, _, _, rfl, hmem, hkept, isSource_iff.mpr ⟨hdeclares, hending⟩, hshort⟩

/-- What a path stands for is found if and only if the path is not refused. -/
theorem ofPath_eq_ok_iff {p : Path} :
    (∃ files, ofPath t workingDir endings excluded p = .ok files) ↔
      ¬t.Refuses workingDir p.toString := by
  constructor
  · rintro ⟨files, hfiles⟩ hrefuses
    rw [ofPath_of_refuses hrefuses] at hfiles
    cases hfiles
  · intro h
    obtain ⟨found, hlook, -⟩ := Tree.exists_look h
    unfold ofPath
    rw [hlook]
    match found with
    | none => exact ⟨_, rfl⟩
    | some (.file _) => exact ⟨_, rfl⟩
    | some (.link _) => exact ⟨_, rfl⟩
    | some .directory =>
        dsimp only
        split
        · exact ⟨_, rfl⟩
        · exact ⟨_, rfl⟩

/-! ## All paths -/

/-- A path as it is given is refused. -/
def RefusesText (t : Tree) (workingDir : Place) (text : String) : Prop :=
  t.Refuses workingDir (ofString text).toString

theorem ofPaths_eq_ok_iff {paths : List String} :
    (∃ files, ofPaths t workingDir endings excluded paths = .ok files) ↔
      ∀ p ∈ paths, ¬RefusesText t workingDir p := by
  induction paths with
  | nil => exact ⟨fun _ => List.forall_mem_nil _, fun _ => ⟨[], rfl⟩⟩
  | cons p ps ih =>
      have hfirst : (∃ files, ofPath t workingDir endings excluded (ofString p) = .ok files) ↔
          ¬RefusesText t workingDir p := ofPath_eq_ok_iff
      rw [List.forall_mem_cons, ← hfirst, ← ih]
      conv_lhs => unfold ofPaths
      cases ofPath t workingDir endings excluded (ofString p) with
      | error f => simp
      | ok files => cases ofPaths t workingDir endings excluded ps <;> simp

/-- What paths stand for is found if and only if none of them is refused. -/
theorem find_eq_ok_iff {paths : List String} :
    (∃ files, find t workingDir endings excluded paths = .ok files) ↔
      ∀ p ∈ paths, ¬RefusesText t workingDir p := by
  have hall : (∃ files, ofPaths t workingDir endings excluded paths = .ok files) ↔
      ∀ p ∈ paths, ¬RefusesText t workingDir p := ofPaths_eq_ok_iff
  rw [← hall, find]
  cases ofPaths t workingDir endings excluded paths with
  | error f => simp
  | ok files => exact ⟨fun _ => ⟨_, rfl⟩, fun _ => ⟨_, rfl⟩⟩

theorem exists_ofPaths (endings excluded : List String) (hsound : t.Sound) (hlinks : t.LinkFree)
    {paths : List String} (h : ∀ p ∈ paths, ¬RefusesText t workingDir p) :
    ∃ files, ofPaths t workingDir endings excluded paths = .ok files ∧
      ∀ q, q ∈ files ↔ ∃ p ∈ paths, Finds t workingDir endings excluded (ofString p) q := by
  induction paths with
  | nil => exact ⟨[], rfl, by simp⟩
  | cons p ps ih =>
      rw [List.forall_mem_cons] at h
      obtain ⟨files, hfiles, hmem⟩ := exists_ofPath endings excluded hsound hlinks h.1
      obtain ⟨rest, hrest, hothers⟩ := ih h.2
      refine ⟨files ++ rest, ?_, fun q => ?_⟩
      · unfold ofPaths
        rw [hfiles, hrest]
      · rw [List.mem_append, hmem, hothers, List.exists_mem_cons_iff]

theorem ofPaths_of_refuses (endings excluded : List String) (hsound : t.Sound)
    (hlinks : t.LinkFree) {paths : List String} (h : ∃ p ∈ paths, RefusesText t workingDir p) :
    ∃ p ∈ paths, RefusesText t workingDir p ∧
      ofPaths t workingDir endings excluded paths =
        .error ⟨.nameTooLong, (ofString p).toString⟩ := by
  induction paths with
  | nil => simp at h
  | cons p ps ih =>
      -- the first path that is refused ends the search
      by_cases hp : RefusesText t workingDir p
      · refine ⟨p, List.mem_cons_self, hp, ?_⟩
        unfold ofPaths
        rw [ofPath_of_refuses hp]
      · rw [List.exists_mem_cons_iff] at h
        obtain ⟨q, hq, hrefuses, hrest⟩ := ih (h.resolve_left hp)
        obtain ⟨files, hfiles, -⟩ := exists_ofPath endings excluded hsound hlinks hp
        refine ⟨q, List.mem_cons_of_mem p hq, hrefuses, ?_⟩
        unfold ofPaths
        rw [hfiles, hrest]

/-- Files are those that paths stand for, in order, each once. -/
structure AreFound (t : Tree) (workingDir : Place) (endings excluded paths : List String)
    (files : List Path) : Prop where
  mem : ∀ q, q ∈ files ↔ ∃ p ∈ paths, Finds t workingDir endings excluded (ofString p) q
  increasing : files.Pairwise fun p q => p.keys < q.keys

/-- There is one list of the files that paths stand for. -/
theorem AreFound.unique {paths : List String} {files more : List Path}
    (h : AreFound t workingDir endings excluded paths files)
    (hmore : AreFound t workingDir endings excluded paths more) : files = more := by
  refine eq_of_pairwise h.increasing hmore.increasing fun q => ?_
  rw [h.mem, hmore.mem]

/-- It does not matter in which order the paths are given and how often. -/
theorem AreFound.congr {paths others : List String} {files : List Path}
    (h : AreFound t workingDir endings excluded paths files)
    (hsame : ∀ p, p ∈ paths ↔ p ∈ others) :
    AreFound t workingDir endings excluded others files := by
  refine ⟨fun q => ?_, h.increasing⟩
  rw [h.mem]
  simp only [hsame]

/-- What paths stand for is put in order. -/
theorem areFound_ordered {paths : List String} {files : List Path} (hsound : t.Sound)
    (h : ∀ q, q ∈ files ↔ ∃ p ∈ paths, Finds t workingDir endings excluded (ofString p) q) :
    AreFound t workingDir endings excluded paths (ordered files) := by
  refine ⟨fun q => by rw [mem_ordered, h], pairwise_ordered fun q hq => ?_⟩
  obtain ⟨p, -, hfinds⟩ := (h q).mp hq
  exact hfinds.isRead hsound (Path.isRead_ofString p)

/-- Paths behind other ones stand for what each of them stands for. -/
theorem AreFound.append {paths others : List String} {files more : List Path} (hsound : t.Sound)
    (h : AreFound t workingDir endings excluded paths files)
    (hmore : AreFound t workingDir endings excluded others more) :
    AreFound t workingDir endings excluded (paths ++ others) (ordered (files ++ more)) := by
  refine areFound_ordered hsound fun q => ?_
  simp only [List.mem_append, h.mem, hmore.mem, or_and_right, exists_or]

theorem exists_find (endings excluded : List String) (hsound : t.Sound) (hlinks : t.LinkFree)
    {paths : List String} (h : ∀ p ∈ paths, ¬RefusesText t workingDir p) :
    ∃ files, find t workingDir endings excluded paths = .ok files ∧
      AreFound t workingDir endings excluded paths files := by
  obtain ⟨files, hfiles, hmem⟩ := exists_ofPaths endings excluded hsound hlinks h
  exact ⟨ordered files, by rw [find, hfiles, ordered], areFound_ordered hsound hmem⟩

theorem find_of_refuses (endings excluded : List String) (hsound : t.Sound) (hlinks : t.LinkFree)
    {paths : List String} (h : ∃ p ∈ paths, RefusesText t workingDir p) :
    ∃ p ∈ paths, RefusesText t workingDir p ∧
      find t workingDir endings excluded paths = .error ⟨.nameTooLong, (ofString p).toString⟩ := by
  obtain ⟨p, hp, hrefuses, hpaths⟩ := ofPaths_of_refuses endings excluded hsound hlinks h
  exact ⟨p, hp, hrefuses, by rw [find, hpaths]⟩

/-! ## Endings and directories as they are set -/

/-- The endings that texts set: those by default if there are none. -/
def endingsOf (extensions : List String) : List String :=
  (if extensions = [] then defaultExtensions else extensions).map Text.lower

/-- The directories that texts exclude: those by default if there are none. -/
def excludedOf (names : List String) : List String := if names = [] then defaultExcluded else names

/-- What is set by texts, or the default if there are none, as values. -/
theorem items_ofTexts (texts defaults : List String) :
    (if (Value.ofTexts texts).truthy then (Value.ofTexts texts).items
      else .ok (defaults.map .text)) =
      .ok ((if texts = [] then defaults else texts).map .text) := by
  cases texts <;> rfl

theorem mapM_ending (texts : List String) :
    (texts.map Value.text).mapM ending = .ok (texts.map Text.lower) := by
  rw [List.mapM_map]
  exact List.mapM_pure

theorem endings_ofTexts (extensions : List String) :
    Discovery.endings (.ofTexts extensions) = .ok (endingsOf extensions) := by
  rw [Discovery.endings, items_ofTexts]
  exact mapM_ending _

/-- Endings are set by items that are texts. -/
theorem endings_of_items {v : Value} {texts : List String} (htruthy : v.truthy = true)
    (hitems : v.items = .ok (texts.map .text)) :
    Discovery.endings v = .ok (texts.map Text.lower) := by
  rw [Discovery.endings, if_pos htruthy, hitems]
  exact mapM_ending texts

theorem excluded_ofTexts (names : List String) :
    Discovery.excluded (.ofTexts names) = .ok (excludedOf names) := by
  have hhashable : ∀ texts : List String, (texts.map Value.text).find? isUnhashable = none := by
    intro texts
    rw [List.find?_eq_none]
    intro item hitem
    obtain ⟨text, -, rfl⟩ := List.mem_map.mp hitem
    exact Bool.false_ne_true
  rw [Discovery.excluded, items_ofTexts]
  dsimp only
  rw [hhashable, List.filterMap_map]
  exact congrArg Except.ok (List.filterMap_some)

/-- Directories are excluded by a value that counts as false, or that consists of items of which
none is a list or a mapping. -/
def Excludes (v : Value) : Prop :=
  v.truthy = true → ∃ items, v.items = .ok items ∧ ∀ item ∈ items, isUnhashable item = false

theorem excluded_eq_ok_iff {v : Value} :
    (∃ names, Discovery.excluded v = .ok names) ↔ Excludes v := by
  have hdefault : (defaultExcluded.map Value.text).find? isUnhashable = none := by decide
  unfold Discovery.excluded Excludes
  cases v.truthy with
  | false => simp [hdefault]
  | true =>
      cases v.items with
      | error f => simp
      | ok items =>
          cases hfind : items.find? isUnhashable with
          | none => simpa [hfind] using List.find?_eq_none.mp hfind
          | some item => simpa [hfind] using ⟨item, List.mem_of_find?_eq_some hfind,
              List.find?_some hfind⟩

end Discovery

end ImportAudit.Files
