/-
# ImportAudit.Proofs.Session.Cache — settings are loaded once and kept.

Settings that are loaded are kept, and given again until they are reset or others are loaded from a
file that is named.  In between the files, the working directory and the environment may change: what
is kept does not follow them, and what is loaded anew goes by them as they are then and by nothing
else.  `Settings.latest` looks back over what was asked for and answered; that it finds what a
session keeps is shown for one request (`settings_perform`) and so for all (`settings_after`).
-/
import ImportAudit.Proofs.Manifest.Nearest
import ImportAudit.Proofs.Session.Precedence
import Mathlib.Data.List.Induction

namespace ImportAudit

namespace Run

variable {α β γ : Type} {view : Session → γ}

/-! ## Runs that go by a view -/

/-- What the run ends in depends on nothing but what the view shows. -/
def GoesBy (view : Session → γ) (x : Run α) : Prop :=
  ∀ s t, view s = view t → (x.run s).1 = (x.run t).1

theorem goesBy_pure (a : α) : GoesBy view (pure a : Run α) := fun _ _ _ => rfl

theorem goesBy_modify (change : Session → Session) :
    GoesBy view (modify change : Run Unit) := fun _ _ _ => rfl

theorem goesBy_ofExcept (r : Except Fault α) : GoesBy view (ofExcept r) := by
  cases r with
  | ok a => exact goesBy_pure a
  | error f => exact fun _ _ _ => rfl

/-- A run that keeps the view may come before one that goes by it. -/
theorem GoesBy.bind {x : Run α} {f : α → Run β} (hx : GoesBy view x) (hkeeps : Keeps view x)
    (hf : ∀ a, GoesBy view (f a)) : GoesBy view (x >>= f) := by
  intro s t hst
  have hends := hx s t hst
  have hshown : view (x.run s).2 = view (x.run t).2 := by rw [hkeeps s, hkeeps t, hst]
  rw [run_bind, run_bind]
  match hs : x.run s, ht : x.run t with
  | (.ok a, s'), (.ok b, t') =>
      rw [hs, ht] at hends hshown
      obtain rfl := Except.ok.inj hends
      exact hf a s' t' hshown
  | (.error e, s'), (.error e', t') =>
      rw [hs, ht] at hends
      exact congrArg Except.error (Except.error.inj hends)
  | (.ok a, s'), (.error e, t') =>
      rw [hs, ht] at hends
      cases hends
  | (.error e, s'), (.ok a, t') =>
      rw [hs, ht] at hends
      cases hends

/-- The session may be read as the view shows it. -/
theorem goesBy_get_bind {f : Session → Run α} (hread : ∀ s t, view s = view t → f s = f t)
    (hf : ∀ s, GoesBy view (f s)) : GoesBy view (get >>= f) := by
  intro s t hst
  rw [run_get_bind, run_get_bind, hread s t hst]
  exact hf t s t hst

/-! ## What settings are loaded from -/

/-- What settings are loaded from: the files, where they are looked for, and the environment. -/
def sight (s : Session) : Files.Tree × Files.Place × Environment :=
  (s.files, s.workingDir, s.environment)

theorem sight_eq_iff {s t : Session} : sight s = sight t ↔
    s.files = t.files ∧ s.workingDir = t.workingDir ∧ s.environment = t.environment := by
  simp only [sight, Prod.mk.injEq]

theorem blindAside_sight : Session.BlindAside sight :=
  ⟨⟨fun _ _ => rfl, fun _ _ => rfl, fun _ _ => rfl⟩, fun _ _ => rfl⟩

theorem goesBy_warnAt (width : Nat) (text : String) : GoesBy view (warnAt width text) :=
  (goesBy_ofExcept _).bind (keeps_ofExcept _) fun _ => goesBy_modify _

section

variable (hview : Session.BlindAside view)
include hview

theorem goesBy_warnAll (texts : List String) : GoesBy view (warnAll texts) := by
  induction texts with
  | nil => exact goesBy_pure ()
  | cons text texts ih =>
      exact (goesBy_warnAt _ text).bind (keeps_warnAt hview _ text) fun _ => ih

theorem goesBy_settle (settings : Settings) (os : List Settings.Objection) :
    GoesBy view (settle settings os) := by
  cases os with
  | nil => exact goesBy_pure settings
  | cons o os =>
      refine (goesBy_warnAt _ _).bind (keeps_warnAt hview _ _) fun _ => ?_
      refine (goesBy_warnAll hview _).bind (keeps_warnAll hview _) fun _ => ?_
      exact (goesBy_warnAt _ _).bind (keeps_warnAt hview _ _) fun _ => goesBy_pure _

end

theorem goesBy_readSettingsFile (path : Path) : GoesBy sight (readSettingsFile path) := by
  unfold readSettingsFile
  refine goesBy_get_bind (fun s t hst => ?_) fun s => ?_
  · obtain ⟨hfiles, hdir, -⟩ := sight_eq_iff.mp hst
    rw [hfiles, hdir]
  · refine (goesBy_ofExcept _).bind (keeps_ofExcept _) fun present => ?_
    cases present with
    | false => exact goesBy_pure _
    | true =>
        rw [if_neg (by decide)]
        cases Settings.readFile s.files s.workingDir path with
        | ok v => exact goesBy_pure v
        | error f =>
            refine (goesBy_modify _).bind (keeps_report blindAside_sight.toBlindToLog _) fun _ => ?_
            exact (goesBy_warnAt _ _).bind (keeps_warnAt blindAside_sight _ _) fun _ => goesBy_pure _

theorem goesBy_buildSettings (data : Value) : GoesBy sight (buildSettings data) := by
  rw [buildSettings_eq]
  refine (goesBy_warnAll blindAside_sight _).bind (keeps_warnAll blindAside_sight _) fun _ => ?_
  refine (goesBy_ofExcept _).bind (keeps_ofExcept _) fun file => ?_
  refine goesBy_get_bind (fun s t hst => ?_) fun s => goesBy_pure _
  obtain ⟨-, -, henv⟩ := sight_eq_iff.mp hst
  rw [henv]

theorem goesBy_prepareSettings (file : Option Path) : GoesBy sight (prepareSettings file) := by
  have hbuild : ∀ data : Value, GoesBy sight (do
      let built ← buildSettings data
      settle built (← ofExcept built.objections) : Run Settings) := fun data =>
    (goesBy_buildSettings data).bind (keeps_buildSettings blindAside_sight data) fun built =>
      (goesBy_ofExcept _).bind (keeps_ofExcept _) fun os => goesBy_settle blindAside_sight built os
  cases file with
  | none => exact (goesBy_pure _).bind (keeps_pure _) hbuild
  | some path =>
      exact (goesBy_readSettingsFile path).bind (keeps_readSettingsFile blindAside_sight path) hbuild

/-! ## Loading settings -/

theorem run_reloadSettings (file : Option Path) (s : Session) :
    (reloadSettings file).run s =
      match (prepareSettings file).run s with
      | (.ok r, t) => (.ok r, { t with settings := some r })
      | (.error f, t) => (.error f, t) := by
  rw [reloadSettings_eq, run_bind]
  match (prepareSettings file).run s with
  | (.ok r, t) => rfl
  | (.error f, t) => rfl

theorem goesBy_reloadSettings (file : Option Path) : GoesBy sight (reloadSettings file) := by
  intro s t hst
  have hprepared := goesBy_prepareSettings file s t hst
  have hends : ∀ s, ((reloadSettings file).run s).1 = ((prepareSettings file).run s).1 := by
    intro s
    rw [run_reloadSettings]
    match (prepareSettings file).run s with
    | (.ok r, t) => rfl
    | (.error f, t) => rfl
  rw [hends, hends, hprepared]

/-- The settings that the run gives are kept, and a fault leaves those that are kept as they are. -/
structure KeepsWhatItLoads (x : Run Settings) : Prop where
  ok : ∀ {s t r}, x.run s = (.ok r, t) → t.settings = some r
  error : ∀ {s t f}, x.run s = (.error f, t) → t.settings = s.settings

theorem keepsWhatItLoads_reloadSettings (file : Option Path) :
    KeepsWhatItLoads (reloadSettings file) := by
  constructor
  · intro s t r h
    rw [run_reloadSettings] at h
    split at h
    · cases h; rfl
    · cases h
  · intro s t f h
    rw [run_reloadSettings] at h
    split at h
    · cases h
    · next hprepared =>
      cases h
      exact (keeps_prepareSettings Session.blindAside_settings file).of_run hprepared

/-- Settings that are kept are given as they are, and nothing else happens. -/
theorem loadSettings_of_kept {s : Session} {c : Settings} (h : s.settings = some c) :
    (loadSettings none).run s = (.ok c, s) := by
  unfold loadSettings
  rw [run_get_bind, h]
  rfl

/-- Looking for a file changes nothing. -/
theorem run_findSettingsFile (s : Session) :
    (findSettingsFile none).run s =
      ((s.files.firstPresent s.workingDir
        (Settings.locations s.environment ⟨"/", s.workingDir⟩)).mapError .files, s) := by
  unfold findSettingsFile Settings.locate
  rw [run_get_bind, Option.getD_none]
  cases s.files.firstPresent s.workingDir
    (Settings.locations s.environment ⟨"/", s.workingDir⟩) <;> rfl

/-- If no settings are kept, those of the file are loaded that is found. -/
theorem loadSettings_of_none {s : Session} (h : s.settings = none) :
    (loadSettings none).run s =
      match s.files.firstPresent s.workingDir
        (Settings.locations s.environment ⟨"/", s.workingDir⟩) with
      | .ok file => (reloadSettings file).run s
      | .error f => (.error (.files f), s) := by
  unfold loadSettings
  rw [run_get_bind, h]
  dsimp only
  rw [run_bind, run_findSettingsFile]
  cases s.files.firstPresent s.workingDir
    (Settings.locations s.environment ⟨"/", s.workingDir⟩) <;> rfl

theorem keepsWhatItLoads_loadSettings (path : Option Path) :
    KeepsWhatItLoads (loadSettings path) := by
  have hrun : ∀ s, (∃ c, s.settings = some c ∧ (loadSettings path).run s = (.ok c, s)) ∨
      (∃ file, (loadSettings path).run s = (reloadSettings file).run s) ∨
      ∃ f, (loadSettings path).run s = (.error f, s) := by
    intro s
    cases path with
    | some p => exact .inr (.inl ⟨some p, rfl⟩)
    | none =>
        cases hkept : s.settings with
        | some c => exact .inl ⟨c, rfl, loadSettings_of_kept hkept⟩
        | none =>
            right
            rw [loadSettings_of_none hkept]
            cases s.files.firstPresent s.workingDir
                (Settings.locations s.environment ⟨"/", s.workingDir⟩) with
            | ok file => exact .inl ⟨file, rfl⟩
            | error f => exact .inr ⟨.files f, rfl⟩
  constructor
  · intro s t r h
    rcases hrun s with ⟨c, hkept, hc⟩ | ⟨file, hreload⟩ | ⟨f, hf⟩
    · rw [hc] at h
      cases h
      exact hkept
    · rw [hreload] at h
      exact (keepsWhatItLoads_reloadSettings file).ok h
    · rw [hf] at h
      cases h
  · intro s t f h
    rcases hrun s with ⟨c, hkept, hc⟩ | ⟨file, hreload⟩ | ⟨f', hf⟩
    · rw [hc] at h
      cases h
    · rw [hreload] at h
      exact (keepsWhatItLoads_reloadSettings file).error h
    · rw [hf] at h
      cases h
      rfl

/-- The settings in force are those that are loaded without a path. -/
theorem run_currentSettings (s : Session) :
    currentSettings.run s = (loadSettings none).run s := by
  unfold currentSettings
  rw [run_get_bind]
  cases hkept : s.settings with
  | some c => rw [loadSettings_of_kept hkept]; rfl
  | none =>
      dsimp only
      rw [run_bind]
      match h : (loadSettings none).run s with
      | (.error f, t) => rfl
      | (.ok r, t) =>
          -- the settings are kept once more
          have hsame : ({ t with settings := some r } : Session) = t := by
            rw [← (keepsWhatItLoads_loadSettings none).ok h]
          exact congrArg (Prod.mk (Except.ok r)) hsame

theorem keepsWhatItLoads_currentSettings : KeepsWhatItLoads currentSettings := by
  constructor
  · intro s t r h
    rw [run_currentSettings] at h
    exact (keepsWhatItLoads_loadSettings none).ok h
  · intro s t f h
    rw [run_currentSettings] at h
    exact (keepsWhatItLoads_loadSettings none).error h

end Run

/-! ## Requests -/

namespace Settings

/-- What is asked of a session that keeps settings, and what changes around it. -/
inductive Request
  | load (path : Option Path)
  | current
  | reset
  | change (files : Files.Tree) (workingDir : Files.Place) (environment : Environment)

/-- What a request does: it gives settings, or none if it does not ask for any. -/
def Request.perform : Request → Run (Option Settings)
  | .load path => some <$> Run.loadSettings path
  | .current => some <$> Run.currentSettings
  | .reset => do
    Run.resetSettings
    pure none
  | .change files workingDir environment => do
    modify fun s => { s with files, workingDir, environment }
    pure none

/-- A request, and what it came to. -/
abbrev Answered := Request × Except Fault (Option Settings)

/-- The settings that were given by the last request that gave any, if nothing was reset since; the
latest request comes first, and before the first of them `start` was kept. -/
def latest (start : Option Settings) : List Answered → Option Settings
  | [] => start
  | (.reset, _) :: _ => none
  | (_, .ok (some c)) :: _ => some c
  | _ :: earlier => latest start earlier

/-- The places where settings are looked for, the first one first. -/
def searchOrder (env : Environment) (workingDir : Files.Place) : List Path :=
  let home := homeDir env
  [⟨"/", workingDir ++ [".no-implicit-deps.json"]⟩,
    ⟨"/", workingDir ++ [".no-implicit-deps.yaml"]⟩,
    ⟨"/", workingDir ++ [".no-implicit-deps.yml"]⟩,
    ⟨"/", workingDir ++ [".no-implicit-deps.toml"]⟩,
    ((home.child ".config").child "no-implicit-deps").child "config.json",
    ((home.child ".config").child "no-implicit-deps").child "config.yaml",
    ((home.child ".config").child "no-implicit-deps").child "config.toml"]

theorem locations_eq_searchOrder (env : Environment) (workingDir : Files.Place) :
    locations env ⟨"/", workingDir⟩ = searchOrder env workingDir := rfl

theorem latest_cons (start : Option Settings) (a : Answered) (earlier : List Answered) :
    latest start (a :: earlier) = latest (latest start earlier) [a] := by
  obtain ⟨request, answer⟩ := a
  cases request <;> rcases answer with f | _ | c <;> rfl

end Settings

namespace Session

/-- The session after requests. -/
def after (s : Session) (requests : List Settings.Request) : Session :=
  requests.foldl (fun s request => (request.perform.run s).2) s

/-- The requests that a session is asked, each with what it came to. -/
def answers (s : Session) : List Settings.Request → List Settings.Answered
  | [] => []
  | request :: rest =>
    (request, (request.perform.run s).1) :: answers (request.perform.run s).2 rest

theorem after_concat (s : Session) (requests : List Settings.Request)
    (request : Settings.Request) :
    s.after (requests ++ [request]) = (request.perform.run (s.after requests)).2 := by
  simp only [after, List.foldl_append, List.foldl_cons, List.foldl_nil]

theorem answers_concat (s : Session) (requests : List Settings.Request)
    (request : Settings.Request) :
    s.answers (requests ++ [request]) =
      s.answers requests ++ [(request, (request.perform.run (s.after requests)).1)] := by
  induction requests generalizing s with
  | nil => rfl
  | cons first rest ih =>
      rw [List.cons_append, answers, ih, answers, List.cons_append]
      rfl

/-- A request that loads settings gives what is kept from then on. -/
theorem settings_perform_of_keeps (request : Settings.Request) {x : Run Settings}
    (hkeeps : Run.KeepsWhatItLoads x) (hreset : request ≠ .reset)
    (hperform : request.perform = some <$> x) (s : Session) :
    (request.perform.run s).2.settings =
      Settings.latest s.settings [(request, (request.perform.run s).1)] := by
  rw [hperform, Run.run_map]
  match h : x.run s with
  | (.ok r, t) =>
      have hkept := hkeeps.ok h
      cases request <;> first | exact hkept | exact absurd rfl hreset
  | (.error f, t) =>
      have hkept := hkeeps.error h
      cases request <;> first | exact hkept | exact absurd rfl hreset

/-- What is kept after a request is what the request gave, nothing if it was a reset, and else what
was kept before. -/
theorem settings_perform (s : Session) (request : Settings.Request) :
    (request.perform.run s).2.settings =
      Settings.latest s.settings [(request, (request.perform.run s).1)] := by
  cases request with
  | load path =>
      exact settings_perform_of_keeps (.load path) (Run.keepsWhatItLoads_loadSettings path) nofun
        rfl s
  | current =>
      exact settings_perform_of_keeps .current Run.keepsWhatItLoads_currentSettings nofun rfl s
  | reset => rfl
  | change files workingDir environment => rfl

/-- A session keeps what the latest request gave that gave settings, unless it was reset since. -/
theorem settings_after (s : Session) (requests : List Settings.Request) :
    (s.after requests).settings =
      Settings.latest s.settings (s.answers requests).reverse := by
  induction requests using List.reverseRecOn with
  | nil => rfl
  | append_singleton requests request ih =>
      rw [after_concat, settings_perform, ih, answers_concat, List.reverse_append,
        List.reverse_singleton, List.singleton_append]
      exact (Settings.latest_cons _ _ _).symm

/-- Settings that a request gives are kept. -/
theorem settings_of_perform {s t : Session} {request : Settings.Request} {c : Settings}
    (h : request.perform.run s = (.ok (some c), t)) : t.settings = some c := by
  have hstep := s.settings_perform request
  rw [h] at hstep
  cases request with
  | load path => exact hstep
  | current => exact hstep
  | reset => cases h
  | change files workingDir environment => cases h

/-- A request that ends in a fault leaves what is kept as it was. -/
theorem settings_of_perform_error {s t : Session} {request : Settings.Request} {fault : Fault}
    (h : request.perform.run s = (.error fault, t)) : t.settings = s.settings := by
  have hstep := s.settings_perform request
  rw [h] at hstep
  cases request with
  | load path => exact hstep
  | current => exact hstep
  | reset => cases h
  | change files workingDir environment => cases h

end Session

namespace Run

/-- The settings are what the value in a file and the environment give, with the sections replaced
that are objected to; without a file there is no value. -/
def ComesOf (s : Session) (file : Option Path) (c : Settings) : Prop :=
  ∃ data t given os,
    (match file with
      | none => pure .null
      | some p => readSettingsFile p : Run Value).run s = (.ok data, t) ∧
    (Settings.ofFile data).2 = .ok given ∧
    (s.environment.apply given).objections = .ok os ∧ c = (s.environment.apply given).reset os

theorem comesOf_of_reloadSettings {s t : Session} {file : Option Path} {c : Settings}
    (h : (reloadSettings file).run s = (.ok c, t)) : ComesOf s file c := by
  obtain ⟨data, u, given, os, hdata, hgiven, hos, hc⟩ := exists_of_reloadSettings h
  have henv : u.environment = s.environment := by
    cases file with
    | none =>
        cases hdata
        rfl
    | some p =>
        exact (keeps_readSettingsFile Session.blind_environment.toBlindAside p).of_run hdata
  rw [henv] at hos hc
  exact ⟨data, u, given, os, hdata, hgiven, hos, hc⟩

/-- Both ways of asking without a path come to the same. -/
theorem perform_withoutPath {request : Settings.Request}
    (h : request ∈ [Settings.Request.load none, .current]) (s : Session) :
    request.perform.run s = (some <$> loadSettings none).run s := by
  simp only [List.mem_cons, List.not_mem_nil, or_false] at h
  rcases h with rfl | rfl
  · rfl
  · simp only [Settings.Request.perform, run_map, run_currentSettings]

/-- Let a session be asked for settings any number of times, with and without a path, be reset and
see its files, its working directory and its environment change, in any order.  Then it keeps what
the latest request gave that gave settings and that no reset followed, and:

* if it keeps settings, then asking without a path gives these and changes nothing;
* if it keeps none, then asking without a path reads the first file that there is of those that are
  looked for, or none;
* asking with a path always reads the file of that path;
* what is read goes by the files, the working directory and the environment as they are then alone:
  it comes from the value in the file and from the variables that are set;
* settings that are given are kept, and a fault leaves what is kept as it was. -/
theorem settings_kept (start : Session) (requests : List Settings.Request) :
    let s := start.after requests
    let kept := Settings.latest start.settings (start.answers requests).reverse
    s.settings = kept ∧
    (∀ c, kept = some c → ∀ request ∈ [Settings.Request.load none, .current],
      request.perform.run s = (.ok (some c), s)) ∧
    (kept = none → ∀ request ∈ [Settings.Request.load none, .current],
      (∀ before path behind,
        Settings.searchOrder s.environment s.workingDir = before ++ path :: behind →
        (∀ p ∈ before, s.files.hasEntry s.workingDir p.toString = .ok false) →
        s.files.hasEntry s.workingDir path.toString = .ok true →
        request.perform.run s = (some <$> reloadSettings (some path)).run s) ∧
      ((∀ p ∈ Settings.searchOrder s.environment s.workingDir,
          s.files.hasEntry s.workingDir p.toString = .ok false) →
        request.perform.run s = (some <$> reloadSettings none).run s)) ∧
    (∀ path, (Settings.Request.load (some path)).perform.run s =
      (some <$> reloadSettings (some path)).run s) ∧
    (∀ file,
      (∀ t, sight s = sight t → ((reloadSettings file).run s).1 = ((reloadSettings file).run t).1) ∧
      ∀ c t, (reloadSettings file).run s = (.ok c, t) → ComesOf s file c) ∧
    (∀ (request : Settings.Request) c t,
      request.perform.run s = (.ok (some c), t) → t.settings = some c) ∧
    ∀ (request : Settings.Request) fault t,
      request.perform.run s = (.error fault, t) → t.settings = s.settings := by
  intro s kept
  have hkept : s.settings = kept := start.settings_after requests
  refine ⟨hkept, ?_, ?_, fun path => rfl, fun file => ⟨goesBy_reloadSettings file s, fun c t h =>
    comesOf_of_reloadSettings h⟩, fun request c t => Session.settings_of_perform,
    fun request fault t => Session.settings_of_perform_error⟩
  · intro c hc request hrequest
    have hload : (loadSettings none).run s = (.ok c, s) := loadSettings_of_kept (hkept.trans hc)
    rw [perform_withoutPath hrequest, run_map, hload]
  · intro hnone request hrequest
    have hload := loadSettings_of_none (hkept.trans hnone)
    rw [Settings.locations_eq_searchOrder] at hload
    refine ⟨fun before path behind horder hbefore hpath => ?_, fun habsent => ?_⟩
    · have hfile := Files.Tree.firstPresent_eq_some_iff.mpr
        ⟨before, behind, horder, hbefore, hpath⟩
      rw [perform_withoutPath hrequest, run_map, run_map, hload, hfile]
    · have hfile := Files.Tree.firstPresent_eq_none_iff.mpr habsent
      rw [perform_withoutPath hrequest, run_map, run_map, hload, hfile]

end Run

end ImportAudit
