/-
# ImportAudit.Proofs.Command.Validation — what becomes of settings of any values.

Let a file give nothing but settings, of whatever values.  Then the settings are built, and they can
be judged if the extensions consist of items.  From there on only a text that cannot be printed is
in the way: settings are loaded exactly if the extensions that are objected to can be printed
(`loadSettings_returns_iff`), and the command that validates a file says that there are no
objections or prints each of them (`run_validate_nil`, `run_validate_cons`).
-/
import ImportAudit.Command.Configuration
import ImportAudit.Proofs.Command.Output
import ImportAudit.Proofs.Session.Precedence
import ImportAudit.Proofs.Session.Unknown
import ImportAudit.Proofs.Settings.Judged

namespace ImportAudit

namespace Run

variable {s t u v : Session}

/-- Settings are loaded anew exactly if those that are built can be judged, and the extensions that
are objected to can be printed. -/
theorem loadSettings_returns_iff {path : Option Path} {data : Value} {built : Settings}
    (hfresh : path.isSome ∨ s.settings = none) (hdata : (settingsValue path).run s = (.ok data, t))
    (hbuilt : (buildSettings data).run t = (.ok built, u)) :
    (∃ r v, (loadSettings path).run s = (.ok r, v)) ↔
      ∃ os, built.objections = .ok os ∧ ∀ text, .extension text ∈ os →
        Console.prints (Settings.Objection.extension text).line = true := by
  have hsettle : ∀ os, built.objections = .ok os →
      ((∃ r v, (loadSettings path).run s = (.ok r, v)) ↔ ∀ text, .extension text ∈ os →
        Console.prints (Settings.Objection.extension text).line = true) := by
    intro os hos
    rw [loadSettings_run hfresh hdata hbuilt hos, ← settle_objections_iff hos u]
    constructor
    · rintro ⟨r, v, h⟩
      obtain ⟨settings, w, hsettle, -⟩ := run_bind_eq_ok_iff.mp h
      exact ⟨settings, w, hsettle⟩
    · rintro ⟨settings, w, hsettle⟩
      exact ⟨settings, _, run_bind_of_ok hsettle⟩
  constructor
  · rintro ⟨r, v, h⟩
    obtain ⟨data', t', given, os, hdata', hgiven, hos, -⟩ := exists_of_loadSettings hfresh h
    rw [hdata] at hdata'
    cases hdata'
    obtain ⟨given', hgiven', rfl⟩ := eq_apply_of_buildSettings hbuilt
    have henv : t.environment = s.environment :=
      (keeps_settingsValue Session.blind_environment path).of_run hdata
    rw [hgiven] at hgiven'
    cases hgiven'
    rw [henv] at hsettle ⊢
    exact ⟨os, hos, (hsettle os hos).mp ⟨r, v, h⟩⟩
  · rintro ⟨os, hos, hprints⟩
    exact (hsettle os hos).mpr hprints

end Run

namespace Command

open Run (run_bind run_bind_of_ok run_bind_eq_ok_iff)

variable {s t u v : Session}

/-! ## Objections that are printed -/

/-- Texts are printed one after the other, up to the first that cannot be. -/
theorem run_sayAll {texts shown : List String}
    (h : List.Forall₂ (fun text line => Console.paragraph Run.outputWidth text = .ok line)
      texts shown) (s : Session) :
    (sayAll texts).run s = (.ok (), { s with output := s.output ++ String.join shown }) := by
  induction h generalizing s with
  | nil =>
      rw [String.join_nil, String.append_empty]
      rfl
  | cons hline hrest ih =>
      rw [sayAll, run_bind_of_ok (run_say_of_ok hline s), ih, String.join_cons,
        String.append_assoc]

theorem prints_of_say {text : String} (h : (Run.say text).run s = (.ok (), t)) :
    Console.prints text = true := by
  unfold Run.say Run.print Console.paragraph at h
  unfold Console.prints
  cases hshown : Console.render text with
  | ok shown => rfl
  | error f =>
      rw [hshown] at h
      cases h

/-- A text that cannot be printed ends the printing of texts. -/
theorem prints_of_sayAll {texts : List String} (h : (sayAll texts).run s = (.ok (), t)) :
    ∀ text ∈ texts, Console.prints text = true := by
  induction texts generalizing s with
  | nil => exact fun text htext => absurd htext List.not_mem_nil
  | cons text texts ih =>
      obtain ⟨_, u, hsay, hrest⟩ := run_bind_eq_ok_iff.mp h
      rw [List.forall_mem_cons]
      exact ⟨prints_of_say hsay, ih hrest⟩

theorem exists_lines {texts : List String} (h : ∀ text ∈ texts, Console.prints text = true) :
    ∃ shown, List.Forall₂
      (fun text line => Console.paragraph Run.outputWidth text = .ok line) texts shown := by
  induction texts with
  | nil => exact ⟨[], .nil⟩
  | cons text texts ih =>
      rw [List.forall_mem_cons] at h
      obtain ⟨line, hline⟩ := Run.exists_paragraph h.1 Run.outputWidth
      obtain ⟨shown, hshown⟩ := ih h.2
      exact ⟨line :: shown, .cons hline hshown⟩

/-- What is said of a file that has no objections. -/
def validText : String := "✅ Configuration is valid."

/-- What is said in front of objections. -/
def invalidText : String := "❌ Configuration is invalid:"

theorem paragraph_validText :
    Console.paragraph Run.outputWidth validText = .ok (validText ++ "\n") :=
  Console.paragraph_of_short (by decide +kernel) (by decide +kernel) (by decide +kernel)
    (by decide +kernel)

theorem paragraph_invalidText :
    Console.paragraph Run.outputWidth invalidText = .ok (invalidText ++ "\n") :=
  Console.paragraph_of_short (by decide +kernel) (by decide +kernel) (by decide +kernel)
    (by decide +kernel)

/-! ## The command that validates a file -/

/-- Says that there are no objections, or tells them all. -/
def tellObjections : List Settings.Objection → Run Nat
  | [] => do
    Run.say validText
    pure succeeded
  | os => do
    Run.say invalidText
    sayAll (os.map Settings.Objection.line)
    pure failed

section

variable {path : String} {entries : List (Value × Value)} {built : Settings}
  {os : List Settings.Objection}

/-- The file is read, the settings are built and judged, and then the objections are told. -/
theorem run_validate (hdata : (Run.readSettingsFile (.ofString path)).run s =
      (.ok (.mapping entries), t))
    (hbuilt : (Run.buildSettings (.mapping entries)).run t = (.ok built, u))
    (hos : built.objections = .ok os) : (validate path).run s = (tellObjections os).run u := by
  unfold validate
  rw [run_bind_of_ok hdata]
  dsimp only
  rw [run_bind_of_ok hbuilt, hos]
  cases os <;> rfl

theorem run_validate_nil (hdata : (Run.readSettingsFile (.ofString path)).run s =
      (.ok (.mapping entries), t))
    (hbuilt : (Run.buildSettings (.mapping entries)).run t = (.ok built, u))
    (hos : built.objections = .ok []) :
    (validate path).run s =
      (.ok succeeded, { u with output := u.output ++ (validText ++ "\n") }) := by
  rw [run_validate hdata hbuilt hos, tellObjections,
    run_bind_of_ok (run_say_of_ok paragraph_validText u)]
  rfl

/-- Objections are printed one after the other. -/
theorem run_validate_cons (hdata : (Run.readSettingsFile (.ofString path)).run s =
      (.ok (.mapping entries), t))
    (hbuilt : (Run.buildSettings (.mapping entries)).run t = (.ok built, u))
    (hos : built.objections = .ok os) (hne : os ≠ []) {shown : List String}
    (hshown : List.Forall₂ (fun text line => Console.paragraph Run.outputWidth text = .ok line)
      (os.map Settings.Objection.line) shown) :
    (validate path).run s = (.ok failed,
      { u with output := u.output ++ (invalidText ++ "\n") ++ String.join shown }) := by
  rw [run_validate hdata hbuilt hos]
  cases os with
  | nil => exact absurd rfl hne
  | cons o os =>
      rw [tellObjections, run_bind_of_ok (run_say_of_ok paragraph_invalidText u),
        run_bind_of_ok (run_sayAll hshown _)]
      · rfl
      · exact nofun

theorem prints_of_run_validate {status : Nat}
    (hdata : (Run.readSettingsFile (.ofString path)).run s = (.ok (.mapping entries), t))
    (hbuilt : (Run.buildSettings (.mapping entries)).run t = (.ok built, u))
    (h : (validate path).run s = (.ok status, v)) :
    ∃ os, built.objections = .ok os ∧ ∀ o ∈ os, Console.prints o.line = true := by
  cases hos : built.objections with
  | error f =>
      unfold validate at h
      rw [run_bind_of_ok hdata] at h
      dsimp only at h
      rw [run_bind_of_ok hbuilt, hos] at h
      cases h
  | ok os =>
      refine ⟨os, rfl, ?_⟩
      rw [run_validate hdata hbuilt hos] at h
      cases os with
      | nil => exact nofun
      | cons o os =>
          obtain ⟨_, w, -, h⟩ := run_bind_eq_ok_iff.mp h
          obtain ⟨_, x, hall, -⟩ := run_bind_eq_ok_iff.mp h
          exact List.forall_mem_map.mp (prints_of_sayAll hall)

end

/-- A file with an extension without a dot. -/
def dotless : List (Value × Value) :=
  [(.text "discovery", .mapping [(.text "extensions", .list [.text "ts"])])]

/-- The value is that of the file. -/
def isDotless : Value → Bool
  | .mapping [(.text "discovery", .mapping [(.text "extensions", .list [.text "ts"])])] => true
  | _ => false

theorem eq_of_isDotless {data : Value} (h : isDotless data = true) : data = .mapping dotless := by
  unfold isDotless at h
  split at h
  · rfl
  · cases h

theorem hasSettingsOnly_discovery {v : Value} :
    Settings.HasSettingsOnly
      (.mapping [(.text "discovery", .mapping [(.text "extensions", v)])]) := by
  intro topic e he
  cases topic with
  | discovery =>
      obtain rfl : e = (.text "extensions", v) := List.mem_singleton.mp he
      exact ⟨"extensions", by decide, rfl⟩
  | _ => cases he

/-- A file with no extensions at all, where a list of them belongs. -/
def extensionless : String := "\x7b\"discovery\": \x7b\"extensions\": null\x7d\x7d"

end Command

end ImportAudit
