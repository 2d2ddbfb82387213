/-
# ImportAudit.Proofs.Settings.Sample — the sample of a settings file, in every form.

The sample is one text, which is JSON, and it is written to a file of whatever form.  As JSON and as
YAML it is read as the settings that hold by default (`valueOf_sample`), of which these settings are
made again (`ofFile_sampleValue`).  TOML has no text that begins with a brace on a line of its own
(`Toml.read_brace`), so a file of that form which holds the sample cannot be read.
-/
import ImportAudit.Proofs.Settings.Genuine
import ImportAudit.Proofs.Text.Utf8
import ImportAudit.Settings.File

namespace ImportAudit

/-! ## Values that are the same -/

namespace Value

mutual

/-- The values are the same, and have no numbers in them. -/
def agree : Value → Value → Bool
  | .null, .null => true
  | .bool a, .bool b => a == b
  | .text s, .text t => s == t
  | .list as, .list bs => agreeAll as bs
  | .mapping es, .mapping ds => agreeEntries es ds
  | _, _ => false

/-- The items are the same one by one. -/
def agreeAll : List Value → List Value → Bool
  | [], [] => true
  | a :: as, b :: bs => agree a b && agreeAll as bs
  | _, _ => false

/-- The entries are the same one by one. -/
def agreeEntries : List (Value × Value) → List (Value × Value) → Bool
  | [], [] => true
  | (k, v) :: es, (l, w) :: ds => agree k l && agree v w && agreeEntries es ds
  | _, _ => false

end

mutual

theorem eq_of_agree {a b : Value} (h : agree a b = true) : a = b := by
  cases a <;> cases b <;> simp only [agree, Bool.false_eq_true, beq_iff_eq] at h
  case null.null => rfl
  case bool.bool => rw [h]
  case text.text => rw [h]
  case list.list => rw [eq_of_agreeAll h]
  case mapping.mapping => rw [eq_of_agreeEntries h]

theorem eq_of_agreeAll {as bs : List Value} (h : agreeAll as bs = true) : as = bs := by
  cases as <;> cases bs <;> simp only [agreeAll, Bool.false_eq_true, Bool.and_eq_true] at h
  case nil.nil => rfl
  case cons.cons => rw [eq_of_agree h.1, eq_of_agreeAll h.2]

theorem eq_of_agreeEntries {es ds : List (Value × Value)} (h : agreeEntries es ds = true) :
    es = ds := by
  match es, ds with
  | [], [] => rfl
  | (k, v) :: es, (l, w) :: ds =>
    simp only [agreeEntries, Bool.and_eq_true] at h
    rw [eq_of_agree h.1.1, eq_of_agree h.1.2, eq_of_agreeEntries h.2]
  | [], _ :: _ => cases h
  | _ :: _, [] => cases h

end

end Value

/-! ## A brace on a line of its own -/

namespace Toml

/-- The layout of a text before its first character. -/
def Layout.before (text : List Char) : Layout := { chars := text.toArray }

/-- The layout of a text behind a brace that it begins with: the brace begins a name. -/
def Layout.behindBrace (text : List Char) : Layout :=
  { Layout.before text with lineStart := false, part := .name }

theorem step_brace (rest : List Char) :
    (Layout.before ('\x7b' :: rest)).step ('\x7b' :: rest) 0 '\x7b' =
      .ok (Layout.behindBrace ('\x7b' :: rest), true) := by
  simp [Layout.step, Layout.bracket, Layout.before, Layout.behindBrace]
  rfl

/-- A name does not go on behind the end of a line. -/
theorem step_break (rest : List Char) :
    (Layout.behindBrace ('\x7b' :: '\n' :: rest)).step ('\x7b' :: '\n' :: rest) 1 '\n' =
      .error (.at .lineEndsInKey 1 2 1) := rfl

/-- A text whose first line is a brace alone is no TOML text. -/
theorem read_brace (rest : List Char) :
    read ('\x7b' :: '\n' :: rest) = .error (.at .lineEndsInKey 1 2 1) := by
  have hlayout : Layout.ofText ('\x7b' :: '\n' :: rest) = .error (.at .lineEndsInKey 1 2 1) := by
    have hfirst := step_brace ('\n' :: rest)
    have hsecond := step_break rest
    unfold Layout.before at hfirst
    unfold Layout.behindBrace Layout.before at hfirst hsecond
    unfold Layout.ofText
    simp [Layout.run, hfirst, hsecond]
  unfold read
  rw [hlayout]
  rfl

end Toml

namespace Settings

/-! ## The sample as a text -/

/-- What settings that hold by default are written as. -/
def sampleValue : Value :=
  sectionsValue ({} : RuleSettings).members ({} : OutputSettings).members
    ({} : LoggingSettings).members ({} : DiscoverySettings).members

/-- The lines of the sample. -/
def sampleLines : List String :=
  ["\x7b", "  \"rule\": \x7b", "    \"dev\": false,", "    \"optional\": false,",
    "    \"ignore\": []", "  \x7d,", "  \"output\": \x7b",
    "    \"output_format\": \"console\",", "    \"output_file\": null,", "    \"quiet\": false,",
    "    \"verbose\": false,", "    \"fail_on_findings\": true", "  \x7d,", "  \"logging\": \x7b",
    "    \"log_level\": \"WARNING\",", "    \"enable_json\": true", "  \x7d,",
    "  \"discovery\": \x7b", "    \"extensions\": [", "      \".js\",", "      \".jsx\",",
    "      \".mjs\",", "      \".cjs\",", "      \".ts\",", "      \".tsx\",", "      \".mts\",",
    "      \".cts\"", "    ],", "    \"exclude_dirs\": [", "      \"node_modules\",",
    "      \".git\",", "      \"dist\",", "      \"build\",", "      \"coverage\",",
    "      \".next\",", "      \".nuxt\",", "      \".cache\",", "      \"bower_components\"",
    "    ]", "  \x7d", "\x7d"]

theorem toList_sample :
    (sample ++ "\n").toList = sampleLines.flatMap (fun line => line.toList ++ ['\n']) := by
  simp only [sample, Json.render, sectionsValue, Value.ofMembers, Value.ofTexts,
    RuleSettings.members, OutputSettings.members, LoggingSettings.members,
    DiscoverySettings.members, defaultExtensions, defaultExcluded, List.map_cons, List.map_nil,
    Json.write, Json.writeItems, Json.writeMembers, Json.writeString, Json.keyText,
    Json.Style.newline, Json.Style.separator, Json.Style.file, String.toList_append,
    String.toList_ofList, if_true]
  decide +kernel

/-! ## The sample as a value -/

/-- The text is read as a value. -/
def readsAs (form : Form) (text : List Char) (v : Value) : Bool :=
  match valueOf form text with
  | .ok w => w.agree v
  | .error _ => false

theorem valueOf_of_readsAs {form : Form} {text : List Char} {v : Value}
    (h : readsAs form text v = true) : valueOf form text = .ok v := by
  unfold readsAs at h
  cases hread : valueOf form text with
  | ok w =>
      rw [hread] at h
      rw [Value.eq_of_agree h]
  | error f =>
      rw [hread] at h
      cases h

theorem valueOf_sample {form : Form} (h : form ≠ .toml) :
    valueOf form (sample ++ "\n").toList = .ok sampleValue := by
  rw [toList_sample]
  apply valueOf_of_readsAs
  cases form with
  | json => decide +kernel
  | yaml => decide +kernel
  | toml => exact absurd rfl h

theorem valueOf_toml_of_brace {text rest : List Char} (h : text = '\x7b' :: '\n' :: rest) :
    valueOf .toml text = .error (.toml (.at .lineEndsInKey 1 2 1)) := by
  rw [h, valueOf, Toml.read_brace]
  rfl

theorem valueOf_sample_toml :
    valueOf .toml (sample ++ "\n").toList = .error (.toml (.at .lineEndsInKey 1 2 1)) :=
  valueOf_toml_of_brace (toList_sample.trans rfl)

theorem isGenuine_default : IsGenuine {} := ⟨rfl, rfl, rfl, rfl, rfl⟩

/-- The settings that hold by default are made again of what they are written as. -/
theorem ofFile_sampleValue : ofFile sampleValue = ([], .ok {}) :=
  isGenuine_default.ofFile_written

/-! ## Texts in files -/

/-- A text without returns is what the bytes that it is written as hold. -/
theorem textOf_encode {text : String} (h : '\r' ∉ text.toList) (form : Form) :
    textOf form (Text.Utf8.encode text) = .ok text.toList := by
  unfold textOf
  rw [Text.Utf8.decode_encode]
  dsimp only
  rw [Text.Utf8.unifyLines_of_notMem h]

/-- A file that holds a text without returns is read by its form. -/
theorem readFile_encode {t : Files.Tree} {workingDir : Files.Place} {path : Path} {form : Form}
    {text : String} (h : '\r' ∉ text.toList)
    (hbytes : t.read workingDir path.toString = .ok (Text.Utf8.encode text))
    (hform : formOf? path = some form) :
    readFile t workingDir path = valueOf form text.toList := by
  unfold readFile
  rw [hbytes, hform]
  dsimp only
  rw [textOf_encode h]

theorem return_notMem_sample : '\r' ∉ (sample ++ "\n").toList := by
  rw [toList_sample]
  decide +kernel

end Settings

end ImportAudit
