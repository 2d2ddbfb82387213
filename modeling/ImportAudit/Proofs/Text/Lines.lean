/-
# ImportAudit.Proofs.Text.Lines — telling lines apart.

Lines that are printed one after the other, each with a line feed behind it and without the commands
to a terminal in it, are found again where the text is split at the line feeds just if none of them
has a line feed or a command in it (`isLines_printed_iff`).
-/
import ImportAudit.Proofs.Console.Lines
import ImportAudit.Text.Terminal

namespace ImportAudit.Text

/-! ## Commands to a terminal -/

/-- Leaving commands out leaves the other characters in order. -/
theorem dropCommands_sublist (found : Nat) (cs : List Char) :
    (dropCommands found cs).Sublist cs := by
  induction cs generalizing found with
  | nil =>
      rw [dropCommands]
  | cons c cs ih =>
      cases found with
      | succ found =>
          rw [dropCommands]
          exact (ih found).cons c
      | zero =>
          rw [dropCommands]
          split
          · exact (ih _).cons c
          · exact (ih 0).cons_cons c

/-- Where there is no escape character there is no command. -/
theorem dropCommands_of_notMem {cs : List Char} (h : escapeChar ∉ cs) : dropCommands 0 cs = cs := by
  induction cs with
  | nil => rw [dropCommands]
  | cons c cs ih =>
      obtain ⟨hc, hcs⟩ := not_or.mp (List.mem_cons.not.mp h)
      have hnone : commandLength (c :: cs) = none := by
        cases cs with
        | nil => rfl
        | cons d cs =>
            rw [commandLength]
            exact if_neg fun hopens => hc hopens.1.symm
      rw [dropCommands, hnone]
      exact congrArg (c :: ·) (ih hcs)

theorem toList_withoutCommands (text : String) :
    (withoutCommands text).toList = dropCommands 0 text.toList := String.toList_ofList

theorem withoutCommands_eq_iff {text : String} :
    withoutCommands text = text ↔ dropCommands 0 text.toList = text.toList := by
  rw [← toList_withoutCommands, String.toList_inj]

/-! ## Lines -/

/-- A separator between two texts splits them, and each is split on its own. -/
theorem splitOn_append (sep : Char) (before behind : List Char) :
    splitOn sep (before ++ sep :: behind) = splitOn sep before ++ splitOn sep behind := by
  induction before with
  | nil =>
      show splitOn sep (sep :: behind) = [] :: splitOn sep behind
      rw [splitOn]
      cases hpieces : splitOn sep behind with
      | nil => exact absurd hpieces (Console.splitOn_ne_nil _ _)
      | cons piece pieces => exact if_pos rfl
  | cons c before ih =>
      rw [List.cons_append, splitOn, splitOn, ih]
      cases hpieces : splitOn sep before with
      | nil => exact absurd hpieces (Console.splitOn_ne_nil _ _)
      | cons piece pieces =>
          rw [List.cons_append]
          dsimp only
          split <;> rfl

/-- A line feed ends a line. -/
theorem splitOn_append_cons {sep : Char} {line : List Char} (h : sep ∉ line) (rest : List Char) :
    splitOn sep (line ++ sep :: rest) = line :: splitOn sep rest := by
  rw [splitOn_append, Console.splitOn_of_notMem h, List.singleton_append]

/-- Lines without line feeds are what the text is split into that has them one after the other. -/
theorem splitOn_flatMap {sep : Char} {lines : List (List Char)} (h : ∀ line ∈ lines, sep ∉ line) :
    splitOn sep (lines.flatMap (· ++ [sep])) = lines ++ [[]] := by
  induction lines with
  | nil => rfl
  | cons line lines ih =>
      obtain ⟨hline, hlines⟩ := List.forall_mem_cons.mp h
      rw [List.flatMap_cons, List.append_assoc, List.singleton_append, splitOn_append_cons hline,
        ih hlines, List.cons_append]

/-- No piece of a text has the character in it that the text is split at. -/
theorem notMem_of_mem_splitOn {sep : Char} {text piece : List Char} (h : piece ∈ splitOn sep text) :
    sep ∉ piece := by
  induction text generalizing piece with
  | nil =>
      rw [List.mem_singleton.mp h]
      exact List.not_mem_nil
  | cons c cs ih =>
      rw [splitOn] at h
      cases hpieces : splitOn sep cs with
      | nil => exact absurd hpieces (Console.splitOn_ne_nil _ _)
      | cons first pieces =>
          rw [hpieces] at h ih
          dsimp only at h
          split at h
          · rcases List.mem_cons.mp h with rfl | hmem
            · exact List.not_mem_nil
            · exact ih hmem
          · next hc =>
              rcases List.mem_cons.mp h with rfl | hmem
              · exact List.mem_cons.not.mpr
                  (not_or.mpr ⟨Ne.symm hc, ih List.mem_cons_self⟩)
              · exact ih (List.mem_cons_of_mem _ hmem)

/-- Texts as they are printed, each on a line. -/
def printed (texts : List String) : String :=
  String.join (texts.map fun text => withoutCommands text ++ "\n")

/-- The lines of a text are these, and the last one has a line feed behind it. -/
def IsLines (text : String) (lines : List String) : Prop :=
  splitOn '\n' text.toList = lines.map String.toList ++ [[]]

instance (text : String) (lines : List String) : Decidable (IsLines text lines) :=
  inferInstanceAs (Decidable (_ = _))

theorem printed_cons (text : String) (texts : List String) :
    printed (text :: texts) = withoutCommands text ++ "\n" ++ printed texts := by
  unfold printed
  rw [List.map_cons, String.join_cons]

theorem printed_append (texts more : List String) :
    printed (texts ++ more) = printed texts ++ printed more := by
  induction texts with
  | nil => exact String.empty_append.symm
  | cons text texts ih =>
      rw [List.cons_append, printed_cons, printed_cons, ih, ← String.append_assoc]

theorem toList_printed (texts : List String) :
    (printed texts).toList =
      (texts.map fun text => dropCommands 0 text.toList).flatMap (· ++ ['\n']) := by
  induction texts with
  | nil => rfl
  | cons text texts ih =>
      rw [printed_cons, String.toList_append, String.toList_append, ih, toList_withoutCommands]
      rfl

/-- Texts that are printed are the lines of what is printed just if none of them has a line feed in
it, and none a command to a terminal. -/
theorem isLines_printed_iff {texts : List String} :
    IsLines (printed texts) texts ↔
      ∀ text ∈ texts, '\n' ∉ text.toList ∧ withoutCommands text = text := by
  -- what is printed of texts without line feeds
  have hsplit : (∀ text ∈ texts, '\n' ∉ text.toList) →
      splitOn '\n' (printed texts).toList =
        (texts.map fun text => dropCommands 0 text.toList) ++ [[]] := by
    intro h
    rw [toList_printed]
    refine splitOn_flatMap fun line hline => ?_
    obtain ⟨text, htext, rfl⟩ := List.mem_map.mp hline
    exact fun hmem => h text htext ((dropCommands_sublist 0 text.toList).subset hmem)
  unfold IsLines
  constructor
  · intro h
    have hfeeds : ∀ text ∈ texts, '\n' ∉ text.toList := by
      intro text htext
      have hpiece : text.toList ∈ splitOn '\n' (printed texts).toList := by
        rw [h]
        exact List.mem_append_left _ (List.mem_map_of_mem htext)
      exact notMem_of_mem_splitOn hpiece
    rw [hsplit hfeeds, List.append_left_inj] at h
    intro text htext
    exact ⟨hfeeds text htext, withoutCommands_eq_iff.mpr (List.map_inj_left.mp h text htext)⟩
  · intro h
    rw [hsplit fun text htext => (h text htext).1, List.append_left_inj]
    exact List.map_congr_left fun text htext => withoutCommands_eq_iff.mp (h text htext).2

/-- Texts are the lines of what is printed of them if they have neither line feeds nor escape
characters in them. -/
theorem isLines_printed {texts : List String}
    (h : ∀ text ∈ texts, '\n' ∉ text.toList ∧ escapeChar ∉ text.toList) :
    IsLines (printed texts) texts := by
  rw [isLines_printed_iff]
  intro text htext
  obtain ⟨hfeed, hescape⟩ := h text htext
  exact ⟨hfeed, withoutCommands_eq_iff.mpr (dropCommands_of_notMem hescape)⟩

end ImportAudit.Text
