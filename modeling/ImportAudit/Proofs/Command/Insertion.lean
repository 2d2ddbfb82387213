/-
# ImportAudit.Proofs.Command.Insertion — one more option on a command line.

Words are read one after the other, and what they give is put behind what was given before
(`readWords_join`).  So where options can stand on a command line (`takesOptions`), one more of them
adds what it gives and changes nothing else (`Arguments.Inserts`).  An option whose text is not
objected to keeps no command line from being read that is read without it (`Shape.read_insert`), and
so an option without a text keeps none from it (`Shape.read_insert_flag`).
-/
import ImportAudit.Command.Check
import ImportAudit.Proofs.Text.Sorted
import Mathlib.Data.List.Nodup

namespace ImportAudit.Command

variable {switches : List Switch} {mixes : Bool} {pending : Option (Switch × String)}

/-! ## Words before and behind -/

/-- Options can stand behind the words: none of them ends the options, and the last one waits for no
text. -/
def takesOptions (switches : List Switch) : Option (Switch × String) → List String → Bool
  | none, [] => true
  | some _, [] => false
  | some _, _ :: words => takesOptions switches none words
  | none, word :: words =>
    if word = "--" then false
    else if isOption word.toList then
      match readWord switches word.toList with
      | .error _ => false
      | .ok (_, pending) => takesOptions switches pending words
    else takesOptions switches none words

/-- Arguments with others put behind them. -/
def Arguments.join (a b : Arguments) : Arguments := ⟨a.given ++ b.given, a.rest ++ b.rest⟩

/-- What words give is put behind what was given before them. -/
theorem readWords_join (a x : Arguments) (words : List String) :
    readWords switches mixes (a.join x) pending words =
      (readWords switches mixes x pending words).map a.join := by
  have hgiven : ∀ (x : Arguments) more, { a.join x with given := (a.join x).given ++ more } =
      a.join { x with given := x.given ++ more } := by
    intro x more
    unfold Arguments.join
    rw [List.append_assoc]
  have hrest : ∀ (x : Arguments) more, { a.join x with rest := (a.join x).rest ++ more } =
      a.join { x with rest := x.rest ++ more } := by
    intro x more
    unfold Arguments.join
    rw [List.append_assoc]
  -- how a word is read does not depend on what was given, so that `a` stays in front all along
  induction words generalizing x pending with
  | nil => cases pending <;> rfl
  | cons word words ih =>
      cases pending with
      | some waiting =>
          unfold readWords
          rw [hgiven, ih]
      | none =>
          unfold readWords
          split
          · rw [hrest]
            rfl
          · split
            · cases readWord switches word.toList with
              | error e => rfl
              | ok found =>
                  dsimp only
                  rw [hgiven, ih]
            · split
              · rw [hrest, ih]
              · rw [hrest]
                rfl

/-- Words behind which options can stand give what they give, whatever stands behind them. -/
theorem exists_of_takesOptions {front : List String}
    (h : takesOptions switches pending front = true) (a : Arguments) :
    ∃ b, ∀ back, readWords switches true a pending (front ++ back) =
      readWords switches true b none back := by
  induction front generalizing a pending with
  | nil =>
      cases pending with
      | none => exact ⟨a, fun _ => rfl⟩
      | some waiting => cases h
  | cons word front ih =>
      cases pending with
      | some waiting =>
          exact ih h { a with given := a.given ++ [(waiting.1, word)] }
      | none =>
          unfold takesOptions at h
          split at h
          · cases h
          · next hdashes =>
              split at h
              · next hoption =>
                  cases hword : readWord switches word.toList with
                  | error e =>
                      rw [hword] at h
                      cases h
                  | ok found =>
                      rw [hword] at h
                      obtain ⟨b, hb⟩ := ih h { a with given := a.given ++ found.1 }
                      refine ⟨b, fun back => ?_⟩
                      rw [List.cons_append, readWords, if_neg hdashes, if_pos hoption, hword]
                      exact hb back
              · next hoption =>
                  obtain ⟨b, hb⟩ := ih h { a with rest := a.rest ++ [word] }
                  refine ⟨b, fun back => ?_⟩
                  rw [List.cons_append, readWords, if_neg hdashes, if_neg hoption, if_pos rfl]
                  exact hb back

/-! ## One more option -/

namespace Arguments

/-- The second arguments have an option more, with a text, and are the first otherwise. -/
def Inserts (a a' : Arguments) (w : Switch) (text : String) : Prop :=
  ∃ front back, a.given = front ++ back ∧ a'.given = front ++ (w, text) :: back ∧ a'.rest = a.rest

variable {a a' : Arguments} {w : Switch} {text name : String}

theorem Inserts.texts_of_ne (h : a.Inserts a' w text) (hne : w.name ≠ name) :
    a'.texts name = a.texts name := by
  obtain ⟨front, back, hgiven, hgiven', -⟩ := h
  unfold texts
  rw [hgiven, hgiven', List.filterMap_append, List.filterMap_append, List.filterMap_cons]
  dsimp only
  rw [if_neg hne]

theorem Inserts.mem_texts (h : a.Inserts a' w text) (other : String) :
    other ∈ a'.texts w.name ↔ other = text ∨ other ∈ a.texts w.name := by
  obtain ⟨front, back, hgiven, hgiven', -⟩ := h
  unfold texts
  rw [hgiven, hgiven', List.filterMap_append, List.filterMap_append, List.filterMap_cons]
  dsimp only
  rw [if_pos rfl, List.mem_append, List.mem_append, List.mem_cons]
  exact or_left_comm

theorem Inserts.text?_of_ne (h : a.Inserts a' w text) (hne : w.name ≠ name) :
    a'.text? name = a.text? name := by
  unfold text?
  rw [h.texts_of_ne hne]

/-- The text of an option that was not given before is the one that is put in. -/
theorem Inserts.text?_of_not_has (h : a.Inserts a' w text) (hno : a.has w.name = false) :
    a'.text? w.name = some text := by
  obtain ⟨front, back, hgiven, hgiven', -⟩ := h
  have hnone : ∀ gs, gs ⊆ a.given →
      gs.filterMap (fun g => if g.1.name = w.name then some g.2 else none) = [] := by
    intro gs hgs
    rw [List.filterMap_eq_nil_iff]
    intro g hg
    have hne := List.any_eq_false.mp hno g (hgs hg)
    rw [if_neg (by simpa using hne)]
  rw [hgiven] at hnone
  unfold text? texts
  rw [hgiven', List.filterMap_append, List.filterMap_cons,
    hnone front (List.subset_append_left front back),
    hnone back (List.subset_append_right front back)]
  dsimp only
  rw [if_pos rfl]
  rfl

theorem Inserts.has (h : a.Inserts a' w text) (name : String) :
    a'.has name = (decide (w.name = name) || a.has name) := by
  obtain ⟨front, back, hgiven, hgiven', -⟩ := h
  unfold Arguments.has
  rw [hgiven, hgiven', List.any_append, List.any_append, List.any_cons]
  exact Bool.or_left_comm _ _ _

theorem Inserts.has_of_ne (h : a.Inserts a' w text) (hne : w.name ≠ name) :
    a'.has name = a.has name := by
  rw [h.has, decide_eq_false hne, Bool.false_or]

theorem Inserts.rest (h : a.Inserts a' w text) : a'.rest = a.rest := by
  obtain ⟨-, -, -, -, hrest⟩ := h
  exact hrest

end Arguments

/-- Where options can stand, words that give an option give it besides. -/
theorem readWords_insert {front back added : List String} {w : Switch} {text : String}
    {a : Arguments} (hfront : takesOptions switches none front = true)
    (hadded : ∀ b : Arguments, readWords switches true b none (added ++ back) =
      readWords switches true { b with given := b.given ++ [(w, text)] } none back)
    (h : readWords switches true {} none (front ++ back) = .ok a) :
    ∃ a', readWords switches true {} none (front ++ (added ++ back)) = .ok a' ∧
      a.Inserts a' w text := by
  obtain ⟨b, hb⟩ := exists_of_takesOptions hfront {}
  -- what the words behind give is the same, whether the option stands before them or not
  have hjoin : ∀ (x : Arguments), readWords switches true x none back =
      (readWords switches true {} none back).map x.join := by
    intro x
    have hx : x = x.join {} := by
      unfold Arguments.join
      rw [List.append_nil, List.append_nil]
    rw [← readWords_join, ← hx]
  rw [hb, hjoin] at h
  cases hback : readWords switches true {} none back with
  | error e =>
      rw [hback] at h
      cases h
  | ok c =>
      rw [hback] at h
      obtain rfl := Except.ok.inj h
      refine ⟨Arguments.join { b with given := b.given ++ [(w, text)] } c, ?_, b.given, c.given,
        rfl, ?_, rfl⟩
      · rw [hb, hadded, hjoin, hback]
        rfl
      · show (b.given ++ [(w, text)]) ++ c.given = _
        rw [List.append_assoc]
        rfl

/-! ## Options of a command -/

theorem mem_of_readLetters {letters : List Char} {word : Word}
    (h : readLetters switches letters = .ok word) :
    (∀ g ∈ word.1, g.1 ∈ switches) ∧ ∀ g ∈ word.2, g.1 ∈ switches := by
  induction letters generalizing word with
  | nil =>
      cases h
      exact ⟨nofun, nofun⟩
  | cons c cs ih =>
      unfold readLetters at h
      dsimp only at h
      split at h
      · cases h
      · next w hfind =>
          have hmem : w ∈ switches := List.mem_of_find?_eq_some hfind
          split at h
          · split at h
            · cases h
            · next hrest =>
                cases h
                obtain ⟨hgiven, hpending⟩ := ih hrest
                exact ⟨List.forall_mem_cons.mpr ⟨hmem, hgiven⟩, hpending⟩
          · split at h
            · cases h
              exact ⟨nofun, fun g hg => Option.some.inj hg ▸ hmem⟩
            · cases h
              exact ⟨List.forall_mem_singleton.mpr hmem, nofun⟩

theorem mem_of_readWord {letters : List Char} {word : Word}
    (h : readWord switches letters = .ok word) :
    (∀ g ∈ word.1, g.1 ∈ switches) ∧ ∀ g ∈ word.2, g.1 ∈ switches := by
  unfold readWord at h
  dsimp only at h
  split at h
  · next w hfind =>
      have hmem : w ∈ switches := List.mem_of_find?_eq_some hfind
      split at h
      · cases h
        exact ⟨List.forall_mem_singleton.mpr hmem, nofun⟩
      · cases h
      · cases h
        exact ⟨nofun, fun g hg => Option.some.inj hg ▸ hmem⟩
      · cases h
        exact ⟨List.forall_mem_singleton.mpr hmem, nofun⟩
  · split at h
    · cases h
    · exact mem_of_readLetters h

/-- What is given are options of the command. -/
theorem mem_of_readWords {a b : Arguments} {words : List String}
    (ha : ∀ g ∈ a.given, g.1 ∈ switches) (hpending : ∀ g ∈ pending, g.1 ∈ switches)
    (h : readWords switches mixes a pending words = .ok b) : ∀ g ∈ b.given, g.1 ∈ switches := by
  induction words generalizing a pending with
  | nil =>
      cases pending with
      | none =>
          cases h
          exact ha
      | some waiting => cases h
  | cons word words ih =>
      cases pending with
      | some waiting =>
          have hgiven : ∀ g ∈ a.given ++ [(waiting.1, word)], g.1 ∈ switches := by
            refine List.forall_mem_append.mpr ⟨ha, List.forall_mem_singleton.mpr ?_⟩
            exact hpending waiting rfl
          refine ih ?_ ?_ h
          · exact hgiven
          · exact nofun
      | none =>
          unfold readWords at h
          split at h
          · cases h
            exact ha
          · split at h
            · cases hword : readWord switches word.toList with
              | error e =>
                  rw [hword] at h
                  cases h
              | ok found =>
                  rw [hword] at h
                  obtain ⟨hgiven, hwaiting⟩ := mem_of_readWord hword
                  exact ih (List.forall_mem_append.mpr ⟨ha, hgiven⟩) hwaiting h
            · split at h
              · refine ih ?_ ?_ h
                · exact ha
                · exact nofun
              · cases h
                exact ha

theorem findSome?_congr {α β : Type} {f g : α → Option β} {as : List α}
    (h : ∀ a ∈ as, f a = g a) : as.findSome? f = as.findSome? g := by
  induction as with
  | nil => rfl
  | cons a as ih =>
      obtain ⟨ha, has⟩ := List.forall_mem_cons.mp h
      rw [List.findSome?_cons, List.findSome?_cons, ha, ih has]

/-! ## Reading -/

namespace Shape

open Files

variable {t : Tree} {workingDir : Place} {shape : Shape} {w : Switch} {text : String}
  {a a' : Arguments}

/-- An option whose text is not objected to gives no cause for a complaint. -/
theorem complaint?_insert (hnames : (shape.allSwitches.map Switch.name).Nodup)
    (hw : w ∈ shape.allSwitches)
    (hold : a.has w.name = true →
      w.complaint? t workingDir ((a.text? w.name).getD "") = none)
    (hnew : w.complaint? t workingDir ((a'.text? w.name).getD "") = none)
    (ha : ∀ g ∈ a.given, g.1 ∈ shape.allSwitches) (h : a.Inserts a' w text) :
    shape.complaint? t workingDir a' = shape.complaint? t workingDir a := by
  have hsame : ∀ x ∈ a.given.map Prod.fst,
      x.complaint? t workingDir ((a'.text? x.name).getD "") =
        x.complaint? t workingDir ((a.text? x.name).getD "") := by
    intro x hx
    obtain ⟨g, hg, rfl⟩ := List.mem_map.mp hx
    by_cases hname : w.name = g.1.name
    · -- names are unique, so this is the option itself
      have hhas : a.has w.name = true :=
        List.any_eq_true.mpr ⟨g, hg, decide_eq_true hname.symm⟩
      have hg : w = g.1 := List.inj_on_of_nodup_map hnames hw (ha g hg) hname
      rw [← hg, hold hhas, hnew]
    · rw [h.text?_of_ne hname]
  have hrest := h.rest
  obtain ⟨front, back, hgiven, hgiven', -⟩ := h
  have hmap' : a'.given.map Prod.fst = front.map Prod.fst ++ w :: back.map Prod.fst := by
    rw [hgiven', List.map_append, List.map_cons]
  have hmap : a.given.map Prod.fst = front.map Prod.fst ++ back.map Prod.fst := by
    rw [hgiven, List.map_append]
  rw [hmap, List.forall_mem_append] at hsame
  unfold complaint?
  dsimp only
  rw [findSome?_eraseDups, findSome?_eraseDups, hrest, hmap, hmap', List.findSome?_append,
    List.findSome?_append, List.findSome?_cons, hnew, findSome?_congr hsame.1,
    findSome?_congr hsame.2]

/-- One more option with such a text keeps no command line from being read, unless it asks for
help. -/
theorem read_insert (added : List String) {front back : List String} (hmixes : shape.mixes = true)
    (hnames : (shape.allSwitches.map Switch.name).Nodup) (hw : w ∈ shape.allSwitches)
    (hold : a.has w.name = true →
      w.complaint? t workingDir ((a.text? w.name).getD "") = none)
    (hnew : ∀ a', a.Inserts a' w text →
      w.complaint? t workingDir ((a'.text? w.name).getD "") = none)
    (hhelp : w.name ≠ helpSwitch.name)
    (hfront : takesOptions shape.allSwitches none front = true)
    (hadded : ∀ b : Arguments, readWords shape.allSwitches true b none (added ++ back) =
      readWords shape.allSwitches true { b with given := b.given ++ [(w, text)] } none back)
    (h : shape.read t workingDir (front ++ back) = .ok (some a)) :
    ∃ a', shape.read t workingDir (front ++ (added ++ back)) = .ok (some a') ∧
      a.Inserts a' w text := by
  unfold read at h
  rw [hmixes] at h
  cases hwords : readWords shape.allSwitches true {} none (front ++ back) with
  | error e =>
      rw [hwords] at h
      cases h
  | ok b =>
      rw [hwords] at h
      dsimp only at h
      split at h
      · cases h
      · next hasked =>
          split at h
          · cases h
          · next hcomplaint =>
              cases h
              obtain ⟨a', hread, hinserts⟩ := readWords_insert hfront hadded hwords
              refine ⟨a', ?_, hinserts⟩
              have hgiven : ∀ g ∈ a.given, g.1 ∈ shape.allSwitches := by
                refine mem_of_readWords ?_ ?_ hwords
                · exact nofun
                · exact nofun
              unfold read
              rw [hmixes, hread]
              dsimp only
              rw [hinserts.has_of_ne hhelp, if_neg hasked,
                complaint?_insert hnames hw hold (hnew a' hinserts) hgiven hinserts, hcomplaint]

/-- An option without a text can be put in wherever options can stand. -/
theorem read_insert_flag {front back : List String} (hmixes : shape.mixes = true)
    (hnames : (shape.allSwitches.map Switch.name).Nodup) (hw : w ∈ shape.allSwitches)
    (huse : w.use = none) (hhelp : w.name ≠ helpSwitch.name) (hdashes : w.name ≠ "--")
    (hoption : isOption w.name.toList = true)
    (hword : readWord shape.allSwitches w.name.toList = .ok ([(w, "")], none))
    (hfront : takesOptions shape.allSwitches none front = true)
    (h : shape.read t workingDir (front ++ back) = .ok (some a)) :
    ∃ a', shape.read t workingDir (front ++ (w.name :: back)) = .ok (some a') ∧
      a.Inserts a' w "" := by
  have hfree : ∀ text, w.complaint? t workingDir text = none := by
    intro text
    unfold Switch.complaint?
    rw [huse]
  refine read_insert [w.name] hmixes hnames hw (fun _ => hfree _) (fun _ _ => hfree _) hhelp hfront
    ?_ h
  intro c
  rw [List.cons_append, readWords, if_neg hdashes, if_pos hoption, hword]
  rfl

end Shape

end ImportAudit.Command
