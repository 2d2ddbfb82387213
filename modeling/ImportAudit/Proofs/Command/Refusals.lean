/-
# ImportAudit.Proofs.Command.Refusals — what a command line is refused for.

A command that refuses its command line by itself ends in a fault of its own kind, which is told of
and becomes a status.  Anything else that goes wrong in a check is another kind of fault
(`Fault.IsOther`): a tag that is not closed, a file that cannot be written, a manifest that goes
beyond all bounds.  So once files are looked for nothing is refused (`Command.unrefused_checkFound`).
-/
import ImportAudit.Proofs.Command.Stages

namespace ImportAudit

/-- The fault is not that of a command line that is refused. -/
def Fault.IsOther (f : Fault) : Prop := ∀ message, f ≠ .usage message

/-! ## Faults of markup -/

namespace Console

theorem isOther_of_applyTag {position : Nat} {inside : List Char} {styles : List String}
    {f : Fault} (h : applyTag position inside styles = .error f) : f.IsOther := by
  unfold applyTag at h
  dsimp only at h
  split at h
  · split at h
    · split at h
      · cases h
        exact nofun
      · cases h
    · split at h
      · cases h
      · cases h
        exact nofun
  · cases h

theorem isOther_of_renderFrom {fuel position : Nat} {chunk cs : List Char} {styles : List String}
    {f : Fault} (h : renderFrom fuel position chunk styles cs = .error f) : f.IsOther := by
  induction fuel generalizing position chunk styles cs with
  | zero => cases cs <;> cases h
  | succ fuel ih =>
      cases cs with
      | nil => cases h
      | cons c cs =>
          unfold renderFrom at h
          dsimp only at h
          split at h
          · exact ih h
          · split at h
            · split at h
              · next hrest =>
                  cases h
                  exact ih hrest
              · cases h
            · split at h
              · next htag =>
                  cases h
                  exact isOther_of_applyTag htag
              · split at h
                · next hrest =>
                    cases h
                    exact ih hrest
                · cases h

theorem isOther_of_render {text : String} {f : Fault} (h : render text = .error f) : f.IsOther :=
  isOther_of_renderFrom h

theorem isOther_of_paragraph {width : Nat} {text : String} {f : Fault}
    (h : paragraph width text = .error f) : f.IsOther := by
  unfold paragraph at h
  split at h
  · next hrender =>
      cases h
      exact isOther_of_render hrender
  · cases h

theorem isOther_of_panel {width : Nat} {title text : String} {f : Fault}
    (h : panel width title text = .error f) : f.IsOther := by
  unfold panel at h
  split at h
  · next hrender =>
      cases h
      exact isOther_of_render hrender
  · split at h
    · next hrender =>
        cases h
        exact isOther_of_render hrender
    · cases h

theorem isOther_of_renderAll {texts : List String} {f : Fault} (h : renderAll texts = .error f) :
    f.IsOther := by
  induction texts with
  | nil => cases h
  | cons text texts ih =>
      unfold renderAll at h
      split at h
      · next hrender =>
          cases h
          exact isOther_of_render hrender
      · split at h
        · next hrest =>
            cases h
            exact ih hrest
        · cases h

theorem isOther_of_renderColumns {columns : List Column} {f : Fault}
    (h : renderColumns columns = .error f) : f.IsOther := by
  induction columns with
  | nil => cases h
  | cons column columns ih =>
      unfold renderColumns at h
      split at h
      · next hentries =>
          cases h
          exact isOther_of_renderAll hentries
      · split at h
        · next hrest =>
            cases h
            exact ih hrest
        · cases h

theorem isOther_of_table {width : Nat} {title : String} {columns : List Column} {f : Fault}
    (h : table width title columns = .error f) : f.IsOther := by
  unfold table at h
  split at h
  · next hcolumns =>
      cases h
      exact isOther_of_renderColumns hcolumns
  · split at h
    · next hrender =>
        cases h
        exact isOther_of_render hrender
    · cases h

/-- What keeps blocks from being printed keeps one of them from it. -/
theorem mem_of_printAll {blocks : List (Except Fault String)} {f : Fault}
    (h : (printAll blocks).2 = some f) : .error f ∈ blocks := by
  induction blocks with
  | nil => cases h
  | cons block blocks ih =>
      cases block with
      | error e =>
          cases h
          exact List.mem_cons_self
      | ok shown => exact List.mem_cons_of_mem _ (ih h)

end Console

namespace Report

theorem isOther_of_mem_listing {width : Nat} {verbose : Bool} {result : CheckResult} {f : Fault}
    (h : .error f ∈ listing width verbose result) : f.IsOther := by
  have hitemized : ∀ heading items, .error f ∈ itemized width heading items → f.IsOther := by
    intro heading items hmem
    unfold itemized at hmem
    split at hmem
    · cases hmem
    · rcases List.mem_append.mp hmem with hmem | hmem
      · rcases List.mem_cons.mp hmem with heq | hmem
        · exact Console.isOther_of_paragraph heq.symm
        · obtain ⟨item, -, heq⟩ := List.mem_map.mp hmem
          exact Console.isOther_of_paragraph heq
      · rcases List.mem_singleton.mp hmem with heq
        cases heq
  have hfooter : .error f ∈ footer width verbose result → f.IsOther := by
    intro hmem
    unfold footer at hmem
    split at hmem
    · rcases List.mem_cons.mp hmem with heq | hmem
      · exact Console.isOther_of_paragraph heq.symm
      · split at hmem
        · exact Console.isOther_of_paragraph (List.mem_singleton.mp hmem).symm
        · cases hmem
    · exact Console.isOther_of_paragraph (List.mem_singleton.mp hmem).symm
  unfold listing at h
  rcases List.mem_append.mp h with h | h
  · rcases List.mem_append.mp h with h | h
    · rcases List.mem_append.mp h with h | h
      · rcases List.mem_cons.mp h with heq | h
        · cases heq
        · rcases List.mem_cons.mp h with heq | h
          · exact Console.isOther_of_panel heq.symm
          · exact hitemized _ _ h
      · exact hitemized _ _ h
    · obtain ⟨group, -, heq⟩ := List.mem_map.mp h
      exact Console.isOther_of_table heq
  · exact hfooter h

end Report

/-! ## Runs that refuse nothing -/

namespace Run

variable {α β : Type}

/-- The run does not end in the fault of a command line that is refused. -/
def Unrefused (x : Run α) : Prop := ∀ s f, (x.run s).1 = .error f → f.IsOther

theorem unrefused_of_returns {x : Run α} (h : ∀ s, ∃ a, (x.run s).1 = .ok a) : Unrefused x := by
  intro s f hf
  obtain ⟨a, ha⟩ := h s
  rw [ha] at hf
  cases hf

theorem unrefused_pure (a : α) : Unrefused (pure a : Run α) :=
  unrefused_of_returns fun _ => ⟨a, rfl⟩

theorem unrefused_get : Unrefused (get : Run Session) :=
  unrefused_of_returns fun s => ⟨s, rfl⟩

theorem unrefused_modify (change : Session → Session) :
    Unrefused (modify change : Run Unit) :=
  unrefused_of_returns fun _ => ⟨(), rfl⟩

theorem unrefused_ofExcept {r : Except Fault α} (h : ∀ {f}, r = .error f → f.IsOther) :
    Unrefused (ofExcept r) := by
  intro s f hf
  cases r with
  | ok a => cases hf
  | error e =>
      cases hf
      exact h rfl

theorem Unrefused.bind {x : Run α} {f : α → Run β} (hx : Unrefused x)
    (hf : ∀ a, Unrefused (f a)) : Unrefused (x >>= f) := by
  intro s e he
  rw [run_bind] at he
  match hrun : x.run s with
  | (.ok a, t) =>
      rw [hrun] at he
      exact hf a t e he
  | (.error g, t) =>
      rw [hrun] at he
      cases he
      exact hx s e (congrArg Prod.fst hrun)

/-- A fault that is made of others is none of a command line. -/
theorem isOther_of_mapError {ε : Type} {r : Except ε α} {wrap : ε → Fault}
    (hwrap : ∀ e, (wrap e).IsOther) {f : Fault} (h : r.mapError wrap = .error f) : f.IsOther := by
  cases r with
  | ok a => cases h
  | error e =>
      cases h
      exact hwrap e

theorem unrefused_print {blocks : List (Except Fault String)}
    (h : ∀ {f}, .error f ∈ blocks → f.IsOther) : Unrefused (print blocks) := by
  unfold print
  dsimp only
  refine (unrefused_modify _).bind fun _ => ?_
  cases hfault : (Console.printAll blocks).2 with
  | none => exact unrefused_pure ()
  | some f =>
      intro s e he
      cases he
      exact h (Console.mem_of_printAll hfault)

theorem unrefused_warnAt (width : Nat) (text : String) : Unrefused (warnAt width text) :=
  (unrefused_ofExcept Console.isOther_of_paragraph).bind fun _ => unrefused_modify _

/-! ## Checking files -/

theorem isOther_of_load {s : Session} {path : Path} {f : Fault}
    (h : Manifest.load s.files s.workingDir path = .error f) : f.IsOther := by
  unfold Manifest.load at h
  split at h
  · cases h
  · unfold Manifest.ofBytes at h
    split at h
    · cases h
    · rcases Manifest.ofText_cases (some path.toString) (Text.Utf8.unifyLines _) with
        ⟨members, -, htext⟩ | ⟨-, -, p, -, htext⟩ | ⟨fault, -, -, htext⟩
      · rw [htext] at h
        cases h
      · rw [htext] at h
        cases h
      · rw [htext] at h
        cases h
        exact nofun

theorem isOther_of_singly {o : RuleOptions} {s : Session} {p : Path} {f : Fault}
    (h : (singly o s p).1 = .error f) : f.IsOther := by
  unfold singly at h
  cases hload : SourceFile.load s.files s.workingDir p with
  | error e =>
      rw [hload] at h
      cases h
      unfold SourceFile.load at hload
      split at hload
      · cases hload
        exact nofun
      · cases hload
  | ok file =>
      rw [hload] at h
      dsimp only at h
      unfold singlyOf at h
      split at h
      · cases hmanifest : Manifest.ofFile s file.fileName with
        | ok loaded =>
            rw [hmanifest] at h
            cases h
        | error e =>
            rw [hmanifest] at h
            cases h
            unfold Manifest.ofFile at hmanifest
            split at hmanifest
            · cases hmanifest
              exact nofun
            · cases hmanifest
            · exact isOther_of_load hmanifest
      · cases h

theorem unrefused_applyTo (o : RuleOptions) (p : Path) :
    Unrefused (applyTo { options := o } p) := by
  intro s f hf
  obtain ⟨t, hrun, -⟩ := applyTo_run_singly o s p
  rw [hrun] at hf
  exact isOther_of_singly hf

theorem unrefused_outcome (o : RuleOptions) (p : Path) :
    Unrefused (outcome { options := o } p) := by
  intro s f hf
  unfold outcome at hf
  rw [run_tryCatch, map_eq_pure_bind, run_bind] at hf
  match hrun : (applyTo { options := o } p).run s with
  | (.ok findings, t) =>
      rw [hrun] at hf
      cases hf
  | (.error e, t) =>
      rw [hrun] at hf
      dsimp only at hf
      split at hf
      · cases hf
      · cases hf
        exact unrefused_applyTo o p s f (congrArg Prod.fst hrun)

theorem unrefused_checkEach (o : RuleOptions) (paths : List Path) :
    ∀ r : CheckResult, Unrefused (checkEach { options := o } r paths) := by
  induction paths with
  | nil => exact fun r => unrefused_pure r
  | cons p ps ih => exact fun r => (unrefused_outcome o p).bind fun found => ih _

theorem unrefused_check (paths : List Path) (o : RuleOptions) : Unrefused (check paths o) := by
  refine unrefused_get.bind fun s => (unrefused_modify _).bind fun _ => ?_
  refine Unrefused.bind ?_ fun r => unrefused_get.bind fun _ => unrefused_pure _
  intro t f hf
  exact unrefused_checkEach o paths {} t f hf

end Run

namespace Command

open Run (Unrefused run_bind_of_ok)

variable {s u v : Session} {status : Nat} {r : CheckRequest}

/-! ## The command -/

theorem unrefused_configureLoggers (r : CheckRequest) (logging : LoggingSettings) :
    Unrefused (configureLoggers r logging) := by
  have hlevel : ∀ {f}, r.levelWith logging = .error f → f.IsOther := by
    intro f hf
    unfold CheckRequest.levelWith at hf
    split at hf
    · cases hf
    · split at hf
      · cases hf
      · cases hf
        exact nofun
  refine (Run.unrefused_ofExcept hlevel).bind fun _ => Run.unrefused_get.bind fun _ => ?_
  refine Unrefused.bind ?_ fun _ => Run.unrefused_modify _
  have hlog : ∀ f, (Fault.log f).IsOther := fun _ _ => nofun
  exact Run.unrefused_ofExcept (Run.isOther_of_mapError hlog)

theorem isOther_of_formatWith {o : OutputSettings} {f : Fault}
    (h : r.formatWith o = .error f) : f.IsOther := by
  unfold CheckRequest.formatWith at h
  split at h
  · cases h
  · cases h
  · cases h
    exact nofun

theorem unrefused_filesOf (paths : List String) (d : DiscoverySettings) :
    Unrefused (filesOf paths d) := by
  have hmisuse : ∀ f, (Fault.misuse f).IsOther := fun _ _ => nofun
  have hfiles : ∀ f, (Fault.files f).IsOther := fun _ _ => nofun
  -- two settings are looked up, and then what they are set to is read
  refine (Run.unrefused_ofExcept (Run.isOther_of_mapError hmisuse)).bind fun _ => ?_
  refine (Run.unrefused_ofExcept (Run.isOther_of_mapError hmisuse)).bind fun _ => ?_
  refine (Run.unrefused_ofExcept (Run.isOther_of_mapError hmisuse)).bind fun _ => ?_
  refine (Run.unrefused_ofExcept (Run.isOther_of_mapError hmisuse)).bind fun _ => ?_
  refine Run.unrefused_get.bind fun _ => ?_
  exact Run.unrefused_ofExcept (Run.isOther_of_mapError hfiles)

theorem unrefused_echoAll (texts : List String) : Unrefused (echoAll texts) := by
  induction texts with
  | nil => exact Run.unrefused_pure ()
  | cons text texts ih => exact (Run.unrefused_modify _).bind fun _ => ih

theorem unrefused_complainAll (texts : List String) : Unrefused (complainAll texts) := by
  induction texts with
  | nil => exact Run.unrefused_pure ()
  | cons text texts ih => exact (Run.unrefused_modify _).bind fun _ => ih

theorem unrefused_writeJson (result : CheckResult) (file : Value) :
    Unrefused (writeJson result file) := by
  have hpath : ∀ {f}, pathOf file = .error f → f.IsOther := by
    intro f hf
    unfold pathOf at hf
    split at hf
    · cases hf
    · split at hf
      · cases hf
        exact nofun
      · cases hf
        exact nofun
    · cases hf
      exact nofun
  unfold writeJson
  split
  · refine (Run.unrefused_ofExcept hpath).bind fun path => ?_
    refine Unrefused.bind ?_ fun _ => Run.unrefused_warnAt _ _
    refine Run.unrefused_get.bind fun s => ?_
    have hfiles : ∀ f, (Fault.files f).IsOther := fun _ _ => nofun
    refine (Run.unrefused_ofExcept (Run.isOther_of_mapError hfiles)).bind fun files => ?_
    exact Run.unrefused_of_returns fun _ => ⟨(), rfl⟩
  · exact Run.unrefused_modify _

theorem unrefused_deliver (format : String) (file : Value) (r : CheckRequest)
    (result : CheckResult) : Unrefused (deliver format file r result) := by
  unfold deliver
  split
  · exact unrefused_writeJson result file
  · split
    · refine (unrefused_echoAll _).bind fun _ => ?_
      exact (unrefused_complainAll _).bind fun _ => unrefused_complainAll _
    · exact Run.unrefused_print Report.isOther_of_mem_listing

/-- Nothing is refused once files are looked for. -/
theorem unrefused_checkFound (r : CheckRequest) (b : Basis) (files : List Path) :
    Unrefused (checkFound r b files) := by
  unfold checkFound
  split
  · split
    · refine Unrefused.bind (Run.unrefused_print ?_) fun _ => Run.unrefused_pure _
      intro f hf
      exact Console.isOther_of_paragraph (List.mem_singleton.mp hf).symm
    · exact Run.unrefused_pure _
  · refine (Run.unrefused_check _ _).bind fun result => ?_
    exact (unrefused_deliver _ _ _ _).bind fun _ => Run.unrefused_pure _

end Command

end ImportAudit
