/-
# ImportAudit.Proofs.Analysis.Verdict — what an analysis makes of its references.

Once it is settled which packages may be imported, what becomes of a reference is a matter of its
text alone: `Analysis.verdict` is the finding that it makes, if it makes one.  The lemmas say that
every operation of an analysis is one of two things, over any lawful monad.  On a settled analysis
it is pure and leaves the analysis as it is.  On one that is not settled it asks the resolver once
if it meets a reference to a package that is not built in, goes on as if the analysis had been
settled with the answer, and otherwise asks nothing and changes nothing.
-/
import ImportAudit.Check.Analysis
import Mathlib.Tactic.ByContra

namespace ImportAudit

/-- The reference points at a package that is not built in. -/
def Reference.isExternal (r : Reference) : Bool :=
  match Target.ofSpecifier r.text with
  | .external _ => true
  | _ => false

namespace Analysis

/-! ## Verdicts -/

/-- A package passes if it is among the packages `names` that may be imported, or ignored. -/
def passes (a : Analysis) (names : List String) (package : String) : Bool :=
  names.contains package || a.options.ignores package

/-- The finding that a reference makes if `names` are the packages that may be imported. -/
def verdict (a : Analysis) (names : List String) (r : Reference) : Option Finding :=
  match Target.ofSpecifier r.text with
  | .external package =>
    if a.passes names package then none else some (.ofReference a.file.fileName r package)
  | _ => none

theorem verdict_of_not_isExternal (a : Analysis) (names : List String) {r : Reference}
    (h : r.isExternal = false) : a.verdict names r = none := by
  unfold Reference.isExternal at h
  unfold verdict
  split at h <;> simp_all

theorem filterMap_verdict_of_not_any (a : Analysis) (names : List String) {refs : List Reference}
    (h : refs.any Reference.isExternal = false) : refs.filterMap (a.verdict names) = [] := by
  rw [List.filterMap_eq_nil_iff]
  intro r hr
  rw [List.any_eq_false] at h
  exact verdict_of_not_isExternal a names (by simpa using h r hr)

/-- The analysis of a file of which nothing is known yet. -/
abbrev ofFile (file : SourceFile) (o : RuleOptions) : Analysis := { file, options := o }

/-- The analysis, settled on the packages that may be imported. -/
def settled (a : Analysis) (names : List String) : Analysis := { a with allowed? := some names }

@[simp] theorem settled_file (a : Analysis) (names : List String) :
    (a.settled names).file = a.file := rfl

@[simp] theorem settled_options (a : Analysis) (names : List String) :
    (a.settled names).options = a.options := rfl

/-! ## The packages that may be imported -/

variable {m : Type → Type} [Monad m] [LawfulMonad m] (resolver : Resolver m)

theorem allowed_run_settled (a : Analysis) (names : List String) :
    (allowed resolver).run (a.settled names) = pure (names, a.settled names) := by
  simp [allowed, settled]

theorem allowed_run_unsettled {a : Analysis} (h : a.allowed? = none) :
    (allowed resolver).run a =
      resolver a.file.fileName a.options >>= fun names => pure (names, a.settled names) := by
  simp [allowed, settled, h]

theorem shouldReport_run_settled (a : Analysis) (names : List String) (package : String) :
    (shouldReport resolver package).run (a.settled names) =
      pure (!a.passes names package, a.settled names) := by
  simp [shouldReport, allowed_run_settled, passes]

theorem shouldReport_run_unsettled {a : Analysis} (h : a.allowed? = none) (package : String) :
    (shouldReport resolver package).run a =
      resolver a.file.fileName a.options >>= fun names =>
        pure (!a.passes names package, a.settled names) := by
  simp [shouldReport, allowed_run_unsettled resolver h, passes]

/-! ## One reference -/

omit [LawfulMonad m] in
theorem judge_run_of_not_isExternal (a : Analysis) {r : Reference} (h : r.isExternal = false) :
    (judge resolver r).run a = pure (none, a) := by
  unfold Reference.isExternal at h
  unfold judge
  cases hr : Target.ofSpecifier r.text with
  | relative => rfl
  | builtin p => rfl
  | external p => simp [hr] at h

theorem judge_run_settled (a : Analysis) (names : List String) (r : Reference) :
    (judge resolver r).run (a.settled names) = pure (a.verdict names r, a.settled names) := by
  cases hr : Target.ofSpecifier r.text with
  | relative => simp [judge, verdict, hr]
  | builtin p => simp [judge, verdict, hr]
  | external p =>
      simp only [judge, verdict, hr, StateT.run_bind, shouldReport_run_settled, pure_bind]
      cases a.passes names p <;> simp

/-- The first reference for which it matters asks the resolver, and is then judged by the answer. -/
theorem judge_run_of_isExternal {a : Analysis} (ha : a.allowed? = none) {r : Reference}
    (h : r.isExternal = true) :
    (judge resolver r).run a =
      resolver a.file.fileName a.options >>= fun names =>
        pure (a.verdict names r, a.settled names) := by
  unfold Reference.isExternal at h
  cases hr : Target.ofSpecifier r.text with
  | relative => simp [hr] at h
  | builtin p => simp [hr] at h
  | external p =>
      simp only [judge, verdict, hr, StateT.run_bind, shouldReport_run_unsettled resolver ha,
        bind_assoc, pure_bind]
      congr 1
      funext names
      cases a.passes names p <;> simp

/-! ## All references at once -/

variable (note : Finding → m Unit)

theorem collect_run_settled (a : Analysis) (names : List String) (refs : List Reference) :
    (collect resolver note refs).run (a.settled names) =
      forM (refs.filterMap (a.verdict names)) note >>= fun _ =>
        pure (refs.filterMap (a.verdict names), a.settled names) := by
  induction refs with
  | nil => simp [collect]
  | cons r rest ih =>
      rw [collect, StateT.run_bind, judge_run_settled, pure_bind]
      cases hv : a.verdict names r with
      | none => simpa [hv] using ih
      | some f => simp [hv, ih]

/-- The resolver is asked if there is anything to ask it about, and by its answer every reference
is judged; `note` is told of the findings afterwards, in their order. -/
theorem collect_run_unsettled {a : Analysis} (ha : a.allowed? = none) (refs : List Reference) :
    (collect resolver note refs).run a =
      if refs.any Reference.isExternal then
        resolver a.file.fileName a.options >>= fun names =>
          forM (refs.filterMap (a.verdict names)) note >>= fun _ =>
            pure (refs.filterMap (a.verdict names), a.settled names)
      else pure ([], a) := by
  induction refs with
  | nil => simp [collect]
  | cons r rest ih =>
      rw [collect, StateT.run_bind]
      cases hr : r.isExternal with
      | false =>
          rw [judge_run_of_not_isExternal resolver a hr, pure_bind]
          simpa [hr, verdict_of_not_isExternal a _ hr] using ih
      | true =>
          rw [judge_run_of_isExternal resolver ha hr, bind_assoc]
          simp only [List.any_cons, hr, Bool.true_or, if_true]
          congr 1
          funext names
          -- the analysis is settled from here on
          rw [pure_bind]
          cases hv : a.verdict names r with
          | none => simp [hv, collect_run_settled]
          | some f => simp [hv, collect_run_settled]

/-! ## One finding after the other -/

/-- The first finding among references, and the references behind the one that makes it. -/
def firstFinding (a : Analysis) (names : List String) :
    List Reference → Option Finding × List Reference
  | [] => (none, [])
  | r :: rest =>
    match a.verdict names r with
    | some f => (some f, rest)
    | none => firstFinding a names rest

/-- The first finding heads the list of all findings, and behind it come the others. -/
theorem firstFinding_eq (a : Analysis) (names : List String) (refs : List Reference) :
    (a.firstFinding names refs).1 = (refs.filterMap (a.verdict names)).head? ∧
      (a.firstFinding names refs).2.filterMap (a.verdict names) =
        (refs.filterMap (a.verdict names)).tail := by
  induction refs with
  | nil => exact ⟨rfl, rfl⟩
  | cons r rest ih =>
      rw [firstFinding]
      cases hv : a.verdict names r with
      | none => simpa [hv] using ih
      | some f => simp [hv]

/-- What is passed on the way to the first finding has an external reference if there is one. -/
theorem firstFinding_passes (a : Analysis) (names : List String) (refs : List Reference) :
    ∃ passed, refs = passed ++ (a.firstFinding names refs).2 ∧
      passed.any Reference.isExternal = refs.any Reference.isExternal := by
  induction refs with
  | nil => exact ⟨[], rfl, rfl⟩
  | cons r rest ih =>
      rw [firstFinding]
      cases hv : a.verdict names r with
      | none =>
          obtain ⟨passed, heq, hany⟩ := ih
          refine ⟨r :: passed, ?_, ?_⟩
          · exact congrArg (r :: ·) heq
          · rw [List.any_cons, List.any_cons, hany]
      | some f =>
          have hr : r.isExternal = true := by
            by_contra hno
            rw [verdict_of_not_isExternal a names (by simpa using hno)] at hv
            cases hv
          exact ⟨[r], rfl, by simp [hr]⟩

theorem firstFinding_of_not_any (a : Analysis) (names : List String) {refs : List Reference}
    (h : refs.any Reference.isExternal = false) : a.firstFinding names refs = (none, []) := by
  induction refs with
  | nil => rfl
  | cons r rest ih =>
      rw [List.any_cons, Bool.or_eq_false_iff] at h
      rw [firstFinding, verdict_of_not_isExternal a names h.1]
      exact ih h.2

theorem next_run_settled (a : Analysis) (names : List String) (refs : List Reference) :
    (next resolver refs).run (a.settled names) =
      pure (a.firstFinding names refs, a.settled names) := by
  induction refs with
  | nil => rfl
  | cons r rest ih =>
      rw [next, StateT.run_bind, judge_run_settled, pure_bind, firstFinding]
      cases hv : a.verdict names r with
      | none => exact ih
      | some f => rfl

theorem next_run_unsettled {a : Analysis} (ha : a.allowed? = none) (refs : List Reference) :
    (next resolver refs).run a =
      if refs.any Reference.isExternal then
        resolver a.file.fileName a.options >>= fun names =>
          pure (a.firstFinding names refs, a.settled names)
      else pure ((none, []), a) := by
  induction refs with
  | nil => rfl
  | cons r rest ih =>
      rw [next, StateT.run_bind]
      cases hr : r.isExternal with
      | false =>
          rw [judge_run_of_not_isExternal resolver a hr, pure_bind]
          simpa [hr, firstFinding, verdict_of_not_isExternal a _ hr] using ih
      | true =>
          rw [judge_run_of_isExternal resolver ha hr, bind_assoc]
          simp only [List.any_cons, hr, Bool.true_or, if_true]
          congr 1
          funext names
          rw [pure_bind, firstFinding]
          cases hv : a.verdict names r with
          | none => exact next_run_settled resolver a names rest
          | some f => rfl

end Analysis

end ImportAudit
