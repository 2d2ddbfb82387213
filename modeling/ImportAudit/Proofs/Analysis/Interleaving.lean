/-
# ImportAudit.Proofs.Analysis.Interleaving — iterators that share one answer of the resolver.

An analysis may be asked for anything in any order, by any number of iterators.  `Stage` is a moment
of this: the analysis with its iterators, who asked the resolver so far, and the resolver's own
state.  `Stage.Consistent` ties the answer that is kept, the calls of the resolver and the progress
of every iterator together; every operation keeps it (`Stage.Consistent.step`), and so does every
sequence of them (`Stage.Consistent.run`).
-/
import ImportAudit.Check.Inspection
import ImportAudit.Proofs.Analysis.Verdict
import Mathlib.Data.List.Basic

namespace ImportAudit

namespace Inspection

/-! ## One operation -/

/-- The operation needs to know which packages may be imported: an iterator does if an external
reference is left to it. -/
def asks (iterators : List (List Reference)) : Operation → Bool
  | .start => false
  | .next n => (iterators[n]?.getD []).any Reference.isExternal
  | .allowed => true
  | .shouldReport _ => true

/-- What an operation answers, and what is left to the iterators behind it, if `names` are the
packages that may be imported. -/
def respond (a : Analysis) (names : List String) (iterators : List (List Reference)) :
    Operation → Answer × List (List Reference)
  | .start => (.started iterators.length, iterators ++ [a.file.allReferences])
  | .next n =>
    let (f?, rest) := a.firstFinding names (iterators[n]?.getD [])
    (.finding f?, iterators.set n rest)
  | .allowed => (.names names, iterators)
  | .shouldReport package => (.verdict (!a.passes names package), iterators)

variable {m : Type → Type} [Monad m] [LawfulMonad m] (resolver : Resolver m)

theorem perform_run_settled (a : Analysis) (names : List String)
    (iterators : List (List Reference)) (op : Operation) :
    (perform resolver op).run ⟨a.settled names, iterators⟩ =
      pure ((respond a names iterators op).1,
        ⟨a.settled names, (respond a names iterators op).2⟩) := by
  cases op with
  | start => simp [perform, respond]
  | next n => simp [perform, respond, analyse, Analysis.next_run_settled]
  | allowed => simp [perform, respond, analyse, Analysis.allowed_run_settled]
  | shouldReport p => simp [perform, respond, analyse, Analysis.shouldReport_run_settled]

/-- An operation that needs to know asks the resolver and goes by its answer. -/
theorem perform_run_of_asks {a : Analysis} (ha : a.allowed? = none)
    {iterators : List (List Reference)} {op : Operation} (h : asks iterators op = true) :
    (perform resolver op).run ⟨a, iterators⟩ =
      resolver a.file.fileName a.options >>= fun names =>
        pure ((respond a names iterators op).1,
          ⟨a.settled names, (respond a names iterators op).2⟩) := by
  cases op with
  | start => cases h
  | next n =>
      have hany : (iterators[n]?.getD []).any Reference.isExternal = true := h
      simp [perform, respond, analyse, Analysis.next_run_unsettled resolver ha, hany]
  | allowed => simp [perform, respond, analyse, Analysis.allowed_run_unsettled resolver ha]
  | shouldReport p =>
      simp [perform, respond, analyse, Analysis.shouldReport_run_unsettled resolver ha]

/-- An operation that does not need to know asks nothing; its answer would be the same by any answer
of the resolver. -/
theorem perform_run_of_not_asks {a : Analysis} (ha : a.allowed? = none) (names : List String)
    {iterators : List (List Reference)} {op : Operation} (h : asks iterators op = false) :
    (perform resolver op).run ⟨a, iterators⟩ =
      pure ((respond a names iterators op).1, ⟨a, (respond a names iterators op).2⟩) := by
  cases op with
  | start => simp [perform, respond]
  | next n =>
      have hany : (iterators[n]?.getD []).any Reference.isExternal = false := h
      simp [perform, respond, analyse, Analysis.next_run_unsettled resolver ha, hany,
        Analysis.firstFinding_of_not_any a names hany]
  | allowed => cases h
  | shouldReport p => cases h

end Inspection

/-! ## Stages of an inspection -/

/-- A resolver with a state of its own that notes, each time it is asked, for which file and by
which options. -/
def Resolver.noted {σ : Type} (resolver : Resolver (StateM σ)) :
    Resolver (StateT (List (String × RuleOptions)) (StateM σ)) := fun file o => do
  modify (· ++ [(file, o)])
  resolver file o

/-- A moment of an inspection: the analysis with its iterators, who asked the resolver so far, and
the state that the resolver is in. -/
structure Stage (σ : Type) where
  inspection : Inspection
  calls : List (String × RuleOptions)
  state : σ

namespace Stage

variable {σ α β : Type}

/-- The stage at which nothing has been asked about a file. -/
def first (file : SourceFile) (o : RuleOptions) (state : σ) : Stage σ :=
  ⟨.ofFile file o, [], state⟩

/-- What operations answer at a stage, and the stage behind them. -/
def after (g : Stage σ)
    (step : StateT Inspection (StateT (List (String × RuleOptions)) (StateM σ)) α) : α × Stage σ :=
  let (((a, inspection), calls), state) := ((step.run g.inspection).run g.calls).run g.state
  (a, ⟨inspection, calls, state⟩)

/-- Operations that ask nothing change the inspection only. -/
theorem after_eq_of_pure {g : Stage σ}
    {step : StateT Inspection (StateT (List (String × RuleOptions)) (StateM σ)) α} {a : α}
    {inspection : Inspection} (h : step.run g.inspection = pure (a, inspection)) :
    g.after step = (a, { g with inspection }) := by
  unfold after
  rw [h]
  rfl

/-- Operations that ask the resolver once leave one more call behind. -/
theorem after_eq_of_ask {resolver : Resolver (StateM σ)} {g : Stage σ}
    {step : StateT Inspection (StateT (List (String × RuleOptions)) (StateM σ)) α}
    {file : String} {o : RuleOptions} {result : List String → α × Inspection}
    (h : step.run g.inspection = resolver.noted file o >>= fun names => pure (result names)) :
    g.after step =
      let (names, state) := (resolver file o).run g.state
      ((result names).1, ⟨(result names).2, g.calls ++ [(file, o)], state⟩) := by
  unfold after
  rw [h]
  rfl

/-! ## What holds at every stage -/

/-- How many findings each iterator was asked for, in the order in which the iterators were started,
behind some operations. -/
def progress (past : List Operation) : List Nat :=
  past.foldl (fun counts op =>
    match op with
    | .start => counts ++ [0]
    | .next n => counts.modify n (· + 1)
    | _ => counts) []

theorem progress_concat (past : List Operation) (op : Operation) :
    progress (past ++ [op]) =
      match op with
      | .start => progress past ++ [0]
      | .next n => (progress past).modify n (· + 1)
      | _ => progress past := by
  simp only [progress, List.foldl_append, List.foldl_cons, List.foldl_nil]

/-- An iterator that has `rest` left of a file has come to an external reference or past it. -/
def Advanced (file : SourceFile) (rest : List Reference) : Prop :=
  ∃ passed, file.allReferences = passed ++ rest ∧ ∃ r ∈ passed, r.isExternal = true

/-- Some operation asked outright which packages may be imported, or some iterator has come to an
external reference or past it. -/
def Consulted (file : SourceFile) (past : List Operation) (iterators : List (List Reference)) :
    Prop :=
  (.allowed ∈ past ∨ ∃ package, .shouldReport package ∈ past) ∨
    ∃ rest ∈ iterators, Advanced file rest

/-- The answer of the resolver is kept exactly if it was asked for, which happened once. -/
inductive Kept (file : SourceFile) (o : RuleOptions) (names : List String) (state : σ)
    (past : List Operation) (g : Stage σ) : Prop
  | unasked : g.inspection.analysis = .ofFile file o → g.calls = [] → g.state = state →
      ¬Consulted file past g.inspection.iterators → Kept file o names state past g
  | asked : g.inspection.analysis = (Analysis.ofFile file o).settled names →
      g.calls = [(file.fileName, o)] → Consulted file past g.inspection.iterators →
      Kept file o names state past g

/-- The findings among references of a file, if `names` are the packages that may be imported. -/
def pendingIn (file : SourceFile) (o : RuleOptions) (names : List String) (refs : List Reference) :
    List Finding :=
  refs.filterMap ((Analysis.ofFile file o).verdict names)

/-- What ties the stage behind some operations to these: the answer that is kept, and what each
iterator has left, which is an end of the file's references and holds all findings but as many as it
was asked for. -/
structure Consistent (file : SourceFile) (o : RuleOptions) (names : List String) (state : σ)
    (past : List Operation) (g : Stage σ) : Prop where
  kept : Kept file o names state past g
  suffixes : ∀ rest ∈ g.inspection.iterators, rest <:+ file.allReferences
  pending : g.inspection.iterators.map (pendingIn file o names) =
    (progress past).map fun k => (pendingIn file o names file.allReferences).drop k

theorem consistent_first (file : SourceFile) (o : RuleOptions) (names : List String) (state : σ) :
    Consistent file o names state [] (first file o state) where
  kept := by
    refine .unasked rfl rfl rfl ?_
    simp [Consulted, first, Inspection.ofFile]
  suffixes := by simp [first, Inspection.ofFile]
  pending := rfl

/-! ## Who has come how far -/

theorem advanced_iff {file : SourceFile} {passed rest : List Reference}
    (h : file.allReferences = passed ++ rest) :
    Advanced file rest ↔ passed.any Reference.isExternal = true := by
  rw [List.any_eq_true]
  constructor
  · rintro ⟨passed', heq, hany⟩
    obtain rfl : passed' = passed := List.append_cancel_right (heq.symm.trans h)
    exact hany
  · intro hany
    exact ⟨passed, h, hany⟩

/-- An iterator that moves on to its next finding has come to an external reference if it had before
or if there was one left to it. -/
theorem advanced_firstFinding_iff {file : SourceFile} {rest : List Reference}
    (h : rest <:+ file.allReferences) (a : Analysis) (names : List String) :
    Advanced file (a.firstFinding names rest).2 ↔
      Advanced file rest ∨ rest.any Reference.isExternal = true := by
  obtain ⟨passed, hpassed⟩ := h
  obtain ⟨used, hused, hany⟩ := a.firstFinding_passes names rest
  have hall : file.allReferences = (passed ++ used) ++ (a.firstFinding names rest).2 := by
    rw [List.append_assoc, ← hused, hpassed]
  rw [advanced_iff hall, advanced_iff hpassed.symm, List.any_append, hany, Bool.or_eq_true]

/-- Replacing one entry of a list by another one that has a property if the first had it, or else if
`q` holds, makes the list have such an entry if it had one, or else if `q` holds. -/
theorem exists_mem_set_iff {P : α → Prop} {q : Prop} {xs : List α} {n : Nat} {x y : α}
    (hx : xs[n]? = some x) (hy : P y ↔ P x ∨ q) :
    (∃ z ∈ xs.set n y, P z) ↔ (∃ z ∈ xs, P z) ∨ q := by
  obtain ⟨hn, rfl⟩ := List.getElem?_eq_some_iff.1 hx
  have hmem : y ∈ xs.set n y := List.mem_set hn y
  constructor
  · rintro ⟨z, hz, hPz⟩
    rcases List.mem_or_eq_of_mem_set hz with hz | rfl
    · exact .inl ⟨z, hz, hPz⟩
    · exact (hy.1 hPz).imp (fun h => ⟨_, List.getElem_mem hn, h⟩) id
  · rintro (⟨z, hz, hPz⟩ | hq)
    · obtain ⟨m, hm, rfl⟩ := List.mem_iff_getElem.1 hz
      by_cases hmn : n = m
      · subst hmn
        exact ⟨y, hmem, hy.2 (.inl hPz)⟩
      · refine ⟨xs[m], ?_, hPz⟩
        rw [List.mem_iff_getElem?]
        exact ⟨m, by rw [List.getElem?_set_ne hmn, List.getElem?_eq_getElem hm]⟩
    · exact ⟨y, hmem, hy.2 (.inr hq)⟩

/-- An operation makes up for the first question exactly if it needs to know. -/
theorem consulted_concat_iff {file : SourceFile} {iterators : List (List Reference)}
    (hs : ∀ rest ∈ iterators, rest <:+ file.allReferences) (o : RuleOptions)
    (names : List String) (past : List Operation) (op : Operation) :
    Consulted file (past ++ [op])
        (Inspection.respond (Analysis.ofFile file o) names iterators op).2 ↔
      Consulted file past iterators ∨ Inspection.asks iterators op = true := by
  cases op with
  | start =>
      have hnew : ¬Advanced file file.allReferences := by
        rw [advanced_iff (List.nil_append file.allReferences).symm]
        simp
      simp [Consulted, Inspection.respond, Inspection.asks, or_and_right, exists_or, hnew]
  | next n =>
      cases hn : iterators[n]? with
      | none =>
          -- an iterator that was never started has nothing to move on from
          have hset : iterators.set n [] = iterators :=
            List.set_eq_of_length_le (List.getElem?_eq_none_iff.1 hn)
          simp [Consulted, Inspection.respond, Inspection.asks, hn, Analysis.firstFinding, hset]
      | some rest =>
          have hrest := hs rest (List.mem_of_getElem? hn)
          have hset := exists_mem_set_iff hn
            (advanced_firstFinding_iff hrest (Analysis.ofFile file o) names)
          simp only [Consulted, Inspection.respond, Inspection.asks, hn, Option.getD_some, hset]
          simp [or_assoc]
  | allowed => simp [Consulted, Inspection.asks]
  | shouldReport p => simp [Consulted, Inspection.asks]

/-! ## One operation keeps it -/

/-- Where the resolver answers `names`, an operation answers and moves on the iterators as by these,
and the answer is kept from then on. -/
theorem Kept.step {resolver : Resolver (StateM σ)} {file : SourceFile} {o : RuleOptions}
    {names : List String} {state : σ} {past : List Operation} {g : Stage σ}
    (hnames : ((resolver file.fileName o).run state).1 = names)
    (hs : ∀ rest ∈ g.inspection.iterators, rest <:+ file.allReferences)
    (h : Kept file o names state past g) (op : Operation) :
    let response := Inspection.respond (.ofFile file o) names g.inspection.iterators op
    let behind := g.after (Inspection.perform resolver.noted op)
    behind.1 = response.1 ∧ behind.2.inspection.iterators = response.2 ∧
      Kept file o names state (past ++ [op]) behind.2 := by
  have hconsulted := consulted_concat_iff hs o names past op
  have hfresh : (Analysis.ofFile file o).allowed? = none := rfl
  obtain ⟨⟨analysis, iterators⟩, calls, now⟩ := g
  cases h with
  | unasked ha hc hst hno =>
      dsimp only at ha hc hst hno hs hconsulted ⊢
      subst ha hc hst
      cases hask : Inspection.asks iterators op with
      | false =>
          -- nothing is asked, and the answers are those that `names` would have led to
          rw [after_eq_of_pure
            (Inspection.perform_run_of_not_asks resolver.noted hfresh names hask)]
          refine ⟨rfl, rfl, .unasked rfl rfl rfl ?_⟩
          rw [hconsulted]
          simp [hno, hask]
      | true =>
          -- the one time that the resolver is asked
          rw [after_eq_of_ask (Inspection.perform_run_of_asks resolver.noted hfresh hask)]
          dsimp only
          subst hnames
          exact ⟨rfl, rfl, .asked rfl rfl (hconsulted.2 (.inr hask))⟩
  | asked ha hc hyes =>
      dsimp only at ha hc hyes hs hconsulted ⊢
      subst ha hc
      rw [after_eq_of_pure
        (Inspection.perform_run_settled resolver.noted (.ofFile file o) names iterators op)]
      exact ⟨rfl, rfl, .asked rfl rfl (hconsulted.2 (.inl hyes))⟩

/-- What iterators have left behind an operation is an end of the file's references as before. -/
theorem suffix_of_mem_respond {file : SourceFile} {o : RuleOptions} {names : List String}
    {iterators : List (List Reference)}
    (hs : ∀ rest ∈ iterators, rest <:+ file.allReferences) {op : Operation}
    {rest : List Reference}
    (h : rest ∈ (Inspection.respond (.ofFile file o) names iterators op).2) :
    rest <:+ file.allReferences := by
  cases op with
  | start =>
      rcases List.mem_append.1 h with h | h
      · exact hs rest h
      · obtain rfl := List.mem_singleton.1 h
        exact List.suffix_refl _
  | next n =>
      rcases List.mem_or_eq_of_mem_set h with h | rfl
      · exact hs rest h
      · obtain ⟨used, hused, -⟩ :=
          (Analysis.ofFile file o).firstFinding_passes names (iterators[n]?.getD [])
        have hmoved : ((Analysis.ofFile file o).firstFinding names (iterators[n]?.getD [])).2 <:+
            iterators[n]?.getD [] := ⟨used, hused.symm⟩
        cases hn : iterators[n]? with
        | none => simp [Analysis.firstFinding]
        | some left =>
            rw [hn, Option.getD_some] at hmoved
            exact hmoved.trans (hs left (List.mem_of_getElem? hn))
  | allowed => exact hs rest h
  | shouldReport p => exact hs rest h

/-- Two lists that agree in what their entries stand for still do if an entry of the one is replaced
by what the entry of the other stands for after it was counted up. -/
theorem map_set_eq_map_modify {f : α → β} {g : Nat → β} {xs : List α} {counts : List Nat}
    (h : xs.map f = counts.map g) {n : Nat} {y : α}
    (hy : ∀ k, counts[n]? = some k → f y = g (k + 1)) :
    (xs.set n y).map f = (counts.modify n (· + 1)).map g := by
  have hlen : xs.length = counts.length := by
    simpa using congrArg List.length h
  refine List.ext_getElem? fun m => ?_
  rw [List.getElem?_map, List.getElem?_map, List.getElem?_set, List.getElem?_modify]
  by_cases hnm : n = m
  · subst hnm
    cases hk : counts[n]? with
    | none =>
        have hle := List.getElem?_eq_none_iff.1 hk
        simp [hlen, Nat.not_lt.2 hle]
    | some k =>
        obtain ⟨hlt, -⟩ := List.getElem?_eq_some_iff.1 hk
        simp [hlen, hlt, hy k hk]
  · have hm : (xs.map f)[m]? = (counts.map g)[m]? := by rw [h]
    rw [List.getElem?_map, List.getElem?_map] at hm
    simpa [hnm] using hm

theorem pendingIn_of_getElem? {file : SourceFile} {o : RuleOptions} {names : List String}
    {iterators : List (List Reference)} {counts : List Nat}
    (h : iterators.map (pendingIn file o names) =
      counts.map fun k => (pendingIn file o names file.allReferences).drop k)
    {n k : Nat} (hk : counts[n]? = some k) :
    pendingIn file o names (iterators[n]?.getD []) =
      (pendingIn file o names file.allReferences).drop k := by
  have hn : (iterators.map (pendingIn file o names))[n]? =
      some ((pendingIn file o names file.allReferences).drop k) := by
    rw [h, List.getElem?_map, hk]
    rfl
  rw [List.getElem?_map] at hn
  obtain ⟨rest, hrest, hpending⟩ := Option.map_eq_some_iff.1 hn
  rw [hrest, Option.getD_some, hpending]

/-- An iterator that is asked for its next finding has one less to come. -/
theorem pending_respond {file : SourceFile} {o : RuleOptions} {names : List String}
    {iterators : List (List Reference)} {past : List Operation}
    (h : iterators.map (pendingIn file o names) =
      (progress past).map fun k => (pendingIn file o names file.allReferences).drop k)
    (op : Operation) :
    (Inspection.respond (.ofFile file o) names iterators op).2.map (pendingIn file o names) =
      (progress (past ++ [op])).map fun k =>
        (pendingIn file o names file.allReferences).drop k := by
  rw [progress_concat]
  cases op with
  | start => simp [Inspection.respond, h]
  | next n =>
      refine map_set_eq_map_modify h fun k hk => ?_
      have hnext := ((Analysis.ofFile file o).firstFinding_eq names (iterators[n]?.getD [])).2
      calc pendingIn file o names
            ((Analysis.ofFile file o).firstFinding names (iterators[n]?.getD [])).2
          = (pendingIn file o names (iterators[n]?.getD [])).tail := hnext
        _ = ((pendingIn file o names file.allReferences).drop k).tail := by
            rw [pendingIn_of_getElem? h hk]
        _ = (pendingIn file o names file.allReferences).drop (k + 1) := List.tail_drop
  | allowed => exact h
  | shouldReport p => exact h

/-- Every operation keeps what ties a stage to the operations behind it. -/
theorem Consistent.step {resolver : Resolver (StateM σ)} {file : SourceFile} {o : RuleOptions}
    {names : List String} {state : σ} {past : List Operation} {g : Stage σ}
    (hnames : ((resolver file.fileName o).run state).1 = names)
    (h : Consistent file o names state past g) (op : Operation) :
    Consistent file o names state (past ++ [op])
      (g.after (Inspection.perform resolver.noted op)).2 := by
  obtain ⟨-, hiterators, hkept⟩ := h.kept.step hnames h.suffixes op
  refine ⟨hkept, ?_, ?_⟩
  · rw [hiterators]
    intro rest hrest
    exact suffix_of_mem_respond h.suffixes hrest
  · rw [hiterators]
    exact pending_respond h.pending op

/-- An iterator that was started gives the finding that comes after as many as it gave before. -/
theorem Consistent.answer_next {resolver : Resolver (StateM σ)} {file : SourceFile}
    {o : RuleOptions} {names : List String} {state : σ} {past : List Operation} {g : Stage σ}
    (hnames : ((resolver file.fileName o).run state).1 = names)
    (h : Consistent file o names state past g) {n k : Nat} (hk : (progress past)[n]? = some k) :
    (g.after (Inspection.perform resolver.noted (.next n))).1 =
      .finding (pendingIn file o names file.allReferences)[k]? := by
  obtain ⟨hanswer, -, -⟩ := h.kept.step hnames h.suffixes (.next n)
  have hfirst := ((Analysis.ofFile file o).firstFinding_eq names
    (g.inspection.iterators[n]?.getD [])).1
  rw [hanswer]
  show Answer.finding _ = _
  rw [hfirst]
  show Answer.finding (pendingIn file o names _).head? = _
  rw [pendingIn_of_getElem? h.pending hk, List.head?_drop]

/-! ## Many operations keep it -/

theorem after_performAll_cons (resolver : Resolver (StateM σ)) (g : Stage σ) (op : Operation)
    (ops : List Operation) :
    g.after (Inspection.performAll resolver.noted (op :: ops)) =
      let (answer, g) := g.after (Inspection.perform resolver.noted op)
      let (answers, g) := g.after (Inspection.performAll resolver.noted ops)
      (answer :: answers, g) := rfl

/-- Any sequence of operations leads to a stage that is tied to all of them, and on the way every
iterator gives one finding after the other. -/
theorem Consistent.run {resolver : Resolver (StateM σ)} {file : SourceFile} {o : RuleOptions}
    {names : List String} {state : σ}
    (hnames : ((resolver file.fileName o).run state).1 = names) (ops : List Operation) :
    ∀ {past : List Operation} {g : Stage σ}, Consistent file o names state past g →
      let behind := g.after (Inspection.performAll resolver.noted ops)
      Consistent file o names state (past ++ ops) behind.2 ∧
        ∀ (before : List Operation) (n : Nat) (rest : List Operation) (k : Nat),
          ops = before ++ .next n :: rest → (progress (past ++ before))[n]? = some k →
          behind.1[before.length]? =
            some (.finding (pendingIn file o names file.allReferences)[k]?) := by
  induction ops with
  | nil =>
      intro past g h
      have hnil : g.after (Inspection.performAll resolver.noted []) = ([], g) := rfl
      rw [hnil, List.append_nil]
      refine ⟨h, ?_⟩
      intro before n rest k hops
      simp at hops
  | cons op ops ih =>
      intro past g h
      obtain ⟨hend, hanswers⟩ := ih (h.step hnames op)
      rw [List.append_assoc, List.singleton_append] at hend
      rw [after_performAll_cons]
      refine ⟨hend, ?_⟩
      intro before n rest k hops hk
      -- the answer is the first one, or it is one of the operations that come behind
      cases before with
      | nil =>
          obtain ⟨rfl, rfl⟩ := List.cons.inj hops
          rw [List.append_nil] at hk
          exact congrArg some (h.answer_next hnames hk)
      | cons b before =>
          obtain ⟨rfl, hrest⟩ := List.cons.inj hops
          refine hanswers before n rest k hrest ?_
          rwa [List.append_assoc, List.singleton_append]

/-- The findings of a file are what is pending in all of its references. -/
theorem findings_eq_pendingIn (resolver : Resolver (StateM σ)) (note : Finding → StateM σ Unit)
    (file : SourceFile) (o : RuleOptions) (state : σ) :
    ((file.findings o resolver note).run state).1 =
      pendingIn file o ((resolver file.fileName o).run state).1 file.allReferences := by
  unfold SourceFile.findings
  rw [StateT.run'_eq, Analysis.collect_run_unsettled resolver note rfl]
  cases hany : file.allReferences.any Reference.isExternal with
  | false =>
      have hnone := (Analysis.ofFile file o).filterMap_verdict_of_not_any
        ((resolver file.fileName o).run state).1 hany
      exact hnone.symm
  | true => rfl

/-- However operations on an analysis follow one another, the resolver is asked at most once, for
the file and by its options; it is asked exactly if some operation asks outright, or some iterator
comes to the first external reference; and every iterator that was started gives the findings of the
file one by one, and nothing behind the last. -/
theorem performAll_asks_once (resolver : Resolver (StateM σ)) (note : Finding → StateM σ Unit)
    (file : SourceFile) (o : RuleOptions) (state : σ) (ops : List Operation) :
    let findings := ((file.findings o resolver note).run state).1
    let (answers, behind) := (first file o state).after (Inspection.performAll resolver.noted ops)
    (behind.calls = [] ∨ behind.calls = [(file.fileName, o)]) ∧
      (behind.calls ≠ [] ↔ Consulted file ops behind.inspection.iterators) ∧
      ∀ (before : List Operation) (n : Nat) (rest : List Operation) (k : Nat),
        ops = before ++ .next n :: rest → (progress before)[n]? = some k →
        answers[before.length]? = some (.finding findings[k]?) := by
  have hnames : ((resolver file.fileName o).run state).1 =
      ((resolver file.fileName o).run state).1 := rfl
  obtain ⟨hbehind, hanswers⟩ := Consistent.run hnames ops (consistent_first file o _ state)
  rw [List.nil_append] at hbehind
  dsimp only
  rw [findings_eq_pendingIn]
  refine ⟨?_, ?_, hanswers⟩
  · cases hbehind.kept with
    | unasked _ hcalls _ _ => exact .inl hcalls
    | asked _ hcalls _ => exact .inr hcalls
  · cases hbehind.kept with
    | unasked _ hcalls _ hno => simp [hcalls, hno]
    | asked _ hcalls hyes => simp [hcalls, hyes]

end Stage

end ImportAudit
