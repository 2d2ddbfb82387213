/-
# ImportAudit.Proofs.Session.Steps — running a run step by step.

A run is a function of the session it starts from, or of another state if it works on one.  The
lemmas say what the combinators of runs do with the state, so that a run is taken apart without
opening the monad it is written in.
-/
import ImportAudit.Session.Basic

namespace ImportAudit.Run

variable {σ α β : Type}

@[simp] theorem run_pure (a : α) (s : σ) :
    (pure a : ExceptT Fault (StateM σ) α).run s = (.ok a, s) := rfl

@[simp] theorem run_get (s : σ) : (get : ExceptT Fault (StateM σ) σ).run s = (.ok s, s) := rfl

@[simp] theorem run_modify (change : σ → σ) (s : σ) :
    (modify change : ExceptT Fault (StateM σ) Unit).run s = (.ok (), change s) := rfl

/-- A fault ends a run where it happens, and the state stays as it is there. -/
theorem run_bind (x : ExceptT Fault (StateM σ) α) (f : α → ExceptT Fault (StateM σ) β) (s : σ) :
    (x >>= f).run s =
      match x.run s with
      | (.ok a, t) => (f a).run t
      | (.error e, t) => (.error e, t) := by
  show (x >>= f) s = match x s with
    | (.ok a, t) => f a t
    | (.error e, t) => (.error e, t)
  simp only [bind, ExceptT.bind, ExceptT.mk, ExceptT.bindCont, StateT.bind]
  obtain ⟨result, t⟩ := x s
  cases result <;> rfl

theorem run_map (f : α → β) (x : ExceptT Fault (StateM σ) α) (s : σ) :
    (f <$> x).run s =
      match x.run s with
      | (.ok a, t) => (.ok (f a), t)
      | (.error e, t) => (.error e, t) := by
  rw [map_eq_pure_bind, run_bind]
  match x.run s with
  | (.ok a, t) => rfl
  | (.error e, t) => rfl

/-- The handler of a fault goes on with the state as the fault left it. -/
theorem run_tryCatch (x : ExceptT Fault (StateM σ) α) (handle : Fault → ExceptT Fault (StateM σ) α)
    (s : σ) :
    (tryCatch x handle).run s =
      match x.run s with
      | (.ok a, t) => (.ok a, t)
      | (.error e, t) => (handle e).run t := by
  show (tryCatch x handle : ExceptT Fault (StateM σ) α) s = match x s with
    | (.ok a, t) => (.ok a, t)
    | (.error e, t) => handle e t
  simp only [tryCatch, tryCatchThe, MonadExceptOf.tryCatch, ExceptT.tryCatch, ExceptT.mk, bind,
    StateT.bind]
  obtain ⟨result, t⟩ := x s
  cases result <;> rfl

theorem run_bind_of_ok {x : ExceptT Fault (StateM σ) α} {f : α → ExceptT Fault (StateM σ) β}
    {s t : σ} {a : α} (h : x.run s = (.ok a, t)) : (x >>= f).run s = (f a).run t := by
  rw [run_bind, h]

/-- A run that ends with a value went through both of its parts. -/
theorem run_bind_eq_ok_iff {x : ExceptT Fault (StateM σ) α} {f : α → ExceptT Fault (StateM σ) β}
    {s u : σ} {b : β} :
    (x >>= f).run s = (.ok b, u) ↔ ∃ a t, x.run s = (.ok a, t) ∧ (f a).run t = (.ok b, u) := by
  rw [run_bind]
  constructor
  · intro h
    match hx : x.run s with
    | (.ok a, t) =>
        rw [hx] at h
        exact ⟨a, t, rfl, h⟩
    | (.error e, t) =>
        rw [hx] at h
        cases h
  · rintro ⟨a, t, hx, hf⟩
    rw [hx]
    exact hf

/-! ## What ends at once -/

section

variable {γ δ : Type} {s t : Session} {r : Except Fault γ}

theorem run_ofExcept_eq_ok_iff {a : γ} :
    (ofExcept r).run s = (.ok a, t) ↔ r = .ok a ∧ t = s := by
  show (ofExcept r) s = (.ok a, t) ↔ _
  cases r with
  | ok b =>
      show ((.ok b : Except Fault γ), s) = (.ok a, t) ↔ _
      rw [Prod.mk.injEq, eq_comm (a := s)]
  | error f =>
      show ((.error f : Except Fault γ), s) = (.ok a, t) ↔ _
      rw [Prod.mk.injEq, eq_comm (a := s)]

theorem run_ofExcept_bind_eq_ok_iff {f : γ → Run δ} {b : δ} :
    (ofExcept r >>= f).run s = (.ok b, t) ↔ ∃ a, r = .ok a ∧ (f a).run s = (.ok b, t) := by
  rw [run_bind_eq_ok_iff]
  constructor
  · rintro ⟨a, u, hofExcept, hf⟩
    obtain ⟨hr, rfl⟩ := run_ofExcept_eq_ok_iff.mp hofExcept
    exact ⟨a, hr, hf⟩
  · rintro ⟨a, hr, hf⟩
    exact ⟨a, s, run_ofExcept_eq_ok_iff.mpr ⟨hr, rfl⟩, hf⟩

theorem run_get_bind (f : Session → Run δ) (s : Session) : (get >>= f).run s = (f s).run s := rfl

end

/-! ## Evaluating a run -/

/-- The run ends with a value, and the value and the state behind it pass a test. -/
def endsIn (x : ExceptT Fault (StateM σ) α) (s : σ) (test : α → σ → Bool) : Bool :=
  match x.run s with
  | (.ok a, t) => test a t
  | (.error _, _) => false

theorem exists_of_endsIn {x : ExceptT Fault (StateM σ) α} {s : σ} {test : α → σ → Bool}
    (h : endsIn x s test = true) : ∃ a t, x.run s = (.ok a, t) ∧ test a t = true := by
  unfold endsIn at h
  match hx : x.run s with
  | (.ok a, t) =>
      rw [hx] at h
      exact ⟨a, t, rfl, h⟩
  | (.error e, t) =>
      rw [hx] at h
      cases h

theorem test_of_endsIn {x : ExceptT Fault (StateM σ) α} {s t : σ} {test : α → σ → Bool} {a : α}
    (h : endsIn x s test = true) (hrun : x.run s = (.ok a, t)) : test a t = true := by
  unfold endsIn at h
  rwa [hrun] at h

end ImportAudit.Run
