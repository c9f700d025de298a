import SourceDebugger.Tracee

/-!
# Operations that change a state and can fail

What the operations of `Action` come to when they are applied to a state. Operations on a process
and on its debuggee are of this kind, and so is reading from a row of bytes.
-/

namespace SourceDebugger

variable {σ α β : Type}

namespace Action

/-- The second of two operations starts where the first one ended, unless that failed. -/
theorem bind_apply (x : Action σ α) (f : α → Action σ β) (p : σ) :
    (x >>= f) p = match x p with
      | (.ok a, q) => f a q
      | (.error e, q) => (.error e, q) := by
  show (ExceptT.bind x f : Action σ β) p = _
  simp only [ExceptT.bind, ExceptT.bindCont, ExceptT.mk, bind, StateT.bind]
  rcases x p with ⟨_ | _, q⟩ <;> rfl

theorem pure_apply (a : α) (p : σ) : (pure a : Action σ α) p = (.ok a, p) := rfl

theorem throw_apply (e : DebugError) (p : σ) : (throw e : Action σ α) p = (.error e, p) := rfl

theorem get_apply (p : σ) : (get : Action σ σ) p = (.ok p, p) := rfl

theorem modify_apply (f : σ → σ) (p : σ) : (modify f : Action σ Unit) p = (.ok (), f p) := rfl

theorem liftM_apply (e : Except DebugError α) (p : σ) : (liftM e : Action σ α) p = (e, p) := by
  cases e <;> rfl

theorem tryCatch_apply (x : Action σ α) (handler : DebugError → Action σ α) (p : σ) :
    (tryCatch x handler) p = match x p with
      | (.ok a, q) => (.ok a, q)
      | (.error e, q) => handler e q := by
  show (ExceptT.tryCatch x handler : Action σ α) p = _
  simp only [ExceptT.tryCatch, ExceptT.mk, bind, StateT.bind]
  rcases x p with ⟨_ | _, q⟩ <;> rfl

end Action

end SourceDebugger
