import SourceDebugger.Proofs.Debuggee
import SourceDebugger.Session.Handle

/-!
# What a part of a command ensures

A part of a command takes a session to a result and a session, unless it never ends.
`Session.Ensures x s Q` says that `Q` holds of every result of `x` and the session behind it,
when `x` starts in `s`; a part that never ends ensures everything.

There is one rule for each way in which parts are built: `ensures_pure`, `ensures_throw`,
`Ensures.bind`, `ensures_ite`, and one for each operation that reads or changes the session. With
`bind_apply` a part that is known to end can also be run step by step.

`Session.executeAll` is a whole run of commands, and `executeAll_keeps` the rule for what each of
them keeps.
-/

namespace SourceDebugger.Session

variable {σ α β : Type}

/-- Whatever comes of `x` when it starts in `s`, `Q` holds of it. -/
def Ensures (x : Task σ α) (s : Session σ) (Q : Except DebugError α → Session σ → Prop) : Prop :=
  ∀ r t, x s = some (r, t) → Q r t

/-- The second of two parts runs where the first one ended, unless that failed. -/
theorem bind_apply (x : Task σ α) (f : α → Task σ β) (s : Session σ) :
    (x >>= f) s = match x s with
      | none => none
      | some (.ok a, t) => f a t
      | some (.error e, t) => some (.error e, t) := by
  show (ExceptT.bind x f : Task σ β) s = _
  simp only [ExceptT.bind, ExceptT.bindCont, ExceptT.mk, bind, StateT.bind]
  cases x s with
  | none => rfl
  | some end_ => rcases end_ with ⟨_ | _, t⟩ <;> rfl

/-- A part that succeeded is followed by the next one. -/
theorem bind_of_ok {x : Task σ α} {f : α → Task σ β} {s t : Session σ} {a : α}
    (h : x s = some (.ok a, t)) : (x >>= f) s = f a t := by
  rw [bind_apply, h]

/-- A part that failed ends everything. -/
theorem bind_of_error {x : Task σ α} {f : α → Task σ β} {s t : Session σ} {e : DebugError}
    (h : x s = some (.error e, t)) : (x >>= f) s = some (.error e, t) := by
  rw [bind_apply, h]

/-- What is done to the debuggee always ends, and changes nothing else of the session. -/
theorem onDebuggee_apply (x : Action (Debuggee σ) α) (s : Session σ) :
    onDebuggee x s = some ((x s.debuggee).1, { s with debuggee := (x s.debuggee).2 }) := rfl

/-- Something that can be seen of the process. -/
theorem observe_of_ok {f : σ → Except DebugError α} {s : Session σ} {a : α}
    (h : f s.process = .ok a) : observe f s = some (.ok a, s) := by
  rw [observe, h]

/-- The session is read, and the rest starts in it. -/
theorem get_bind_apply (f : Session σ → Task σ α) (s : Session σ) : (get >>= f) s = f s s := rfl

/-- The second of two parts runs if the first one had enough steps. -/
theorem bind_of_bounded {p : Prop} [Decidable p] {x : Task σ α} {f : α → Task σ β}
    {s t : Session σ} {a : α} (h : x s = if p then some (.ok a, t) else none) :
    (x >>= f) s = if p then f a t else none := by
  rw [bind_apply, h]
  by_cases hp : p <;> simp only [hp, if_true, if_false]

/-- A failure is answered from where it happened. -/
theorem tryCatch_apply (x : Task σ α) (handler : DebugError → Task σ α) (s : Session σ) :
    (tryCatch x handler) s = match x s with
      | none => none
      | some (.ok a, t) => some (.ok a, t)
      | some (.error e, t) => handler e t := by
  show (ExceptT.tryCatch x handler : Task σ α) s = _
  simp only [ExceptT.tryCatch, ExceptT.mk, bind, StateT.bind]
  cases x s with
  | none => rfl
  | some end_ => rcases end_ with ⟨_ | _, t⟩ <;> rfl

section Rules

variable {s : Session σ} {Q R : Except DebugError α → Session σ → Prop}

/-- A part that certainly ends ensures what holds at its end. -/
theorem ensures_of_eq {x : Task σ α} {r : Except DebugError α} {t : Session σ}
    (h : x s = some (r, t)) : Ensures x s Q ↔ Q r t := by
  constructor
  · intro hx
    exact hx r t h
  · intro hQ r' t' hx
    rw [h] at hx
    cases hx
    exact hQ

/-- What is known of an end is that it is one. -/
theorem ensures_self (x : Task σ α) (s : Session σ) : Ensures x s fun r t => x s = some (r, t) :=
  fun _ _ => id

/-- Two parts that ensure the same come to the same. -/
theorem eq_of_ensures {x y : Task σ α} (h : ∀ Q, Ensures x s Q ↔ Ensures y s Q) : x s = y s := by
  refine Option.ext fun ⟨r, t⟩ => ⟨fun hx => ?_, fun hy => ?_⟩
  · exact (h _).2 (ensures_self y s) r t hx
  · exact (h _).1 (ensures_self x s) r t hy

/-- What holds of an answer that is given at once. -/
theorem ensures_pure {a : α} : Ensures (pure a) s Q ↔ Q (.ok a) s :=
  ensures_of_eq rfl

/-- What holds of a failure. -/
theorem ensures_throw {e : DebugError} : Ensures (throw e) s Q ↔ Q (.error e) s :=
  ensures_of_eq rfl

/-- What holds of a result that is known already. -/
theorem ensures_lift {e : Except DebugError α} : Ensures (liftM e) s Q ↔ Q e s := by
  cases e <;> exact ensures_of_eq rfl

/-- What holds of a changed session. -/
theorem ensures_modify {f : Session σ → Session σ}
    {Q : Except DebugError Unit → Session σ → Prop} :
    Ensures (modify f) s Q ↔ Q (.ok ()) (f s) :=
  ensures_of_eq rfl

/-- A part without an end ensures anything. -/
theorem ensures_diverge : Ensures diverge s Q := by
  intro r t h
  cases h

/-- What holds of what is read off the session. -/
theorem ensures_reading {f : Session σ → α} : Ensures (reading f) s Q ↔ Q (.ok (f s)) s :=
  ensures_of_eq rfl

/-- What holds of what is observed of the process. -/
theorem ensures_observe {f : σ → Except DebugError α} :
    Ensures (observe f) s Q ↔ Q (f s.process) s :=
  ensures_of_eq rfl

/-- What holds of what is done to the debuggee. -/
theorem ensures_onDebuggee {x : Action (Debuggee σ) α} :
    Ensures (onDebuggee x) s Q ↔
      Q (x s.debuggee).1 { s with debuggee := (x s.debuggee).2 } :=
  ensures_of_eq rfl

/-- What is ensured can be weakened. -/
theorem Ensures.mono {x : Task σ α} (h : Ensures x s R) (weaker : ∀ r t, R r t → Q r t) :
    Ensures x s Q :=
  fun r t hx => weaker r t (h r t hx)

/-- Parts in a row: the second one starts from what the first one ensures. -/
theorem Ensures.bind {x : Task σ α} {f : α → Task σ β}
    {Q : Except DebugError β → Session σ → Prop} (hx : Ensures x s R)
    (ok : ∀ a t, R (.ok a) t → Ensures (f a) t Q)
    (error : ∀ e t, R (.error e) t → Q (.error e) t) : Ensures (x >>= f) s Q := by
  intro r t h
  rw [bind_apply] at h
  cases hxs : x s with
  | none => simp [hxs] at h
  | some end_ =>
    obtain ⟨r', t'⟩ := end_
    have hmid := hx r' t' hxs
    rw [hxs] at h
    cases r' with
    | ok a => exact ok a t' hmid r t h
    | error e =>
      cases h
      exact error e t hmid

/-- Parts in a row whose end always satisfies `keeps`, whether they fail or not. -/
theorem Ensures.bind_keeps {K : Session σ → Prop} {x : Task σ α} {f : α → Task σ β}
    (hx : Ensures x s fun _ t => K t)
    (ok : ∀ a t, K t → Ensures (f a) t fun _ t => K t) :
    Ensures (x >>= f) s fun _ t => K t :=
  hx.bind ok fun _ _ h => h

/-- What is ensured whether a part fails or not, and by the handler of its failures too. -/
theorem Ensures.tryCatch_keeps {K : Session σ → Prop} {x : Task σ α}
    {handler : DebugError → Task σ α} (hx : Ensures x s fun _ t => K t)
    (error : ∀ e t, K t → Ensures (handler e) t fun _ t => K t) :
    Ensures (tryCatch x handler) s fun _ t => K t := by
  intro r t h
  rw [tryCatch_apply] at h
  cases hxs : x s with
  | none => simp [hxs] at h
  | some end_ =>
    obtain ⟨r', t'⟩ := end_
    have hmid := hx r' t' hxs
    rw [hxs] at h
    cases r' with
    | ok a =>
      cases h
      exact hmid
    | error e => exact error e t' hmid r t h

/-- What is ensured by every step of a loop is ensured by the loop. -/
theorem Ensures.foldlM_keeps {γ : Type} {K : Session σ → Prop} (f : α → γ → Task σ α)
    (step : ∀ a c t, K t → Ensures (f a c) t fun _ u => K u) (l : List γ) (a : α)
    {s : Session σ} (h : K s) : Ensures (l.foldlM f a) s fun _ t => K t := by
  induction l generalizing a s with
  | nil => exact ensures_pure.2 h
  | cons c rest ih =>
    rw [List.foldlM_cons]
    exact (step a c s h).bind_keeps fun b t ht => ih b ht

/-- A first part that is known to succeed. -/
theorem ensures_bind_of_ok {x : Task σ α} {f : α → Task σ β} {t : Session σ} {a : α}
    {Q : Except DebugError β → Session σ → Prop} (h : x s = some (.ok a, t)) :
    Ensures (x >>= f) s Q ↔ Ensures (f a) t Q := by
  simp only [Ensures, bind_of_ok h]

/-- The session is read first. -/
theorem ensures_get_bind {f : Session σ → Task σ α} :
    Ensures (get >>= f) s Q ↔ Ensures (f s) s Q := by
  constructor
  · intro h r t hf
    exact h r t (by rw [bind_apply]; exact hf)
  · intro h r t hf
    rw [bind_apply] at hf
    exact h r t hf

/-- Something is seen of the process first. -/
theorem ensures_observe_bind {f : σ → Except DebugError α} {g : α → Task σ β}
    {Q : Except DebugError β → Session σ → Prop} :
    Ensures (observe f >>= g) s Q ↔ match f s.process with
      | .ok a => Ensures (g a) s Q
      | .error e => Q (.error e) s := by
  simp only [Ensures, bind_apply, observe]
  cases f s.process with
  | ok a => exact Iff.rfl
  | error e => exact (ensures_throw (σ := σ) (s := s) (Q := Q))

/-- Something that may fail is computed first. -/
theorem ensures_lift_bind {e : Except DebugError α} {g : α → Task σ β}
    {Q : Except DebugError β → Session σ → Prop} :
    Ensures ((liftM e : Task σ α) >>= g) s Q ↔ match e with
      | .ok a => Ensures (g a) s Q
      | .error e => Q (.error e) s := by
  cases e with
  | ok a => simp only [Ensures, bind_apply]; exact Iff.rfl
  | error e => simp only [Ensures, bind_apply]; exact (ensures_throw (σ := σ) (s := s) (Q := Q))

/-- Each branch is looked at under its condition. -/
theorem ensures_ite {p : Prop} [Decidable p] {x y : Task σ α} :
    Ensures (if p then x else y) s Q ↔ (p → Ensures x s Q) ∧ (¬ p → Ensures y s Q) := by
  by_cases h : p <;> simp [h]

/-- A condition that is known to hold. -/
theorem ensures_if_pos {p : Prop} [Decidable p] {x y : Task σ α} (h : p) :
    Ensures (if p then x else y) s Q ↔ Ensures x s Q := by
  rw [if_pos h]

/-- A condition that is known to fail. -/
theorem ensures_if_neg {p : Prop} [Decidable p] {x y : Task σ α} (h : ¬ p) :
    Ensures (if p then x else y) s Q ↔ Ensures y s Q := by
  rw [if_neg h]

end Rules

/-- Where the process stands after a trap, and what it took to get there. -/
theorem rewindAfterTrap_apply [Tracee σ] (s : Session σ) :
    rewindAfterTrap s = match Tracee.pc s.process with
      | .error e => some (.error e, s)
      | .ok pc =>
        match pc.sub? 1 with
        | none => some (.ok pc, s)
        | some at_ =>
          if s.breakpoints.isArmed at_ then
            some ((Tracee.setPc at_ s.process).1.map fun _ => at_,
              { s with debuggee := (Debuggee.onProcess (Tracee.setPc at_) s.debuggee).2 })
          else some (.ok pc, s) := by
  simp only [rewindAfterTrap, bind_apply, pc, observe]
  rcases Tracee.pc s.process with e | pc
  · rfl
  dsimp only
  rcases pc.sub? 1 with _ | at_
  · rfl
  dsimp only
  rw [bind_apply]
  -- the session is read in between, which the equation leaves out
  show (if s.breakpoints.isArmed at_ then _ else _ : Task σ Addr) s = _
  by_cases harmed : s.breakpoints.isArmed at_
  · simp only [harmed, if_true, bind_apply, onProcess, onDebuggee_apply, Debuggee.onProcess_apply]
    rw [process]
    rcases (Tracee.setPc at_ s.debuggee.process).1 with _ | _ <;> rfl
  · simp only [harmed]
    rfl

/-- The ways in which the handling of a trap ends: the program counter cannot be read, it is not
behind a breakpoint, or it is moved back onto one. -/
theorem rewindAfterTrap_cases [Tracee σ] {s t : Session σ} {r : Except DebugError Addr}
    (h : rewindAfterTrap s = some (r, t)) :
    (∃ e, Tracee.pc s.process = .error e ∧ t = s ∧ r = .error e) ∨
    (∃ pc, Tracee.pc s.process = .ok pc ∧ t = s ∧ r = .ok pc ∧
      ∀ a, pc.sub? 1 = some a → s.breakpoints.isArmed a = false) ∨
    ∃ pc a, Tracee.pc s.process = .ok pc ∧ pc.sub? 1 = some a ∧ s.breakpoints.isArmed a = true ∧
      t = { s with debuggee := (Debuggee.onProcess (Tracee.setPc a) s.debuggee).2 } ∧
      r = (Tracee.setPc a s.process).1.map fun _ => a := by
  rw [rewindAfterTrap_apply] at h
  rcases hpc : Tracee.pc s.process with e | pc <;> rw [hpc] at h
  · cases h
    exact .inl ⟨e, rfl, rfl, rfl⟩
  simp only at h
  rcases hsub : pc.sub? 1 with _ | a <;> rw [hsub] at h
  · cases h
    exact .inr (.inl ⟨pc, rfl, rfl, rfl, by simp [hsub]⟩)
  -- only here the process is touched
  by_cases harmed : s.breakpoints.isArmed a = true
  · simp only [harmed, if_true] at h
    cases h
    exact .inr (.inr ⟨pc, a, rfl, hsub, harmed, rfl, rfl⟩)
  · simp only [harmed] at h
    cases h
    refine .inr (.inl ⟨pc, rfl, rfl, rfl, fun b hb => ?_⟩)
    rw [hsub] at hb
    cases hb
    simpa using harmed

/-- The instruction that is about to be executed is decoded from the bytes at hand, without the
traps. -/
theorem instructionAt_decodes [Tracee σ] (pc : Addr) (u : Session σ) :
    Ensures (instructionAt pc) u fun r t => t = u ∧ ∀ info, r = .ok info →
      ∃ bytes, Tracee.readMemory u.process pc X86.maxInstructionLength = .ok bytes ∧
        InstructionInfo.decode (u.breakpoints.unpatch pc bytes) pc = .ok info := by
  refine ensures_get_bind.2 (ensures_lift_bind.2 ?_)
  rcases hread : Tracee.readMemory u.process pc X86.maxInstructionLength with err | bytes
  · exact ⟨rfl, nofun⟩
  · exact ensures_lift.2 ⟨rfl, fun info hr => ⟨bytes, rfl, hr⟩⟩

section Continuations

variable [Tracee σ]

/-- How a round of `runBack` ends, once the process executed a trap. -/
def backOnward (ret callerSp : Addr) (fuel : Nat) : Task σ (Option Stop) := do
  let pc ← rewindAfterTrap
  if pc ≠ ret then return some (.trap .breakpoint)
  if callerSp ≤ (← observe Tracee.registers).stackPointer then return none
  let stop ← stepOverBreakpoint ret
  if stop ≠ .trap .singleStep then return some stop
  runBack ret callerSp fuel

/-- How `runToReturn` ends, once the breakpoint behind the call is gone again. -/
def answerFor (outcome : Option Stop) : Task σ (Option Feedback) := do
  match outcome with
  | none => return none
  | some (.trap .breakpoint) =>
    let pc ← pc
    return some (← reading (·.stopFeedback pc))
  | some stop => return some (← stopped stop)

/-- Takes away the breakpoint of the step engine, in memory only if there still is one. -/
def takeBack : Task σ Unit := do
  if Tracee.isAlive (← get).process then clearInternal else discardInternal

/-- A run to the return of a call is different if there is a breakpoint behind the call already. -/
theorem ensures_runToReturn {fuel : Nat} {ret callerSp : Addr} {s : Session σ}
    {Q : Except DebugError (Option Feedback) → Session σ → Prop} :
    Ensures (runToReturn fuel ret callerSp) s Q ↔
      (s.breakpoints.isArmed ret = false → Ensures (do
        onDebuggee (Debuggee.setInternal s.index ret)
        let outcome ← runBack ret callerSp fuel
        takeBack
        answerFor outcome) s Q) ∧
      (s.breakpoints.isArmed ret = true → Ensures (do
        let outcome ← runBack ret callerSp fuel
        answerFor outcome) s Q) := by
  refine ensures_get_bind.trans ?_
  dsimp only
  rcases harmed : s.breakpoints.isArmed ret
  · simp only [Bool.not_false, if_true, forall_const, reduceCtorEq, false_imp_iff, and_true]
    -- what is at the end of both branches is what follows them
    have hend : ∀ outcome : Option Stop, (do
        let t ← get
        if Tracee.isAlive t.process then
          clearInternal
          answerFor outcome
        else
          discardInternal
          answerFor outcome : Task σ _) = (do takeBack; answerFor outcome) := by
      intro outcome
      rw [takeBack, bind_assoc]
      refine congrArg _ (funext fun t => ?_)
      split <;> rfl
    refine iff_of_eq (congrArg (Ensures · s Q) ?_)
    exact congrArg _ (funext fun _ => congrArg _ (funext hend))
  · simp only [Bool.not_true, reduceCtorEq, if_false, forall_const, false_imp_iff, true_and]
    rfl

/-- A run to a return uses the breakpoint that is there, or sets one and takes it back. -/
theorem runToReturn_eq (fuel : Nat) (ret callerSp : Addr) (s : Session σ) :
    runToReturn fuel ret callerSp s =
      (if s.breakpoints.isArmed ret then (do
        let outcome ← runBack ret callerSp fuel
        answerFor outcome)
      else (do
        onDebuggee (Debuggee.setInternal s.index ret)
        let outcome ← runBack ret callerSp fuel
        takeBack
        answerFor outcome) : Task σ _) s := by
  refine eq_of_ensures fun Q => ensures_runToReturn.trans ?_
  rcases harmed : s.breakpoints.isArmed ret
  · simp
  · simp

/-- How a round of `stepFrom` or `nextFrom` begins: an instruction is decoded and executed. -/
def instructionThen (onward : Registers → InstructionInfo → Task σ Feedback) : Task σ Feedback := do
  let regs ← observe Tracee.registers
  let info ← instructionAt regs.pc
  let stop ← stepOnce
  if stop ≠ .trap .singleStep then return ← stopped stop
  onward regs info

/-- How a round of `nextFrom` ends, once the process stands behind the instruction, or behind the
call. -/
def nextOnward (start : SourceLocation) (fuel : Nat) : Task σ Feedback := do
  let pc ← pc
  if (← get).breakpoints.user.any (·.addr = pc) then return ← reading (·.stopFeedback pc)
  match (← get).lineOf pc with
  | .ok location =>
    if location = start then nextFrom start fuel else reading (·.stopFeedback pc)
  | .error _ => reading (·.stopFeedback pc)

end Continuations

section Runs

variable [Tracee σ]

/-- Executes commands in a row, each of them whether the ones before failed or not. Every command
comes with the number of steps that it may take along the lines of the program. -/
def executeAll : List (Nat × Command) → Session σ → Option (Session σ)
  | [], s => some s
  | (fuel, c) :: rest, s =>
    match handle fuel c s with
    | none => none
    | some (_, t) => executeAll rest t

/-- A run can be cut anywhere. -/
theorem executeAll_append (first rest : List (Nat × Command)) (s : Session σ) :
    executeAll (first ++ rest) s = (executeAll first s).bind (executeAll rest) := by
  induction first generalizing s with
  | nil => rfl
  | cons head first ih =>
    obtain ⟨fuel, c⟩ := head
    simp only [List.cons_append, executeAll]
    rcases handle fuel c s with _ | ⟨_, t⟩
    · rfl
    · exact ih t

/-- What each command of a run keeps holds at its end. -/
theorem executeAll_keeps {K : Session σ → Prop} (commands : List (Nat × Command))
    (step : ∀ fuel c, (fuel, c) ∈ commands → ∀ s, K s → Ensures (handle fuel c) s fun _ t => K t)
    {s t : Session σ} (h : executeAll commands s = some t) (hs : K s) : K t := by
  -- the invariant carries over from command to command, so the session stays general
  induction commands generalizing s with
  | nil =>
    cases h
    exact hs
  | cons head rest ih =>
    obtain ⟨fuel, c⟩ := head
    simp only [executeAll] at h
    rcases hc : handle fuel c s with _ | ⟨r, u⟩
    · simp [hc] at h
    · rw [hc] at h
      have hu := step fuel c List.mem_cons_self s hs r u hc
      exact ih (fun fuel c hmem => step fuel c (List.mem_cons_of_mem _ hmem)) h hu

end Runs

end SourceDebugger.Session
