import SourceDebugger.Proofs.Debuggee
import SourceDebugger.Proofs.Ensures

/-!
# Recorded runs

What the debugger does to a process, and what the process does when it is let go, is seen best from
the sequence of their dealings. `Recorded σ` is a process that keeps this sequence: it behaves as
the process itself and notes each event with the states before and behind it.

* `Session.mirrors_handle`: a session with a recorded process answers every command as the session
  with the process itself, and ends in the same state.
* `Session.executeAll_recorded`: so every run of commands has a record.
-/

namespace SourceDebugger

variable {σ α β : Type}

/-- What the debugger asked of a process, and how that ended. -/
inductive Deed where
  /-- Bytes were to be stored. -/
  | write (addr : Addr) (data : List UInt8) (result : Except DebugError Unit)
  /-- The registers were to be replaced. -/
  | setRegisters (regs : Registers) (result : Except DebugError Unit)
  /-- The process was let go for one instruction. -/
  | step (result : Except DebugError Stop)
  /-- The process was let go, perhaps with a signal. -/
  | resume (signal : Option Signal) (result : Except DebugError Stop)
  /-- A fresh process was to be started. -/
  | restart (result : Except DebugError Unit)
  /-- The process was to be ended. -/
  | kill (result : Except DebugError Unit)

/-- A deed, and the process before and behind it. -/
structure Event (σ : Type) where
  /-- What was done. -/
  deed : Deed
  /-- The process before. -/
  before : σ
  /-- The process afterwards. -/
  after : σ

/-- A process and what has happened to it. -/
structure Recorded (σ : Type) where
  /-- The process. -/
  process : σ
  /-- The events, the last one first. -/
  events : List (Event σ)

namespace Recorded

/-- A process to which nothing has happened yet. -/
def ofProcess (p : σ) : Recorded σ := ⟨p, []⟩

/-- The process after one more event. -/
def next (r : Recorded σ) (deed : Deed) (p : σ) : Recorded σ :=
  ⟨p, ⟨deed, r.process, p⟩ :: r.events⟩

/-- Does something to the process and notes it. -/
def record (deed : Except DebugError α → Deed) (x : Action σ α) : Action (Recorded σ) α := fun r =>
  let (result, p) := x r.process
  (result, r.next (deed result) p)

instance [Tracee σ] : Tracee (Recorded σ) where
  pid r := Tracee.pid r.process
  isAlive r := Tracee.isAlive r.process
  readMemory r := Tracee.readMemory r.process
  writeMemory addr data := record (.write addr data) (Tracee.writeMemory addr data)
  registers r := Tracee.registers r.process
  setRegisters regs := record (.setRegisters regs) (Tracee.setRegisters regs)
  singleStep := record .step Tracee.singleStep
  resume signal r := (Tracee.resume signal r.process).map fun (result, p) =>
    (result, r.next (.resume signal result) p)
  restart := record .restart Tracee.restart
  kill := record .kill Tracee.kill

section Views

variable [Tracee σ] (r : Recorded σ)

/-- Keeping a record does not change whether the process is alive. -/
@[simp]
theorem isAlive_eq : Tracee.isAlive r = Tracee.isAlive r.process := rfl

/-- The registers are those of the process itself. -/
@[simp]
theorem registers_eq : Tracee.registers r = Tracee.registers r.process := rfl

/-- The program counter is that of the process itself. -/
@[simp]
theorem pc_eq : Tracee.pc r = Tracee.pc r.process := rfl

/-- Reading makes no event, so it answers as the process does. -/
@[simp]
theorem readExact_eq (addr : Addr) (count : Nat) :
    Tracee.readExact r addr count = Tracee.readExact r.process addr count := rfl

/-- Storing bytes is done to the process and noted with its result, also when it fails. -/
theorem writeMemory_apply (addr : Addr) (data : List UInt8) :
    Tracee.writeMemory addr data r =
      ((Tracee.writeMemory addr data r.process).1,
        r.next (.write addr data (Tracee.writeMemory addr data r.process).1)
          (Tracee.writeMemory addr data r.process).2) := rfl

/-- A single step is done to the process and noted with the stop it came to. -/
theorem singleStep_apply :
    Tracee.singleStep r =
      ((Tracee.singleStep r.process).1,
        r.next (.step (Tracee.singleStep r.process).1) (Tracee.singleStep r.process).2) := rfl

/-- A restart is done to the process and noted with its result. -/
theorem restart_apply :
    Tracee.restart r =
      ((Tracee.restart r.process).1,
        r.next (.restart (Tracee.restart r.process).1) (Tracee.restart r.process).2) := rfl

/-- The program counter is set by replacing all registers. If they cannot be read, nothing is noted. -/
theorem setPc_apply (pc : Addr) :
    Tracee.setPc pc r = match Tracee.registers r.process with
      | .error e => (.error e, r)
      | .ok regs =>
        ((Tracee.setRegisters (regs.setPc pc) r.process).1,
          r.next (.setRegisters (regs.setPc pc) (Tracee.setRegisters (regs.setPc pc) r.process).1)
            (Tracee.setRegisters (regs.setPc pc) r.process).2) := by
  rw [Tracee.setPc_apply, registers_eq]
  rcases Tracee.registers r.process with _ | _ <;> rfl

/-- A resume is noted with its signal and its stop, if the process stops at all. -/
theorem resume_apply (signal : Option Signal) :
    Tracee.resume signal r = (Tracee.resume signal r.process).map fun (result, p) =>
      (result, r.next (.resume signal result) p) := rfl

/-- A backtrace looks at memory and registers only. -/
@[simp]
theorem walk_eq (index : DebugIndex) : Backtrace.walk r index = Backtrace.walk r.process index := by
  -- the frames behind the current one are read from memory alone
  have chain : ∀ left framePointer, Backtrace.returnAddresses r left framePointer =
      Backtrace.returnAddresses r.process left framePointer := by
    intro left
    induction left with
    | zero => intro _; rfl
    | succ left ih =>
      intro framePointer
      simp only [Backtrace.returnAddresses, ih]
      rfl
  simp only [Backtrace.walk, registers_eq, chain]

end Views

end Recorded

/-- One operation does to the recorded form of a state what another one does to the state. -/
def Action.Mirrors {ρ : Type} (view : ρ → σ) (x : Action ρ α) (y : Action σ α) : Prop :=
  ∀ r, (x r).1 = (y (view r)).1 ∧ view (x r).2 = (y (view r)).2

/-- The two ends, with a common answer. -/
theorem Action.Mirrors.ends {ρ : Type} {view : ρ → σ} {x : Action ρ α} {y : Action σ α}
    (h : Action.Mirrors view x y) (r : ρ) :
    ∃ a q, x r = (a, q) ∧ y (view r) = (a, view q) := by
  obtain ⟨ha, hq⟩ := h r
  exact ⟨(x r).1, (x r).2, rfl, Prod.ext ha.symm hq.symm⟩

section Processes

variable [Tracee σ]

/-- Bytes are stored in a recorded process as in the process itself. -/
theorem Recorded.mirrors_writeMemory (addr : Addr) (data : List UInt8) :
    Action.Mirrors Recorded.process (Tracee.writeMemory (σ := Recorded σ) addr data)
      (Tracee.writeMemory addr data) :=
  fun _ => ⟨rfl, rfl⟩

/-- A recorded process takes a single step as the process itself. -/
theorem Recorded.mirrors_singleStep :
    Action.Mirrors Recorded.process (Tracee.singleStep (σ := Recorded σ)) Tracee.singleStep :=
  fun _ => ⟨rfl, rfl⟩

/-- A recorded process is started again as the process itself. -/
theorem Recorded.mirrors_restart :
    Action.Mirrors Recorded.process (Tracee.restart (σ := Recorded σ)) Tracee.restart :=
  fun _ => ⟨rfl, rfl⟩

/-- The program counter of a recorded process is set as that of the process itself. -/
theorem Recorded.mirrors_setPc (pc : Addr) :
    Action.Mirrors Recorded.process (Tracee.setPc (σ := Recorded σ) pc) (Tracee.setPc pc) := by
  intro r
  rw [Tracee.setPc_apply, Tracee.setPc_apply, Recorded.registers_eq]
  rcases Tracee.registers r.process with _ | _
  · exact ⟨rfl, rfl⟩
  · exact ⟨rfl, rfl⟩

end Processes

namespace Debuggee

/-- A debuggee without the record of its process. -/
def plain (d : Debuggee (Recorded σ)) : Debuggee σ := ⟨d.process.process, d.breakpoints⟩

/-- What mirrors on the process mirrors on the debuggee, whose table has no part in it. -/
theorem mirrors_onProcess {x : Action (Recorded σ) α} {y : Action σ α}
    (h : Action.Mirrors Recorded.process x y) :
    Action.Mirrors plain (onProcess x) (onProcess y) := by
  intro d
  obtain ⟨hr, hp⟩ := h d.process
  exact ⟨hr, by simp only [plain, onProcess_apply, hp]⟩

variable [Tracee σ]

/-- A breakpoint is armed in a recorded process as in the process itself: it reads the same byte to
keep, and writes the same byte for it. -/
theorem mirrors_arm (addr : Addr) (file : String) (line : UInt64) (kind : BreakpointKind) :
    Action.Mirrors plain (arm (σ := Recorded σ) addr file line kind) (arm addr file line kind) := by
  intro d
  rw [arm_apply, arm_apply, Recorded.readExact_eq]
  simp only [plain]
  by_cases h : d.breakpoints.isArmed addr
  · simp only [h, if_true, and_self]
  simp only [h, Bool.false_eq_true, if_false]
  rcases Tracee.readExact d.process.process addr 1 with e | bytes
  · exact ⟨rfl, rfl⟩
  obtain ⟨r, q, hw, hw'⟩ := (Recorded.mirrors_writeMemory addr [trapByte]).ends d.process
  rw [hw, hw']
  rcases r with _ | _ <;> exact ⟨rfl, rfl⟩

/-- A breakpoint of the operator is set alike, since the line is looked up in the index alone. -/
theorem mirrors_setUser (index : DebugIndex) (file : String) (line : UInt64) :
    Action.Mirrors plain (setUser (σ := Recorded σ) index file line) (setUser index file line) := by
  intro d
  simp only [setUser, Action.bind_apply, Action.liftM_apply]
  rcases index.lookupBreakpointAddress file line with e | addr
  · exact ⟨rfl, rfl⟩
  simp only [Action.tryCatch_apply]
  obtain ⟨r, q, harm, harm'⟩ :=
    (mirrors_arm addr ((index.resolveFile? file).getD file) line .user).ends d
  rw [harm, harm']
  rcases r with e | _
  · cases e <;> exact ⟨rfl, rfl⟩
  · exact ⟨rfl, rfl⟩

/-- A breakpoint of the debugger is set alike. -/
theorem mirrors_setInternal (index : DebugIndex) (addr : Addr) :
    Action.Mirrors plain (setInternal (σ := Recorded σ) index addr) (setInternal index addr) := by
  intro d
  simp only [setInternal, Action.bind_apply]
  obtain ⟨r, q, harm, harm'⟩ := (mirrors_arm addr _ _ .internal).ends d
  rw [harm, harm']
  rcases r with _ | _ <;> exact ⟨rfl, rfl⟩

/-- A breakpoint is cleared alike: the table says which byte is put back. -/
theorem mirrors_clearAt (addr : Addr) :
    Action.Mirrors plain (clearAt (σ := Recorded σ) addr) (clearAt addr) := by
  intro d
  rw [clearAt_apply, clearAt_apply]
  simp only [plain]
  rcases d.breakpoints.locate? addr with _ | b
  · exact ⟨rfl, rfl⟩
  obtain ⟨r, q, hw, hw'⟩ := (Recorded.mirrors_writeMemory addr [b.saved]).ends d.process
  simp only [hw, hw']
  rcases r with _ | _ <;> exact ⟨rfl, rfl⟩

/-- A breakpoint of the operator is cleared by its number alike. -/
theorem mirrors_clearUser (number : UInt64) :
    Action.Mirrors plain (clearUser (σ := Recorded σ) number) (clearUser number) := by
  intro d
  simp only [clearUser, Action.bind_apply, Action.get_apply, plain]
  rcases d.breakpoints.numbered? number with _ | b
  · exact ⟨rfl, rfl⟩
  · exact mirrors_clearAt b.addr d

/-- Breakpoints are cleared one after the other alike, up to the first that fails. -/
theorem mirrors_clearEach (addrs : List Addr) :
    Action.Mirrors plain (clearEach (σ := Recorded σ) addrs) (clearEach addrs) := by
  induction addrs with
  | nil => exact fun _ => ⟨rfl, rfl⟩
  | cons addr rest ih =>
    intro d
    rw [clearEach_cons_apply, clearEach_cons_apply]
    obtain ⟨r, q, hclear, hclear'⟩ := (mirrors_clearAt addr).ends d
    rw [hclear, hclear']
    rcases r with _ | _
    · exact ⟨rfl, rfl⟩
    · exact ih q

/-- All breakpoints of a kind are cleared alike. -/
theorem mirrors_clearKind (kind : BreakpointKind) :
    Action.Mirrors plain (clearKind (σ := Recorded σ) kind) (clearKind kind) := by
  intro d
  rw [clearKind_apply, clearKind_apply]
  obtain ⟨hr, hq⟩ := mirrors_clearEach ((d.breakpoints.filter (·.kind = kind)).map (·.addr)) d
  exact ⟨by rw [hr]; rfl, hq⟩

/-- What mirrors on the process also does while a breakpoint is lifted, and the breakpoint is put
back alike: it depends on whether the process is still alive, which the record does not change. -/
theorem mirrors_withDisarmed (addr : Addr) {x : Action (Recorded σ) α} {y : Action σ α}
    (h : Action.Mirrors Recorded.process x y) :
    Action.Mirrors plain (withDisarmed addr x) (withDisarmed addr y) := by
  intro d
  rw [withDisarmed_apply, withDisarmed_apply]
  simp only [plain]
  rcases d.breakpoints.locate? addr with _ | b
  · exact ⟨rfl, rfl⟩
  obtain ⟨r, q, hw, hw'⟩ := (Recorded.mirrors_writeMemory addr [b.saved]).ends d.process
  simp only [hw, hw']
  rcases r with _ | _
  · exact ⟨rfl, rfl⟩
  -- in between, `x` and `y` mirror each other by assumption
  obtain ⟨a, p, hx, hy⟩ := h.ends q
  simp only [hx, hy, Recorded.isAlive_eq]
  obtain ⟨r, q, hw, hw'⟩ := (Recorded.mirrors_writeMemory addr [trapByte]).ends p
  simp only [hw, hw']
  -- the record does not change whether the process is alive
  by_cases halive : Tracee.isAlive p.process
  · simp only [halive, if_true, and_self]
  · simp only [halive, Bool.false_eq_true, if_false, and_self]

end Debuggee

namespace Session

/-- A session without the record of its process. -/
def plain (s : Session (Recorded σ)) : Session σ :=
  ⟨s.debuggee.plain, s.index, s.frames, s.pendingSignal, s.bias, s.listRange, s.files⟩

section Views

variable (s : Session (Recorded σ))

/-- Forgetting the record commutes with taking the process of a session. -/
@[simp]
theorem plain_process : s.plain.process = s.process.process := rfl

/-- Forgetting the record commutes with taking the debuggee of a session. -/
@[simp]
theorem plain_debuggee : s.plain.debuggee = s.debuggee.plain := rfl

/-- The index of a session does not depend on the record. -/
@[simp]
theorem plain_index : s.plain.index = s.index := rfl

/-- The signal that is to be delivered does not depend on the record. -/
@[simp]
theorem plain_pendingSignal : s.plain.pendingSignal = s.pendingSignal := rfl

/-- The line of an address does not depend on the record. -/
@[simp]
theorem plain_lineOf (pc : Addr) : s.plain.lineOf pc = s.lineOf pc := rfl

end Views

/-- From a session with a recorded process, `x` does what `y` does from the session without the
record. -/
def Mirrors (x : Task (Recorded σ) α) (y : Task σ α) (s : Session (Recorded σ)) : Prop :=
  (x s).map (fun end_ => (end_.1, end_.2.plain)) = y s.plain

section Rules

variable {s : Session (Recorded σ)}

/-- An answer that is given at once is the same with and without a record. -/
theorem mirrors_pure (a : α) : Mirrors (pure a) (pure a) s := rfl

/-- A failure is the same with and without a record. -/
theorem mirrors_throw (e : DebugError) : Mirrors (α := α) (throw e) (throw e) s := rfl

/-- A result that is known already is the same with and without a record. -/
theorem mirrors_lift (e : Except DebugError α) : Mirrors (liftM e) (liftM e) s := by
  cases e <;> rfl

/-- What is read off the session is the same if it does not look at the record. -/
theorem mirrors_reading {f : Session (Recorded σ) → α} {g : Session σ → α} (h : f s = g s.plain) :
    Mirrors (reading f) (reading g) s := by
  simp only [Mirrors, reading, Option.map, h]

/-- What is observed of the process is the same if the record does not change it. -/
theorem mirrors_observe {f : Recorded σ → Except DebugError α} {g : σ → Except DebugError α}
    (h : f s.process = g s.process.process) : Mirrors (observe f) (observe g) s := by
  simp only [Mirrors, observe, Option.map, h, plain_process]

/-- What mirrors on the debuggee mirrors on the session. -/
theorem mirrors_onDebuggee {x : Action (Debuggee (Recorded σ)) α} {y : Action (Debuggee σ) α}
    (h : Action.Mirrors Debuggee.plain x y) : Mirrors (onDebuggee x) (onDebuggee y) s := by
  obtain ⟨a, d, hx, hy⟩ := h.ends s.debuggee
  simp only [Mirrors, onDebuggee, hx, plain_debuggee, hy, Option.map]
  rfl

/-- Parts in a row mirror each other if they do one by one. -/
theorem Mirrors.bind {x : Task (Recorded σ) α} {y : Task σ α} {f : α → Task (Recorded σ) β}
    {g : α → Task σ β} (h : Mirrors x y s) (next : ∀ a t, Mirrors (f a) (g a) t) :
    Mirrors (x >>= f) (y >>= g) s := by
  unfold Mirrors at h ⊢
  rw [bind_apply, bind_apply, ← h]
  -- without an end, with a failure, with a success
  rcases x s with _ | ⟨_ | a, t⟩
  · rfl
  · rfl
  · exact next a t

/-- If a part and its handler mirror, so does the part with its handler. The handler runs in the
session as the part left it. -/
theorem Mirrors.tryCatch {x : Task (Recorded σ) α} {y : Task σ α}
    {handler : DebugError → Task (Recorded σ) α} {handler' : DebugError → Task σ α}
    (h : Mirrors x y s) (caught : ∀ e t, Mirrors (handler e) (handler' e) t) :
    Mirrors (tryCatch x handler) (tryCatch y handler') s := by
  unfold Mirrors at h ⊢
  rw [tryCatch_apply, tryCatch_apply, ← h]
  rcases x s with _ | ⟨e | _, t⟩
  · rfl
  · exact caught e t
  · rfl

/-- If each step of a fold mirrors, the whole fold does. -/
theorem mirrors_foldlM {γ : Type} (f : α → γ → Task (Recorded σ) α) (g : α → γ → Task σ α)
    (step : ∀ a c t, Mirrors (f a c) (g a c) t) (l : List γ) (a : α) :
    Mirrors (l.foldlM f a) (l.foldlM g a) s := by
  induction l generalizing a s with
  | nil => exact rfl
  | cons c rest ih =>
    rw [List.foldlM_cons, List.foldlM_cons]
    exact (step a c s).bind fun b t => ih b

/-- The two sessions are read first. -/
theorem mirrors_get_bind {f : Session (Recorded σ) → Task (Recorded σ) α}
    {g : Session σ → Task σ α} (h : Mirrors (f s) (g s.plain) s) :
    Mirrors (get >>= f) (get >>= g) s := by
  unfold Mirrors at h ⊢
  rw [bind_apply, bind_apply]
  exact h

/-- Both take the same branch if their conditions are equivalent. -/
theorem mirrors_ite {p q : Prop} [Decidable p] [Decidable q] {x x' : Task (Recorded σ) α}
    {y y' : Task σ α} (hpq : p ↔ q) (h : p → Mirrors x y s) (h' : ¬ p → Mirrors x' y' s) :
    Mirrors (if p then x else x') (if q then y else y') s := by
  by_cases hp : p
  · rw [if_pos hp, if_pos (hpq.1 hp)]
    exact h hp
  · rw [if_neg hp, if_neg (fun hq => hp (hpq.2 hq))]
    exact h' hp

end Rules

section Parts

variable [Tracee σ] (s : Session (Recorded σ))

/-- The program counter is read alike. -/
theorem mirrors_pc : Mirrors pc pc s := mirrors_observe rfl

/-- Commands for a process that is gone are refused alike. -/
theorem mirrors_ensureAlive : Mirrors ensureAlive ensureAlive s := mirrors_observe rfl

/-- The breakpoints of the debugger are cleared alike. -/
theorem mirrors_clearInternal : Mirrors clearInternal clearInternal s :=
  (mirrors_onDebuggee (Debuggee.mirrors_clearKind .internal)).bind fun _ _ => mirrors_pure _

omit [Tracee σ] in
/-- The breakpoints of the debugger are dropped from the table alike. -/
theorem mirrors_discardInternal : Mirrors discardInternal discardInternal s := rfl

/-- The same instruction is decoded, since the same bytes are read. -/
theorem mirrors_instructionAt (pc : Addr) : Mirrors (instructionAt pc) (instructionAt pc) s := by
  apply mirrors_get_bind
  exact Mirrors.bind (mirrors_lift _) fun _ _ => mirrors_lift _

/-- A step over a breakpoint is taken alike. -/
theorem mirrors_stepOverBreakpoint (pc : Addr) :
    Mirrors (stepOverBreakpoint pc) (stepOverBreakpoint pc) s :=
  mirrors_onDebuggee (Debuggee.mirrors_withDisarmed pc Recorded.mirrors_singleStep)

/-- A step is taken alike, over a breakpoint or not. -/
theorem mirrors_stepOnce : Mirrors stepOnce stepOnce s := by
  refine (mirrors_pc s).bind fun pc t => mirrors_get_bind (mirrors_ite Iff.rfl ?_ ?_)
  · exact fun _ => mirrors_stepOverBreakpoint t pc
  · exact fun _ => mirrors_onDebuggee (Debuggee.mirrors_onProcess Recorded.mirrors_singleStep)

/-- The process is resumed alike, and with a record it does not stop if and only if it does not stop
without one. -/
theorem mirrors_resumeProcess : Mirrors resumeProcess resumeProcess s := by
  simp only [Mirrors, resumeProcess, plain_process, plain_pendingSignal]
  rw [Recorded.resume_apply]
  rcases Tracee.resume s.pendingSignal s.process.process with _ | ⟨_, p⟩ <;> rfl

/-- The program counter goes back to a breakpoint alike. -/
theorem mirrors_rewindAfterTrap : Mirrors rewindAfterTrap rewindAfterTrap s := by
  refine (mirrors_pc s).bind fun pc t => ?_
  -- an address before the program counter, or none
  split
  · refine mirrors_get_bind (mirrors_ite Iff.rfl (fun _ => ?_) fun _ => mirrors_pure _)
    refine (mirrors_onDebuggee (Debuggee.mirrors_onProcess (Recorded.mirrors_setPc _))).bind ?_
    exact fun _ _ => mirrors_pure _
  · exact mirrors_pure _

/-- A stop is answered alike, and leaves the same signal to be delivered. -/
theorem mirrors_stopped (stop : Stop) : Mirrors (stopped stop) (stopped stop) s := by
  rcases stop with kind | sig | code | sig
  -- only a breakpoint trap moves the program counter
  · rcases kind with _ | _ | _
    · exact (mirrors_rewindAfterTrap s).bind fun _ _ => mirrors_reading rfl
    all_goals exact (mirrors_pc s).bind fun _ _ => mirrors_reading rfl
  · refine Mirrors.bind (x := modify _) (y := modify _) rfl fun _ t => ?_
    exact (mirrors_pc t).bind fun _ _ => mirrors_pure _
  all_goals
    refine (mirrors_discardInternal s).bind fun _ t => mirrors_get_bind ?_
    exact mirrors_pure _

/-- A recorded process continues as the process itself. -/
theorem mirrors_continueExecution : Mirrors continueExecution continueExecution s := by
  refine (mirrors_ensureAlive s).bind fun _ t => ?_
  refine (mirrors_clearInternal t).bind fun _ u => ?_
  refine (mirrors_pc u).bind fun pc v => ?_
  -- both ends of the command let the process go
  have run : ∀ w : Session (Recorded σ), Mirrors (do stopped (← resumeProcess))
      (do stopped (← resumeProcess)) w :=
    fun w => (mirrors_resumeProcess w).bind fun stop x => mirrors_stopped x stop
  refine mirrors_get_bind (mirrors_ite Iff.rfl (fun _ => ?_) fun _ => run v)
  refine (mirrors_stepOverBreakpoint v pc).bind fun stop w => ?_
  exact mirrors_ite Iff.rfl (fun _ => mirrors_stopped w stop) fun _ => run w

/-- One instruction is stepped alike. -/
theorem mirrors_stepInstruction : Mirrors stepInstruction stepInstruction s := by
  refine (mirrors_ensureAlive s).bind fun _ t => ?_
  refine (mirrors_clearInternal t).bind fun _ u => ?_
  exact (mirrors_stepOnce u).bind fun stop v => mirrors_stopped v stop

/-- A run back to a return address mirrors for any fuel, and runs out of it alike. -/
theorem mirrors_runBack (ret callerSp : Addr) (fuel : Nat) :
    Mirrors (runBack ret callerSp fuel) (runBack ret callerSp fuel) s := by
  -- the two runs stop at the same events, so the session varies
  induction fuel generalizing s with
  | zero => rfl
  | succ fuel ih =>
    refine (mirrors_resumeProcess s).bind fun stop t => ?_
    refine mirrors_ite Iff.rfl (fun _ => mirrors_pure _) fun _ => ?_
    refine (mirrors_rewindAfterTrap t).bind fun pc u => ?_
    refine mirrors_ite Iff.rfl (fun _ => mirrors_pure _) fun _ => ?_
    refine Mirrors.bind (mirrors_observe rfl) fun regs v => ?_
    refine mirrors_ite Iff.rfl (fun _ => mirrors_pure _) fun _ => ?_
    refine (mirrors_stepOverBreakpoint v ret).bind fun stop w => ?_
    exact mirrors_ite Iff.rfl (fun _ => mirrors_pure _) fun _ => ih w

/-- The way in which a run back ended is answered alike. -/
theorem mirrors_answerFor (outcome : Option Stop) :
    Mirrors (answerFor outcome) (answerFor outcome) s := by
  unfold answerFor
  split
  · exact mirrors_pure _
  · refine (mirrors_pc s).bind fun pc t => Mirrors.bind (mirrors_reading rfl) fun _ _ => ?_
    exact mirrors_pure _
  · exact (mirrors_stopped s _).bind fun _ _ => mirrors_pure _

/-- A run to a return address mirrors, whether its breakpoint could be set or not. -/
theorem mirrors_runToReturn (fuel : Nat) (ret callerSp : Addr) :
    Mirrors (runToReturn fuel ret callerSp) (runToReturn fuel ret callerSp) s := by
  have back : ∀ t : Session (Recorded σ),
      Mirrors (runBack ret callerSp fuel) (runBack ret callerSp fuel) t :=
    fun t => mirrors_runBack t ret callerSp fuel
  apply mirrors_get_bind
  dsimp only
  -- the table is the same, so both set a breakpoint or neither does
  refine mirrors_ite Iff.rfl (fun hown => ?_) fun hown => ?_
  · refine Mirrors.bind (mirrors_onDebuggee (Debuggee.mirrors_setInternal _ ret)) fun _ t => ?_
    refine (back t).bind fun outcome u => ?_
    refine mirrors_ite Iff.rfl (fun _ => ?_) fun _ => mirrors_answerFor u outcome
    refine mirrors_get_bind (mirrors_ite Iff.rfl (fun _ => ?_) fun _ => ?_)
    · exact (mirrors_clearInternal u).bind fun _ v => mirrors_answerFor v outcome
    · exact (mirrors_discardInternal u).bind fun _ v => mirrors_answerFor v outcome
  · refine (back s).bind fun outcome u => ?_
    exact mirrors_ite Iff.rfl (fun hown' => absurd hown' hown) fun _ => mirrors_answerFor u outcome

/-- What goes on behind a decoded instruction mirrors if it does for all registers and instructions. -/
theorem mirrors_instructionThen
    {onward : Registers → InstructionInfo → Task (Recorded σ) Feedback}
    {onward' : Registers → InstructionInfo → Task σ Feedback}
    (h : ∀ regs info t, Mirrors (onward regs info) (onward' regs info) t) :
    Mirrors (instructionThen onward) (instructionThen onward') s := by
  refine Mirrors.bind (mirrors_observe rfl) fun regs t => ?_
  refine (mirrors_instructionAt t regs.pc).bind fun info u => ?_
  refine (mirrors_stepOnce u).bind fun stop v => ?_
  exact mirrors_ite Iff.rfl (fun _ => mirrors_stopped v stop) fun _ => h regs info v

/-- Steps up to another line mirror for any fuel. -/
theorem mirrors_stepFrom (start : SourceLocation) (fuel : Nat) :
    Mirrors (stepFrom start fuel) (stepFrom start fuel) s := by
  induction fuel generalizing s with
  | zero => rfl
  | succ fuel ih =>
    refine mirrors_instructionThen s fun regs info v => ?_
    refine (mirrors_pc v).bind fun pc w => mirrors_get_bind ?_
    rw [plain_lineOf]
    -- code without lines, or a line
    rcases w.lineOf pc with _ | location
    · refine mirrors_ite Iff.rfl (fun _ => mirrors_reading rfl) fun _ => ?_
      refine (mirrors_runToReturn w fuel _ _).bind fun feedback x => ?_
      rcases feedback with _ | feedback
      · refine (mirrors_pc x).bind fun pc y => mirrors_get_bind ?_
        rw [plain_lineOf]
        rcases y.lineOf pc with _ | location
        · exact ih y
        · exact mirrors_ite Iff.rfl (fun _ => mirrors_reading rfl) fun _ => ih y
      · exact mirrors_pure _
    · exact mirrors_ite Iff.rfl (fun _ => mirrors_reading rfl) fun _ => ih w

/-- One round of steps over calls mirrors if the rounds behind it do. -/
theorem mirrors_nextOnward (start : SourceLocation) (fuel : Nat)
    (h : ∀ t : Session (Recorded σ), Mirrors (nextFrom start fuel) (nextFrom start fuel) t) :
    Mirrors (nextOnward start fuel) (nextOnward start fuel) s := by
  refine (mirrors_pc s).bind fun pc t => ?_
  refine mirrors_get_bind (mirrors_ite Iff.rfl (fun _ => mirrors_reading rfl) fun _ => ?_)
  apply mirrors_get_bind
  rw [plain_lineOf]
  rcases t.lineOf pc with _ | location
  · exact mirrors_reading rfl
  · exact mirrors_ite Iff.rfl (fun _ => h t) fun _ => mirrors_reading rfl

/-- Steps over calls up to another line mirror for any fuel. -/
theorem mirrors_nextFrom (start : SourceLocation) (fuel : Nat) :
    Mirrors (nextFrom start fuel) (nextFrom start fuel) s := by
  induction fuel generalizing s with
  | zero => rfl
  | succ fuel ih =>
    refine mirrors_instructionThen s fun regs info v => ?_
    refine (mirrors_pc v).bind fun pc w => ?_
    refine mirrors_ite Iff.rfl (fun _ => ?_) fun _ => mirrors_nextOnward w start fuel ih
    refine (mirrors_runToReturn w fuel _ _).bind fun feedback x => ?_
    rcases feedback with _ | feedback
    · exact mirrors_nextOnward x start fuel ih
    · exact mirrors_pure _

/-- A command that steps by lines mirrors if its steps from every line do. -/
theorem mirrors_stepLineWith {from_ : SourceLocation → Task (Recorded σ) Feedback}
    {from' : SourceLocation → Task σ Feedback}
    (h : ∀ start t, Mirrors (from_ start) (from' start) t) :
    Mirrors (stepLineWith from_) (stepLineWith from') s := by
  refine (mirrors_ensureAlive s).bind fun _ t => ?_
  refine (mirrors_clearInternal t).bind fun _ u => ?_
  refine (mirrors_pc u).bind fun pc v => mirrors_get_bind ?_
  rw [plain_lineOf]
  rcases v.lineOf pc with e | start
  · exact mirrors_throw e
  · exact h start v

/-- A breakpoint is set at a line alike. -/
theorem mirrors_setBreakpoint (file : String) (line : UInt64) :
    Mirrors (setBreakpoint file line) (setBreakpoint file line) s := by
  apply mirrors_get_bind
  refine Mirrors.bind (mirrors_onDebuggee (Debuggee.mirrors_setUser _ file line)) fun b t => ?_
  exact mirrors_get_bind (mirrors_pure _)

/-- A breakpoint is set at a function alike. -/
theorem mirrors_setFunctionBreakpoint (name : String) :
    Mirrors (setFunctionBreakpoint name) (setFunctionBreakpoint name) s := by
  apply mirrors_get_bind
  rw [plain_index]
  dsimp only
  rcases s.index.functionsNamed name with _ | ⟨f, _⟩
  · exact mirrors_throw _
  · exact Mirrors.bind (mirrors_lift _) fun location t => mirrors_setBreakpoint t _ _

/-- Breakpoints are cleared alike. -/
theorem mirrors_clearBreakpoint (target : ClearTarget) :
    Mirrors (clearBreakpoint target) (clearBreakpoint target) s := by
  rcases target with number | _
  · exact Mirrors.bind (mirrors_onDebuggee (Debuggee.mirrors_clearUser number))
      fun _ _ => mirrors_pure _
  · apply mirrors_get_bind
    exact Mirrors.bind (mirrors_onDebuggee (Debuggee.mirrors_clearKind .user))
      fun _ _ => mirrors_pure _

/-- The disassembly is the same, since the code is read alike and the same breakpoints are hidden
from it. -/
theorem mirrors_disassemble : Mirrors disassemble disassemble s := by
  refine (mirrors_pc s).bind fun pc t => mirrors_get_bind ?_
  refine Mirrors.bind (mirrors_lift _) fun f u => ?_
  refine Mirrors.bind (mirrors_observe rfl) fun bytes v => ?_
  exact Mirrors.bind (mirrors_lift _) fun d w => mirrors_pure _

/-- The listing is the same, since the files and the line of the program counter are. -/
theorem mirrors_list (location : Option (String × UInt64)) (range : Option UInt64) :
    Mirrors (list location range) (list location range) s := by
  have shown : ∀ (file : String) (line : UInt64) (t : Session (Recorded σ)), Mirrors (do
      return Feedback.listing (← (Listing.read s.files file line (range.getD s.listRange) :
        Except DebugError _))) (do
      return Feedback.listing (← (Listing.read s.files file line (range.getD s.listRange) :
        Except DebugError _))) t :=
    fun _ _ _ => Mirrors.bind (mirrors_lift _) fun _ _ => mirrors_pure _
  apply mirrors_get_bind
  rcases location with _ | ⟨file, line⟩
  · refine (mirrors_pc s).bind fun pc t => ?_
    refine Mirrors.bind (mirrors_lift _) fun l u => ?_
    exact shown _ _ u
  · exact shown _ _ s

/-- A variable is read alike. -/
theorem mirrors_print (name : String) : Mirrors (print name) (print name) s := by
  apply mirrors_get_bind
  exact Mirrors.bind (mirrors_observe rfl) fun _ _ => mirrors_pure _

/-- A restart mirrors, and sets the same breakpoints again. -/
theorem mirrors_restart : Mirrors restart restart s := by
  refine Mirrors.bind (mirrors_onDebuggee (Debuggee.mirrors_onProcess Recorded.mirrors_restart))
    fun _ t => mirrors_get_bind ?_
  refine Mirrors.bind (x := modify _) (y := modify _) rfl fun _ u => mirrors_get_bind ?_
  -- the breakpoints are set again one by one
  refine Mirrors.bind (mirrors_foldlM _ _ (fun n b v => ?_) _ 0) fun n v => ?_
  · refine Mirrors.tryCatch ?_ fun _ _ => mirrors_pure _
    exact Mirrors.bind (mirrors_onDebuggee (Debuggee.mirrors_setUser _ _ _)) fun _ _ =>
      mirrors_pure _
  · exact mirrors_get_bind (mirrors_pure _)

/-- A session with a recorded process answers every command as the session with the process itself,
and both end in the same state. -/
theorem mirrors_handle (fuel : Nat) (c : Command) :
    Mirrors (handle fuel c) (handle fuel c) s := by
  cases c
  case setBreakpoint file line => exact mirrors_setBreakpoint s file line
  case setFunctionBreakpoint name => exact mirrors_setFunctionBreakpoint s name
  case find file line =>
    exact mirrors_get_bind (Mirrors.bind (mirrors_lift _) fun _ _ => mirrors_pure _)
  case clearBreakpoint target => exact mirrors_clearBreakpoint s target
  case listBreakpoints all => exact mirrors_reading rfl
  case backtrace =>
    refine mirrors_get_bind (Mirrors.bind (mirrors_observe ?_) fun _ _ => mirrors_pure _)
    exact Recorded.walk_eq _ _
  case resume => exact mirrors_continueExecution s
  case step => exact mirrors_stepLineWith s fun start t => mirrors_stepFrom t start fuel
  case next => exact mirrors_stepLineWith s fun start t => mirrors_nextFrom t start fuel
  case stepInstruction => exact mirrors_stepInstruction s
  case list location range => exact mirrors_list s location range
  case restart => exact mirrors_restart s
  case disassemble => exact mirrors_disassemble s
  case print name => exact mirrors_print s name
  case registers => exact Mirrors.bind (mirrors_observe rfl) fun _ _ => mirrors_pure _
  case help => exact mirrors_pure _
  case unsupported input => exact mirrors_pure _
  case quit => exact mirrors_pure _

/-- So every run of commands has a record. -/
theorem executeAll_recorded (commands : List (Nat × Command)) (s : Session (Recorded σ)) :
    (executeAll commands s).map plain = executeAll commands s.plain := by
  induction commands generalizing s with
  | nil => rfl
  | cons head rest ih =>
    obtain ⟨fuel, c⟩ := head
    have hc := mirrors_handle s fuel c
    unfold Mirrors at hc
    simp only [executeAll, ← hc]
    -- the commands go on from mirrored sessions
    rcases handle fuel c s with _ | ⟨_, t⟩
    · rfl
    · exact ih t

/-- Every run of a session without a record is the run of a session with one. -/
theorem exists_recorded {commands : List (Nat × Command)} {s : Session (Recorded σ)}
    {t : Session σ} (h : executeAll commands s.plain = some t) :
    ∃ r, executeAll commands s = some r ∧ r.plain = t := by
  rw [← executeAll_recorded] at h
  exact Option.map_eq_some_iff.1 h

end Parts

end Session

end SourceDebugger
