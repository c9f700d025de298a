import SourceDebugger.Proofs.Debuggee
import SourceDebugger.Proofs.Ensures

/-!
# Invariants of sessions

A property that every command keeps is proved by looking at the few ways in which a command touches
the process and the table: it sets or clears a breakpoint, lets the process execute one instruction
or run on, and moves the program counter back onto a breakpoint. Between a stop of the process and
its handling the property can have another form, so an `Invariant` has three of them.

`Maintained` collects what has to be shown of the single accesses. From it follows that every
command except a restart keeps the property, `Maintained.handle`, whatever the command is and
however it ends.
-/

namespace SourceDebugger.Session

variable {σ : Type} [Tracee σ]

/-- A property of sessions, in the forms it takes while a command is executed. -/
structure Invariant (σ : Type) where
  /-- Between two accesses to the process. -/
  holds : Session σ → Prop
  /-- When the process executed a trap and the program counter is still behind it. -/
  trapped : Session σ → Prop
  /-- When a signal stopped the process and is not noted yet. -/
  signalled : Signal → Session σ → Prop

/-- The commands that show something and change nothing. -/
def onlyShows : Command → Bool
  | .setBreakpoint .. | .setFunctionBreakpoint _ | .clearBreakpoint _ | .resume | .step | .next
  | .stepInstruction | .restart => false
  | _ => true

/-- The disassembly reads code and leaves the session as it is. -/
theorem disassemble_reads (s : Session σ) : Ensures disassemble s fun _ t => t = s := by
  refine ensures_observe_bind.2 ?_
  split
  · refine ensures_get_bind.2 (ensures_lift_bind.2 ?_)
    split
    · refine ensures_observe_bind.2 ?_
      split
      · refine ensures_lift_bind.2 ?_
        split
        · exact ensures_pure.2 rfl
        · rfl
      · rfl
    · rfl
  · rfl

/-- A listing reads a file and leaves the session as it is. -/
theorem list_reads (location : Option (String × UInt64)) (range : Option UInt64) (s : Session σ) :
    Ensures (list location range) s fun _ t => t = s := by
  have shown : ∀ file line, Ensures (do
      return .listing (← (Listing.read s.files file line (range.getD s.listRange) :
        Except DebugError _)) : Task σ Feedback) s fun _ t => t = s := by
    intro file line
    refine ensures_lift_bind.2 ?_
    split
    · exact ensures_pure.2 rfl
    · rfl
  refine ensures_get_bind.2 ?_
  -- without a location the one at the program counter is shown
  rcases location with _ | ⟨file, line⟩
  · refine ensures_observe_bind.2 ?_
    split
    · refine ensures_lift_bind.2 ?_
      split
      · exact shown _ _
      · rfl
    · rfl
  · exact shown _ _

/-- A command that only shows something leaves the session as it is. -/
theorem handle_reads (fuel : Nat) (c : Command) (hc : onlyShows c = true) (s : Session σ) :
    Ensures (handle fuel c) s fun _ t => t = s := by
  cases c
  case find file line =>
    refine ensures_get_bind.2 (ensures_lift_bind.2 ?_)
    split
    · exact ensures_pure.2 rfl
    · rfl
  case listBreakpoints all => exact ensures_reading.2 rfl
  case backtrace =>
    refine ensures_get_bind.2 (ensures_observe_bind.2 ?_)
    split
    · exact ensures_pure.2 rfl
    · rfl
  case list location range => exact list_reads location range s
  case disassemble => exact disassemble_reads s
  case print name =>
    refine ensures_get_bind.2 (ensures_observe_bind.2 ?_)
    split
    · exact ensures_pure.2 rfl
    · rfl
  case registers =>
    refine ensures_observe_bind.2 ?_
    split
    · exact ensures_pure.2 rfl
    · rfl
  case help => exact ensures_pure.2 rfl
  case unsupported input => exact ensures_pure.2 rfl
  case quit => exact ensures_pure.2 rfl
  all_goals cases hc

namespace Invariant

variable (I : Invariant σ)

/-- What is known after a stop that is not handled yet. -/
def stopped : Stop → Session σ → Prop
  | .trap .breakpoint, s => I.trapped s
  | .trap _, s => I.holds s
  | .signal sig, s => I.signalled sig s
  | .exited _, s | .killed _, s => Tracee.isAlive s.process = false

/-- What is known after a stop once the program counter was moved back if need be. -/
def settled : Stop → Session σ → Prop
  | .trap _, s => I.holds s
  | .signal sig, s => I.signalled sig s
  | .exited _, s | .killed _, s => Tracee.isAlive s.process = false

/-- What is known after the process was let go, which may have failed. -/
def released : Except DebugError Stop → Session σ → Prop
  | .ok stop, s => I.stopped stop s
  | .error _, s => I.holds s

/-- What is known after a run to a return address, which another stop may have ended. -/
def ran : Except DebugError (Option Stop) → Session σ → Prop
  | .ok (some stop), s => I.settled stop s
  | .ok none, s | .error _, s => I.holds s

/-- What has to be shown of the single accesses for a property to be kept by every command. -/
structure Maintained : Prop where
  /-- Nothing is claimed of a process that is gone. -/
  gone : ∀ s, Tracee.isAlive s.process = false →
    I.holds s ∧ I.trapped s ∧ ∀ sig, I.signalled sig s
  /-- A breakpoint is set. -/
  arm : ∀ s addr file line kind, I.holds s →
    I.holds { s with debuggee := (Debuggee.arm addr file line kind s.debuggee).2 }
  /-- A breakpoint is cleared. -/
  clearAt : ∀ s addr, I.holds s →
    I.holds { s with debuggee := (Debuggee.clearAt addr s.debuggee).2 }
  /-- The breakpoints of the step engine are cleared while a signal is not noted yet. -/
  clearKind_signalled : ∀ s sig, I.signalled sig s →
    Outcome (fun d => I.signalled sig { s with debuggee := d })
      (fun d => I.holds { s with debuggee := d })
      (Debuggee.clearKind .internal s.debuggee).1 (Debuggee.clearKind .internal s.debuggee).2
  /-- A signal is noted. -/
  note : ∀ s sig, I.signalled sig s → I.holds { s with pendingSignal := some sig }
  /-- The process executes an instruction under which there is no breakpoint. -/
  step : ∀ s pc, I.holds s → Tracee.pc s.process = .ok pc → s.breakpoints.isArmed pc = false →
    Ensures (onProcess Tracee.singleStep) s I.released
  /-- The process executes the instruction under the breakpoint at its program counter. -/
  stepOver : ∀ s addr, I.holds s →
    (Tracee.isAlive s.process = true → Tracee.pc s.process = .ok addr) →
    Ensures (stepOverBreakpoint addr) s fun r t =>
      I.released r t ∧ (r = .ok (.trap .breakpoint) → I.holds t)
  /-- The process runs on. -/
  resume : ∀ s, I.holds s → Ensures resumeProcess s I.released
  /-- The program counter is moved back onto a breakpoint. -/
  rewind : ∀ s, I.trapped s → Ensures rewindAfterTrap s fun r t =>
    I.holds t ∧ ∀ addr, r = .ok addr → Tracee.isAlive t.process = true →
      Tracee.pc t.process = .ok addr

variable {I}

/-- The program counter has to be moved back behind a breakpoint only. -/
theorem stopped_of_ne {stop : Stop} {s : Session σ} (h : stop ≠ .trap .breakpoint) :
    I.stopped stop s ↔ I.settled stop s := by
  rcases stop with (_ | _ | _) | _ | _ | _
  · exact absurd rfl h
  all_goals exact Iff.rfl

/-- What the next round keeps, the end of this one keeps as well. -/
theorem nextOnward_keeps (start : SourceLocation) (fuel : Nat)
    (hnext : ∀ t : Session σ, I.holds t → Ensures (nextFrom start fuel) t fun _ u => I.holds u)
    (s : Session σ) (h : I.holds s) : Ensures (nextOnward start fuel) s fun _ t => I.holds t := by
  refine Ensures.bind_keeps (ensures_observe.2 h) fun pc t ht => ?_
  refine ensures_get_bind.2 (ensures_ite.2 ⟨fun _ => ensures_reading.2 ht, fun _ => ?_⟩)
  refine ensures_get_bind.2 ?_
  -- the line is another one, the same one, or not known
  split
  · exact ensures_ite.2 ⟨fun _ => hnext t ht, fun _ => ensures_reading.2 ht⟩
  · exact ensures_reading.2 ht

namespace Maintained

variable (M : I.Maintained)
include M

/-- A breakpoint of the operator is armed, or nothing is changed, so the property is kept. -/
theorem setUser (s : Session σ) (index : DebugIndex) (file : String) (line : UInt64)
    (h : I.holds s) :
    I.holds { s with debuggee := (Debuggee.setUser index file line s.debuggee).2 } := by
  rcases Debuggee.setUser_apply index file line s.debuggee with hsame | ⟨addr, stored, harm⟩
  · rw [hsame]
    exact h
  · rw [harm]
    exact M.arm s addr stored line .user h

/-- The same for a breakpoint of the step engine. -/
theorem setInternal (s : Session σ) (index : DebugIndex) (addr : Addr) (h : I.holds s) :
    I.holds { s with debuggee := (Debuggee.setInternal index addr s.debuggee).2 } := by
  rw [Debuggee.setInternal_apply]
  exact M.arm s addr _ _ .internal h

/-- Clearing all breakpoints of a kind keeps the property, up to the first that fails. -/
theorem clearKind (s : Session σ) (kind : BreakpointKind) (h : I.holds s) :
    I.holds { s with debuggee := (Debuggee.clearKind kind s.debuggee).2 } := by
  have clear : ∀ addr (d : Debuggee σ), I.holds { s with debuggee := d } →
      Outcome (fun d => I.holds { s with debuggee := d })
        (fun d => I.holds { s with debuggee := d }) (Debuggee.clearAt addr d).1
        (Debuggee.clearAt addr d).2 := by
    intro addr d hd
    rw [outcome_same]
    exact M.clearAt { s with debuggee := d } addr hd
  -- each clearing may fail, which leaves the property in the same form
  have cleared := Debuggee.clearKind_keeps clear kind h
  rwa [outcome_same] at cleared

/-- The step engine may clear its breakpoints. -/
theorem clearInternal (s : Session σ) (h : I.holds s) :
    Ensures clearInternal s fun _ t => I.holds t := by
  refine Ensures.bind_keeps (ensures_onDebuggee.2 ?_) fun _ t ht => ensures_pure.2 ht
  exact M.clearKind s .internal h

/-- While a signal is not noted yet, clearing the breakpoints of the step engine keeps that, unless
it fails. The command ends then, and the signal is lost with it. -/
theorem clearInternal_signalled (s : Session σ) (sig : Signal) (h : I.signalled sig s) :
    Ensures Session.clearInternal s (Outcome (I.signalled sig) I.holds) := by
  refine Ensures.bind (R := Outcome (I.signalled sig) I.holds) ?_
    (fun _ t ht => ensures_pure.2 ht) fun _ _ ht => ht
  refine ensures_onDebuggee.2 ?_
  -- a failure ends the command, and then the signal is lost with it
  have cleared := M.clearKind_signalled s sig h
  rw [Debuggee.clearInternal]
  revert cleared
  cases (Debuggee.clearKind .internal s.debuggee).1 <;> exact id

omit M in
/-- Dropping breakpoints from the table does not touch the process. -/
theorem discardInternal (s : Session σ) (h : Tracee.isAlive s.process = false) :
    Ensures Session.discardInternal s fun _ t => Tracee.isAlive t.process = false :=
  ensures_modify.2 h

/-- However the process came to its stop, the property holds once the stop is answered. -/
theorem stopped (stop : Stop) (s : Session σ) (h : I.stopped stop s) :
    Ensures (Session.stopped stop) s fun _ t => I.holds t := by
  rcases stop with kind | sig | code | sig
  -- a breakpoint trap is the only stop that moves the program counter
  · rcases kind with _ | _ | _
    · refine Ensures.bind_keeps ((M.rewind s h).mono fun _ _ ht => ht.1) fun pc t ht => ?_
      exact ensures_reading.2 ht
    all_goals
      refine Ensures.bind_keeps (ensures_observe.2 h) fun pc t ht => ?_
      exact ensures_reading.2 ht
  -- a signal is noted
  · refine Ensures.bind_keeps (ensures_modify.2 (M.note s sig h)) fun _ t ht => ?_
    refine Ensures.bind_keeps (ensures_observe.2 ht) fun pc u hu => ?_
    exact ensures_pure.2 hu
  -- a process that is gone leaves a table that says nothing about memory
  all_goals
    refine (Invariant.Maintained.discardInternal s h).bind (fun _ t ht => ?_)
      fun _ t ht => (M.gone t ht).1
    refine ensures_get_bind.2 ?_
    exact ensures_pure.2 (M.gone t ht).1

/-- The same once the program counter was moved back. -/
theorem stopped_of_settled {stop : Stop} (hstop : stop ≠ .trap .breakpoint) (s : Session σ)
    (h : I.settled stop s) : Ensures (Session.stopped stop) s fun _ t => I.holds t :=
  M.stopped stop s ((stopped_of_ne hstop).2 h)

/-- One instruction of the program is executed, whether there is a breakpoint under it or not. -/
theorem stepOnce (s : Session σ) (h : I.holds s) : Ensures Session.stepOnce s I.released := by
  refine ensures_observe_bind.2 ?_
  rcases hpc : Tracee.pc s.process with e | pc
  · exact h
  -- the table is read again, and decides how the instruction is executed
  refine ensures_get_bind.2 (ensures_ite.2 ⟨fun _ => ?_, fun harmed => ?_⟩)
  · exact (M.stepOver s pc h fun _ => hpc).mono fun _ _ ht => ht.1
  · exact M.step s pc h hpc (by simpa using harmed)

/-- The process is stepped over a breakpoint, and then resumed. -/
theorem continueExecution (s : Session σ) (h : I.holds s) :
    Ensures Session.continueExecution s fun _ t => I.holds t := by
  refine Ensures.bind_keeps (ensures_observe.2 h) fun _ t ht => ?_
  refine Ensures.bind_keeps (M.clearInternal t ht) fun _ u hu => ?_
  refine ensures_observe_bind.2 ?_
  rcases hpc : Tracee.pc u.process with e | pc
  · exact hu
  -- from anywhere the process can be let go and its stop answered
  have run : ∀ v, I.holds v →
      Ensures (resumeProcess >>= fun stop => Session.stopped stop) v fun _ w => I.holds w := by
    intro v hv
    exact (M.resume v hv).bind (fun stop w hw => M.stopped stop w hw) fun _ _ hw => hw
  refine ensures_get_bind.2 (ensures_ite.2 ⟨fun _ => ?_, fun _ => run u hu⟩)
  -- the instruction under a breakpoint comes first, and may stop the process itself
  refine (M.stepOver u pc hu fun _ => hpc).bind (fun stop v hv => ?_) fun _ _ hv => hv.1
  refine ensures_ite.2 ⟨fun _ => ?_, fun hstop => ?_⟩
  · exact M.stopped stop v hv.1
  · rw [Decidable.not_not.1 hstop] at hv
    exact run v hv.1

/-- One instruction is stepped, over a breakpoint or not. -/
theorem stepInstruction (s : Session σ) (h : I.holds s) :
    Ensures Session.stepInstruction s fun _ t => I.holds t := by
  refine Ensures.bind_keeps (ensures_observe.2 h) fun _ t ht => ?_
  refine Ensures.bind_keeps (M.clearInternal t ht) fun _ u hu => ?_
  exact (M.stepOnce u hu).bind (fun stop v hv => M.stopped stop v hv) fun _ _ hv => hv

/-- Each round of a run back resumes the process, and may step over the breakpoint at the return
address. -/
theorem runBack (ret callerSp : Addr) (fuel : Nat) (s : Session σ) (h : I.holds s) :
    Ensures (runBack ret callerSp fuel) s I.ran := by
  induction fuel generalizing s with
  | zero => exact ensures_diverge
  | succ fuel ih =>
    refine (M.resume s h).bind (fun stop t ht => ?_) fun _ _ ht => ht
    refine ensures_ite.2 ⟨fun hstop => ensures_pure.2 ((stopped_of_ne hstop).1 ht), fun hstop => ?_⟩
    rw [Decidable.not_not.1 hstop] at ht ⊢
    -- it stopped at a trap: either it is back, or another breakpoint ends the run
    refine (M.rewind t ht).bind (fun pc u hu => ?_) fun _ _ hu => hu.1
    refine ensures_ite.2 ⟨fun _ => ensures_pure.2 hu.1, fun hpc => ?_⟩
    rw [Decidable.not_not.1 hpc] at hu
    refine ensures_observe_bind.2 ?_
    rcases Tracee.registers u.process with e | regs
    · exact hu.1
    refine ensures_ite.2 ⟨fun _ => ensures_pure.2 hu.1, fun _ => ?_⟩
    -- it is back, but in an inner call
    refine (M.stepOver u ret hu.1 (hu.2 ret rfl)).bind (fun stop v hv => ?_) fun _ _ hv => hv.1
    refine ensures_ite.2 ⟨fun _ => ensures_pure.2 ?_, fun hstep => ?_⟩
    · by_cases htrap : stop = .trap .breakpoint
      · rw [htrap] at hv ⊢
        exact hv.2 rfl
      · exact (stopped_of_ne htrap).1 hv.1
    · rw [Decidable.not_not.1 hstep] at hv
      exact ih v hv.1

/-- After a run to a return address the breakpoint that was set for it is cleared. -/
theorem clearInternal_ran (outcome : Option Stop) (s : Session σ) (h : I.ran (.ok outcome) s)
    (halive : Tracee.isAlive s.process = true) :
    Ensures Session.clearInternal s (Outcome (I.ran (.ok outcome)) I.holds) := by
  have held : I.holds s → Ensures Session.clearInternal s (Outcome I.holds I.holds) :=
    fun hs => (M.clearInternal s hs).mono fun _ _ ht => outcome_same.2 ht
  rcases outcome with _ | stop
  · exact held h
  rcases stop with _ | sig | _ | _
  · exact held h
  · exact M.clearInternal_signalled s sig h
  -- a terminal stop excludes that the process is alive
  all_goals exact absurd (h.symm.trans halive) (by simp)

/-- The same if the process is gone. -/
theorem discardInternal_ran (outcome : Option Stop) (s : Session σ)
    (hdead : Tracee.isAlive s.process = false) :
    Ensures Session.discardInternal s (Outcome (I.ran (.ok outcome)) I.holds) := by
  refine (discardInternal s hdead).mono fun r t ht => ?_
  obtain ⟨holds, _, signalled⟩ := M.gone t ht
  rcases r with _ | _
  · exact holds
  rcases outcome with _ | stop
  · exact holds
  rcases stop with _ | sig | _ | _
  · exact holds
  · exact signalled sig
  all_goals exact ht

/-- Whatever ended a run back, its answer keeps the property. -/
theorem answerFor (outcome : Option Stop) (s : Session σ) (h : I.ran (.ok outcome) s) :
    Ensures (answerFor outcome) s fun _ t => I.holds t := by
  unfold Session.answerFor
  split
  · exact ensures_pure.2 h
  · refine Ensures.bind_keeps (ensures_observe.2 h) fun pc t ht => ?_
    exact ensures_get_bind.2 (ensures_pure.2 ht)
  · rename_i stop hstop
    refine (M.stopped_of_settled (fun h => hstop (h ▸ rfl)) s h).bind_keeps fun _ t ht => ?_
    exact ensures_pure.2 ht

/-- The breakpoint of a run is cleared of a process that is alive, and dropped for one that is gone. -/
theorem takeBack_ran (outcome : Option Stop) (s : Session σ) (h : I.ran (.ok outcome) s) :
    Ensures takeBack s (Outcome (I.ran (.ok outcome)) I.holds) :=
  ensures_get_bind.2 (ensures_ite.2 ⟨M.clearInternal_ran outcome s h, fun hdead =>
    M.discardInternal_ran outcome s (by simpa using hdead)⟩)

/-- A run to a return address sets its breakpoint, runs, and takes it back on every way out. -/
theorem runToReturn (fuel : Nat) (ret callerSp : Addr) (s : Session σ) (h : I.holds s) :
    Ensures (runToReturn fuel ret callerSp) s fun _ t => I.holds t := by
  have back : ∀ t, I.holds t → Ensures (Session.runBack ret callerSp fuel) t I.ran :=
    fun t ht => M.runBack ret callerSp fuel t ht
  refine ensures_runToReturn.2 ⟨fun _ => ?_, fun _ => ?_⟩
  · refine Ensures.bind_keeps (ensures_onDebuggee.2 (M.setInternal s s.index ret h))
      fun _ t ht => ?_
    refine (back t ht).bind (fun outcome u hu => ?_) fun _ _ hu => hu
    exact (M.takeBack_ran outcome u hu).bind (fun _ v hv => M.answerFor outcome v hv)
      fun _ _ hv => hv
  · exact (back s h).bind (fun outcome u hu => M.answerFor outcome u hu) fun _ _ hu => hu

/-- Decoding the next instruction changes nothing, so only what goes on behind it matters. -/
theorem instructionThen {onward : Registers → InstructionInfo → Task σ Feedback} (s : Session σ)
    (h : I.holds s)
    (honward : ∀ regs info t, I.holds t → Ensures (onward regs info) t fun _ u => I.holds u) :
    Ensures (instructionThen onward) s fun _ t => I.holds t := by
  refine Ensures.bind_keeps (ensures_observe.2 h) fun regs t ht => ?_
  refine Ensures.bind_keeps ((instructionAt_decodes regs.pc t).mono fun _ _ hu => hu.1 ▸ ht)
    fun info u hu => ?_
  refine (M.stepOnce u hu).bind (fun stop v hv => ?_) fun _ _ hv => hv
  refine ensures_ite.2 ⟨fun _ => M.stopped stop v hv, fun hstop => ?_⟩
  rw [Decidable.not_not.1 hstop] at hv
  exact honward regs info v hv

/-- Steps up to another line keep the property, by induction on the fuel. -/
theorem stepFrom (start : SourceLocation) (fuel : Nat) (s : Session σ) (h : I.holds s) :
    Ensures (stepFrom start fuel) s fun _ t => I.holds t := by
  -- the number of instructions bounds the run, so the session varies
  induction fuel generalizing s with
  | zero => exact ensures_diverge
  | succ fuel ih =>
    refine M.instructionThen s h fun regs info v hv => ?_
    refine Ensures.bind_keeps (ensures_observe.2 hv) fun pc w hw => ?_
    refine ensures_get_bind.2 ?_
    split
    · exact ensures_ite.2 ⟨fun _ => ensures_reading.2 hw, fun _ => ih w hw⟩
    refine ensures_ite.2 ⟨fun _ => ensures_reading.2 hw, fun _ => ?_⟩
    -- the call went into code without lines, which is run until it is back
    refine (M.runToReturn fuel _ _ w hw).bind_keeps fun feedback x hx => ?_
    split
    · exact ensures_pure.2 hx
    refine Ensures.bind_keeps (ensures_observe.2 hx) fun pc y hy => ?_
    refine ensures_get_bind.2 ?_
    split
    · exact ensures_ite.2 ⟨fun _ => ensures_reading.2 hy, fun _ => ih y hy⟩
    · exact ih y hy

/-- Steps over calls up to another line keep the property, by induction on the fuel. -/
theorem nextFrom (start : SourceLocation) (fuel : Nat) (s : Session σ) (h : I.holds s) :
    Ensures (nextFrom start fuel) s fun _ t => I.holds t := by
  induction fuel generalizing s with
  | zero => exact ensures_diverge
  | succ fuel ih =>
    refine M.instructionThen s h fun regs info v hv => ?_
    refine Ensures.bind_keeps (ensures_observe.2 hv) fun pc w hw => ?_
    refine ensures_ite.2 ⟨fun _ => ?_, fun _ => nextOnward_keeps start fuel ih w hw⟩
    refine (M.runToReturn fuel _ _ w hw).bind_keeps fun feedback x hx => ?_
    split
    · exact ensures_pure.2 hx
    · exact nextOnward_keeps start fuel ih x hx

/-- A command that steps by lines keeps the property if its steps from every line do. -/
theorem stepLineWith (from_ : SourceLocation → Task σ Feedback) (s : Session σ) (h : I.holds s)
    (hfrom : ∀ start t, I.holds t → Ensures (from_ start) t fun _ u => I.holds u) :
    Ensures (stepLineWith from_) s fun _ t => I.holds t := by
  refine Ensures.bind_keeps (ensures_observe.2 h) fun _ t ht => ?_
  refine Ensures.bind_keeps (M.clearInternal t ht) fun _ u hu => ?_
  refine Ensures.bind_keeps (ensures_observe.2 hu) fun pc v hv => ?_
  refine ensures_get_bind.2 ?_
  split
  · exact hfrom _ v hv
  · exact ensures_throw.2 hv

/-- A breakpoint is set at a line. -/
theorem setBreakpoint (file : String) (line : UInt64) (s : Session σ) (h : I.holds s) :
    Ensures (setBreakpoint file line) s fun _ t => I.holds t := by
  refine ensures_get_bind.2 ?_
  refine Ensures.bind_keeps (ensures_onDebuggee.2 (M.setUser s s.index file line h))
    fun b t ht => ?_
  refine ensures_get_bind.2 ?_
  exact ensures_pure.2 ht

/-- A breakpoint is set at the line of a function. -/
theorem setFunctionBreakpoint (name : String) (s : Session σ) (h : I.holds s) :
    Ensures (setFunctionBreakpoint name) s fun _ t => I.holds t := by
  refine ensures_get_bind.2 ?_
  dsimp only
  split
  · exact ensures_throw.2 h
  · refine ensures_lift_bind.2 ?_
    split
    · exact M.setBreakpoint _ _ s h
    · exact h

/-- One or all breakpoints of the operator are cleared. -/
theorem clearBreakpoint (target : ClearTarget) (s : Session σ) (h : I.holds s) :
    Ensures (clearBreakpoint target) s fun _ t => I.holds t := by
  rcases target with number | _
  · refine Ensures.bind_keeps (ensures_onDebuggee.2 ?_) fun b t ht => ensures_pure.2 ht
    rcases Debuggee.clearUser_apply number s.debuggee with hsame | ⟨addr, hclear⟩
    · rw [hsame]
      exact h
    · rw [hclear]
      exact M.clearAt s addr h
  · refine ensures_get_bind.2 ?_
    refine Ensures.bind_keeps (ensures_onDebuggee.2 ?_) fun b t ht => ensures_pure.2 ht
    exact M.clearKind s .user h

/-- A restart keeps the property if it holds of a fresh process without breakpoints. Between the
start of that process and the moment at which the table is emptied it need not hold. -/
theorem restart (s : Session σ)
    (failed : ∀ e q, Tracee.restart s.process = (.error e, q) →
      I.holds { s with debuggee := { s.debuggee with process := q } })
    (fresh : ∀ q, Tracee.restart s.process = (.ok (), q) →
      I.holds { s with pendingSignal := none, debuggee := ⟨q, []⟩ }) :
    Ensures Session.restart s fun _ t => I.holds t := by
  -- until the table is empty the property need not hold of the session itself
  refine Ensures.bind (R := fun r t => match r with
    | .ok _ => I.holds { t with pendingSignal := none, debuggee := ⟨t.process, []⟩ }
    | .error _ => I.holds t) (ensures_onDebuggee.2 ?_) (fun _ t ht => ?_) fun _ _ ht => ht
  · rw [Debuggee.onProcess_apply]
    rcases hr : Tracee.restart s.debuggee.process with ⟨e | _, q⟩
    · exact failed e q hr
    · exact fresh q hr
  refine ensures_get_bind.2 ?_
  -- the breakpoints are set again one by one, and failures are passed over
  refine Ensures.bind_keeps (K := I.holds) (ensures_modify.2 ht) fun _ u hu => ensures_get_bind.2 ?_
  refine Ensures.bind_keeps (K := I.holds)
    (Ensures.foldlM_keeps _ (fun n b v hv => ?_) _ 0 hu) fun n v hv => ?_
  · refine Ensures.tryCatch_keeps ?_ fun _ _ hw => ensures_pure.2 hw
    refine Ensures.bind_keeps (K := I.holds)
      (ensures_onDebuggee.2 (M.setUser v u.index b.file b.line hv)) fun _ w hw => ?_
    exact ensures_pure.2 hw
  · exact ensures_get_bind.2 (ensures_pure.2 hv)

end Maintained

/-- Every command except a restart keeps what its accesses to the process and the table keep,
however it ends. -/
theorem Maintained.handle (M : I.Maintained) (fuel : Nat) (c : Command) (hc : c ≠ .restart)
    (s : Session σ) (h : I.holds s) : Ensures (handle fuel c) s fun _ t => I.holds t := by
  cases c
  case setBreakpoint file line => exact M.setBreakpoint file line s h
  case setFunctionBreakpoint name => exact M.setFunctionBreakpoint name s h
  case clearBreakpoint target => exact M.clearBreakpoint target s h
  case resume => exact M.continueExecution s h
  case step => exact M.stepLineWith _ s h fun start t ht => M.stepFrom start fuel t ht
  case next => exact M.stepLineWith _ s h fun start t ht => M.nextFrom start fuel t ht
  case stepInstruction => exact M.stepInstruction s h
  case restart => exact absurd rfl hc
  all_goals exact (handle_reads fuel _ rfl s).mono fun _ _ ht => ht ▸ h

end Invariant

end SourceDebugger.Session
