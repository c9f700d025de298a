import SourceDebugger.Proofs.Debuggee
import SourceDebugger.Proofs.Memory
import SourceDebugger.Proofs.Recording

/-!
# Processes that keep the rules

What the debugger relies on when it writes to a process and lets it go.

Processes can be seen as processes of another kind that do the same, `Tracee.View`; then they keep
the rules if those do, `Tracee.View.lawful`. A recorded process is seen as the process itself.
-/

namespace SourceDebugger

open Tracee in
/-- The control over a process does what it says: what is written is there, a failure changes
nothing in memory, and a process that ended is not alive. -/
class LawfulTracee (σ : Type) [Tracee σ] : Prop where
  /-- A byte that was stored is in memory, and no other byte has changed. -/
  memory_write {p q : σ} {addr : Addr} {byte : UInt8} :
    writeMemory addr [byte] p = (.ok (), q) → isAlive q = true →
      memory q = (memory p).store addr byte
  /-- A write that failed has changed nothing. -/
  memory_write_error {p q : σ} {addr : Addr} {data : List UInt8} {e : DebugError} :
    writeMemory addr data p = (.error e, q) → isAlive q = true → memory q = memory p
  /-- The registers are not in memory. -/
  memory_setRegisters {p q : σ} {regs : Registers} {r : Except DebugError Unit} :
    setRegisters regs p = (r, q) → isAlive q = true → memory q = memory p
  /-- Registers that were replaced are the new ones. -/
  registers_setRegisters {p q : σ} {regs : Registers} :
    setRegisters regs p = (.ok (), q) → isAlive q = true → registers q = .ok regs
  /-- Nothing but a restart brings a process back. -/
  alive_of_write {p q : σ} {addr : Addr} {data : List UInt8} {r : Except DebugError Unit} :
    writeMemory addr data p = (r, q) → isAlive q = true → isAlive p = true
  alive_of_setRegisters {p q : σ} {regs : Registers} {r : Except DebugError Unit} :
    setRegisters regs p = (r, q) → isAlive q = true → isAlive p = true
  alive_of_step {p q : σ} {r : Except DebugError Stop} :
    singleStep p = (r, q) → isAlive q = true → isAlive p = true
  alive_of_resume {p q : σ} {signal : Option Signal} {r : Except DebugError Stop} :
    resume signal p = some (r, q) → isAlive q = true → isAlive p = true
  /-- A process that ended is not alive. -/
  step_terminal {p q : σ} {stop : Stop} :
    singleStep p = (.ok stop, q) → stop.isTerminal = true → isAlive q = false
  resume_terminal {p q : σ} {signal : Option Signal} {stop : Stop} :
    resume signal p = some (.ok stop, q) → stop.isTerminal = true → isAlive q = false
  /-- A restart that failed leaves the memory as it was, or the process is gone. -/
  restart_error {p q : σ} {e : DebugError} :
    restart p = (.error e, q) → isAlive q = true → isAlive p = true ∧ memory q = memory p

namespace LawfulTracee

variable {σ : Type} [Tracee σ] [LawfulTracee σ]

theorem pc_setPc {p q : σ} {pc : Addr} (h : Tracee.setPc pc p = (.ok (), q))
    (halive : Tracee.isAlive q = true) : Tracee.pc q = .ok pc := by
  rw [Tracee.setPc_apply] at h
  rcases hregs : Tracee.registers p with _ | regs <;> rw [hregs] at h
  · cases h
  · simp only [Tracee.pc, registers_setRegisters h halive]
    exact congrArg Except.ok (Registers.pc_setPc regs pc)

/-- If a process ends while a breakpoint is lifted, it is not alive afterwards. -/
theorem withDisarmed_terminal {d d' : Debuggee σ} {addr : Addr} {stop : Stop}
    (h : Debuggee.withDisarmed addr Tracee.singleStep d = (.ok stop, d'))
    (hterminal : stop.isTerminal = true) : Tracee.isAlive d'.process = false := by
  rw [Debuggee.withDisarmed_apply] at h
  rcases hb : d.breakpoints.locate? addr with _ | b <;> rw [hb] at h
  · cases h
  simp only at h
  rcases hw : Tracee.writeMemory addr [b.saved] d.process with ⟨_ | _, p⟩ <;> rw [hw] at h
  · cases h
  simp only at h
  rcases hstep : Tracee.singleStep p with ⟨r, q⟩
  rw [hstep] at h
  simp only at h
  -- if it were alive after the step, the stop would not be terminal
  by_cases halive : Tracee.isAlive q = true
  · simp only [halive, if_true] at h
    rcases r with _ | stop'
    · cases h
    rcases hback : Tracee.writeMemory addr [trapByte] q with ⟨_ | _, _⟩ <;> rw [hback] at h
    · cases h
    · cases h
      exact absurd (step_terminal hstep hterminal) (by simp [halive])
  · simp only [halive, Bool.false_eq_true, if_false] at h
    cases h
    simpa using halive

/-- What sets or clears a breakpoint brings no process back. -/
theorem alive_of_arm {d : Debuggee σ} {addr : Addr} {file : String} {line : UInt64}
    {kind : BreakpointKind}
    (h : Tracee.isAlive (Debuggee.arm addr file line kind d).2.process = true) :
    Tracee.isAlive d.process = true := by
  rw [Debuggee.arm_apply] at h
  split at h
  · exact h
  rcases hread : Tracee.readExact d.process addr 1 with _ | bytes <;> rw [hread] at h
  · exact h
  rcases hw : Tracee.writeMemory addr [trapByte] d.process with ⟨_ | _, p⟩ <;> rw [hw] at h
  · exact alive_of_write hw h
  · exact alive_of_write hw h

theorem alive_of_clearAt {d : Debuggee σ} {addr : Addr}
    (h : Tracee.isAlive (Debuggee.clearAt addr d).2.process = true) :
    Tracee.isAlive d.process = true := by
  rw [Debuggee.clearAt_apply] at h
  rcases hb : d.breakpoints.locate? addr with _ | b <;> rw [hb] at h
  · exact h
  simp only at h
  rcases hw : Tracee.writeMemory addr [b.saved] d.process with ⟨_ | _, p⟩ <;> rw [hw] at h
  · exact alive_of_write hw h
  · exact alive_of_write hw h

end LawfulTracee

/-- Processes are seen as processes of another kind, which do the same. -/
structure Tracee.View {σ τ : Type} [Tracee σ] [Tracee τ] (f : σ → τ) : Prop where
  isAlive (p : σ) : Tracee.isAlive (f p) = Tracee.isAlive p
  readMemory (p : σ) (addr : Addr) (count : Nat) :
    Tracee.readMemory (f p) addr count = Tracee.readMemory p addr count
  registers (p : σ) : Tracee.registers (f p) = Tracee.registers p
  writeMemory {p q : σ} {addr : Addr} {data : List UInt8} {r : Except DebugError Unit} :
    Tracee.writeMemory addr data p = (r, q) → Tracee.writeMemory addr data (f p) = (r, f q)
  setRegisters {p q : σ} {regs : Registers} {r : Except DebugError Unit} :
    Tracee.setRegisters regs p = (r, q) → Tracee.setRegisters regs (f p) = (r, f q)
  singleStep {p q : σ} {r : Except DebugError Stop} :
    Tracee.singleStep p = (r, q) → Tracee.singleStep (f p) = (r, f q)
  resume (signal : Option Signal) (p : σ) : Tracee.resume signal (f p) =
    (Tracee.resume signal p).map fun (r, q) => (r, f q)
  restart {p q : σ} {r : Except DebugError Unit} :
    Tracee.restart p = (r, q) → Tracee.restart (f p) = (r, f q)

namespace Tracee.View

variable {σ τ : Type} [Tracee σ] [Tracee τ] {f : σ → τ} (view : Tracee.View f)
include view

theorem memory (p : σ) : Tracee.memory (f p) = Tracee.memory p := by
  funext a
  simp only [Tracee.memory, view.readMemory]

theorem resume_some {signal : Option Signal} {p q : σ} {r : Except DebugError Stop}
    (h : Tracee.resume signal p = some (r, q)) : Tracee.resume signal (f p) = some (r, f q) := by
  rw [view.resume, h]
  rfl

/-- Processes keep the rules if those do as which they are seen. -/
theorem lawful [LawfulTracee τ] : LawfulTracee σ where
  memory_write h halive := by
    rw [← view.memory, ← view.memory]
    exact LawfulTracee.memory_write (view.writeMemory h) ((view.isAlive _).trans halive)
  memory_write_error h halive := by
    rw [← view.memory, ← view.memory]
    exact LawfulTracee.memory_write_error (view.writeMemory h) ((view.isAlive _).trans halive)
  memory_setRegisters h halive := by
    rw [← view.memory, ← view.memory]
    exact LawfulTracee.memory_setRegisters (view.setRegisters h) ((view.isAlive _).trans halive)
  registers_setRegisters h halive := by
    rw [← view.registers]
    exact LawfulTracee.registers_setRegisters (view.setRegisters h)
      ((view.isAlive _).trans halive)
  alive_of_write h halive := by
    rw [← view.isAlive] at halive ⊢
    exact LawfulTracee.alive_of_write (view.writeMemory h) halive
  alive_of_setRegisters h halive := by
    rw [← view.isAlive] at halive ⊢
    exact LawfulTracee.alive_of_setRegisters (view.setRegisters h) halive
  alive_of_step h halive := by
    rw [← view.isAlive] at halive ⊢
    exact LawfulTracee.alive_of_step (view.singleStep h) halive
  alive_of_resume h halive := by
    rw [← view.isAlive] at halive ⊢
    exact LawfulTracee.alive_of_resume (view.resume_some h) halive
  step_terminal h hterminal := by
    rw [← view.isAlive]
    exact LawfulTracee.step_terminal (view.singleStep h) hterminal
  resume_terminal h hterminal := by
    rw [← view.isAlive]
    exact LawfulTracee.resume_terminal (view.resume_some h) hterminal
  restart_error h halive := by
    rw [← view.isAlive] at halive ⊢
    rw [← view.memory, ← view.memory]
    exact LawfulTracee.restart_error (view.restart h) halive

end Tracee.View

/-- What a recorded process does is what the process itself does. -/
theorem Recorded.of_record {σ α : Type} {deed : Except DebugError α → Deed} {x : Action σ α}
    {r q : Recorded σ} {a : Except DebugError α} (h : record deed x r = (a, q)) :
    x r.process = (a, q.process) := by
  cases h
  rfl

/-- It is seen as the process itself. -/
theorem Recorded.view {σ : Type} [Tracee σ] :
    Tracee.View (Recorded.process : Recorded σ → σ) where
  isAlive _ := rfl
  readMemory _ _ _ := rfl
  registers _ := rfl
  writeMemory := of_record
  setRegisters := of_record
  singleStep := of_record
  resume signal r := by
    rw [resume_apply]
    rcases Tracee.resume signal r.process with _ | _ <;> rfl
  restart := of_record

/-- A recorded process keeps the rules as the process itself does. -/
instance {σ : Type} [Tracee σ] [LawfulTracee σ] : LawfulTracee (Recorded σ) :=
  Recorded.view.lawful

end SourceDebugger
