import SourceDebugger.Proofs.LawfulTracee
import SourceDebugger.Proofs.Cpu

/-!
# Processes that execute a program

`Executes` ties the control over a process to a processor: the process is in a state of a program,
a single step is a step of the processor, and a process that is let go runs to the next trap or to
its end. Nothing else stops it.
-/

namespace SourceDebugger

variable {σ κ : Type} [Tracee σ]

/-- A process is alive and in a state of its program; `rest` is what the debugger cannot see of
it. -/
structure Shows (rest : σ → κ) (p : σ) (s : ProgramState κ) : Prop where
  alive : Tracee.isAlive p = true
  registers : Tracee.registers p = .ok s.registers
  memory : Tracee.memory p = s.memory
  rest : rest p = s.rest

/-- A process is in a state of its program, or it is gone if there is none. -/
def ComesTo (rest : σ → κ) : Option (ProgramState κ) → σ → Prop
  | some s, p => Shows rest p s
  | none, p => Tracee.isAlive p = false

/-- Every byte can be written at an address. -/
def Tracee.Writable (p : σ) (addr : Addr) : Prop :=
  ∀ byte, ∃ q, Tracee.writeMemory addr [byte] p = (.ok (), q)

open Tracee in
/-- What is written to the memory of a process that is alive goes to its memory, and nowhere
else. -/
structure Writes (rest : σ → κ) : Prop where
  /-- The registers of a process that is alive can be read. -/
  registers_ok {p : σ} : isAlive p = true → ∃ regs, registers p = .ok regs
  /-- To write to memory changes nothing else. -/
  registers_write {p q : σ} {addr : Addr} {byte : UInt8} {r : Except DebugError Unit} :
    writeMemory addr [byte] p = (r, q) → isAlive q = true →
      registers q = registers p ∧ rest q = rest p
  /-- The process does not end by that. -/
  alive_write {p q : σ} {addr : Addr} {byte : UInt8} :
    writeMemory addr [byte] p = (.ok (), q) → isAlive q = true
  /-- Where a byte was written, bytes can be written as long as the process is alive. -/
  writable_of_write {p q : σ} {addr : Addr} {byte : UInt8} :
    writeMemory addr [byte] p = (.ok (), q) → Writable q addr
  writable_write {p q : σ} {addr a : Addr} {byte : UInt8} {r : Except DebugError Unit} :
    writeMemory addr [byte] p = (r, q) → isAlive q = true → Writable p a → Writable q a

open Tracee in
/-- Processes execute their program on a processor. -/
structure Executes (cpu : Cpu κ) (rest : σ → κ) : Prop where
  /-- The registers of a process that is alive can be read. -/
  registers_ok {p : σ} : isAlive p = true → ∃ regs, registers p = .ok regs
  /-- They can be replaced, which changes nothing else. -/
  setRegisters_ok {p : σ} {s : ProgramState κ} (regs : Registers) : Shows rest p s →
    ∃ q, setRegisters regs p = (.ok (), q) ∧ Shows rest q { s with registers := regs }
  /-- To write to memory changes nothing else. -/
  registers_write {p q : σ} {addr : Addr} {byte : UInt8} {r : Except DebugError Unit} :
    writeMemory addr [byte] p = (r, q) → isAlive q = true →
      registers q = registers p ∧ rest q = rest p
  /-- The process does not end by that. -/
  alive_write {p q : σ} {addr : Addr} {byte : UInt8} :
    writeMemory addr [byte] p = (.ok (), q) → isAlive q = true
  /-- A single step is a step of the processor. -/
  singleStep {p : σ} {s : ProgramState κ} : Shows rest p s →
    ∃ q, Tracee.singleStep p = (.ok (cpu.step s).1, q) ∧ ComesTo rest (cpu.step s).2 q
  /-- A process that stops after it was let go did so as the processor says. -/
  resume {p q : σ} {s : ProgramState κ} {r : Except DebugError Stop} : Shows rest p s →
    Tracee.resume none p = some (r, q) →
    ∃ stop end_, cpu.RunsTo s stop end_ ∧ r = .ok stop ∧ ComesTo rest end_ q
  /-- It stops if the processor says so. -/
  resume_of_runsTo {p : σ} {s : ProgramState κ} {stop : Stop} {end_ : Option (ProgramState κ)} :
    Shows rest p s → cpu.RunsTo s stop end_ →
    ∃ q, Tracee.resume none p = some (.ok stop, q) ∧ ComesTo rest end_ q
  /-- There is no memory at the end of the address space. -/
  last {p : σ} : isAlive p = true → memory p Addr.last = none
  /-- Where a byte was written, bytes can be written as long as the process is alive. -/
  writable_of_write {p q : σ} {addr : Addr} {byte : UInt8} :
    writeMemory addr [byte] p = (.ok (), q) → Writable q addr
  writable_write {p q : σ} {addr a : Addr} {byte : UInt8} {r : Except DebugError Unit} :
    writeMemory addr [byte] p = (r, q) → isAlive q = true → Writable p a → Writable q a
  writable_setRegisters {p q : σ} {regs : Registers} {r : Except DebugError Unit} {a : Addr} :
    setRegisters regs p = (r, q) → isAlive q = true → Writable p a → Writable q a
  writable_step {p q : σ} {r : Except DebugError Stop} {a : Addr} :
    Tracee.singleStep p = (r, q) → isAlive q = true → Writable p a → Writable q a
  writable_resume {p q : σ} {signal : Option Signal} {r : Except DebugError Stop} {a : Addr} :
    Tracee.resume signal p = some (r, q) → isAlive q = true → Writable p a → Writable q a
  writable_restart {p q : σ} {e : DebugError} {a : Addr} :
    restart p = (.error e, q) → isAlive q = true → Writable p a → Writable q a

namespace Shows

variable {rest : σ → κ} {p : σ} {s t : ProgramState κ}

/-- A process is in one state. -/
theorem unique (hs : Shows rest p s) (ht : Shows rest p t) : s = t := by
  obtain ⟨sregs, smem, srest⟩ := s
  obtain ⟨tregs, tmem, trest⟩ := t
  have hregisters := hs.registers.symm.trans ht.registers
  have hmemory := hs.memory.symm.trans ht.memory
  have hrest := hs.rest.symm.trans ht.rest
  -- what a process shows determines all parts of the state
  cases hregisters
  cases hmemory
  cases hrest
  rfl

theorem pc (h : Shows rest p s) : Tracee.pc p = .ok s.pc := by
  simp only [Tracee.pc, h.registers]
  rfl

end Shows

namespace Writes

variable {rest : σ → κ} (host : Writes rest) {p q : σ} {s : ProgramState κ}
include host

/-- A process that is alive is in some state. -/
theorem exists_shows (h : Tracee.isAlive p = true) : ∃ s, Shows rest p s := by
  obtain ⟨regs, hregs⟩ := host.registers_ok h
  exact ⟨⟨regs, Tracee.memory p, rest p⟩, h, hregs, rfl, rfl⟩

variable [LawfulTracee σ]

/-- The state after a byte was written. -/
theorem shows_write (h : Shows rest p s) {addr : Addr} {byte : UInt8}
    (hw : Tracee.writeMemory addr [byte] p = (.ok (), q)) :
    Shows rest q (s.store addr byte) := by
  have halive := host.alive_write hw
  obtain ⟨hregisters, hrest⟩ := host.registers_write hw halive
  refine ⟨halive, hregisters.trans h.registers, ?_, hrest.trans h.rest⟩
  rw [LawfulTracee.memory_write hw halive, h.memory, ProgramState.memory_store]

/-- The state after a byte could not be written. -/
theorem shows_write_error (h : Shows rest p s) {addr : Addr} {byte : UInt8} {e : DebugError}
    (hw : Tracee.writeMemory addr [byte] p = (.error e, q)) (halive : Tracee.isAlive q = true) :
    Shows rest q s := by
  obtain ⟨hregisters, hrest⟩ := host.registers_write hw halive
  refine ⟨halive, hregisters.trans h.registers, ?_, hrest.trans h.rest⟩
  rw [LawfulTracee.memory_write_error hw halive, h.memory]

end Writes

namespace Executes

variable {cpu : Cpu κ} {rest : σ → κ} (host : Executes cpu rest)
include host

/-- What is written to a process that executes its program goes to its memory. -/
theorem writes : Writes rest where
  registers_ok := host.registers_ok
  registers_write := host.registers_write
  alive_write := host.alive_write
  writable_of_write := host.writable_of_write
  writable_write := host.writable_write

/-- A process that is alive is in some state. -/
theorem exists_shows {p : σ} (h : Tracee.isAlive p = true) : ∃ s, Shows rest p s :=
  host.writes.exists_shows h

end Executes

namespace Tracee.View

variable {τ : Type} [Tracee τ] {f : σ → τ} (view : Tracee.View f) {rest : τ → κ} {p q : σ}
include view

theorem shows_iff {s : ProgramState κ} : Shows (rest ∘ f) p s ↔ Shows rest (f p) s := by
  constructor
  · intro h
    exact ⟨(view.isAlive p).trans h.alive, (view.registers p).trans h.registers,
      (view.memory p).trans h.memory, h.rest⟩
  · intro h
    exact ⟨(view.isAlive p).symm.trans h.alive, (view.registers p).symm.trans h.registers,
      (view.memory p).symm.trans h.memory, h.rest⟩

theorem comesTo {end_ : Option (ProgramState κ)} (h : ComesTo rest end_ (f p)) :
    ComesTo (rest ∘ f) end_ p := by
  rcases end_ with _ | s
  · exact (view.isAlive p).symm.trans h
  · exact view.shows_iff.2 h

theorem writable_iff {addr : Addr} : Tracee.Writable (f p) addr ↔ Tracee.Writable p addr := by
  refine forall_congr' fun byte => ⟨?_, fun ⟨q, hq⟩ => ⟨f q, view.writeMemory hq⟩⟩
  rintro ⟨q', hq'⟩
  rcases hw : Tracee.writeMemory addr [byte] p with ⟨r, q⟩
  cases (view.writeMemory hw).symm.trans hq'
  exact ⟨q, rfl⟩

/-- Processes execute their program on the processor on which those do as which they are seen. -/
theorem executes {cpu : Cpu κ} (host : Executes cpu rest) : Executes cpu (rest ∘ f) where
  registers_ok {p} h := by
    rw [← view.registers]
    exact host.registers_ok ((view.isAlive p).trans h)
  setRegisters_ok {p s} regs hs := by
    obtain ⟨q', hq', hshows⟩ := host.setRegisters_ok regs (view.shows_iff.1 hs)
    rcases hset : Tracee.setRegisters regs p with ⟨r, q⟩
    cases (view.setRegisters hset).symm.trans hq'
    exact ⟨q, rfl, view.shows_iff.2 hshows⟩
  registers_write h halive := by
    rw [← view.registers, ← view.registers]
    exact host.registers_write (view.writeMemory h) ((view.isAlive _).trans halive)
  alive_write h := (view.isAlive _).symm.trans (host.alive_write (view.writeMemory h))
  singleStep {p s} hs := by
    obtain ⟨q', hq', hcomes⟩ := host.singleStep (view.shows_iff.1 hs)
    rcases hstep : Tracee.singleStep p with ⟨r, q⟩
    cases (view.singleStep hstep).symm.trans hq'
    exact ⟨q, rfl, view.comesTo hcomes⟩
  resume hs h := by
    obtain ⟨stop, end_, hrun, hr, hcomes⟩ :=
      host.resume (view.shows_iff.1 hs) (view.resume_some h)
    exact ⟨stop, end_, hrun, hr, view.comesTo hcomes⟩
  resume_of_runsTo {p s stop end_} hs hrun := by
    obtain ⟨q', hq', hcomes⟩ := host.resume_of_runsTo (view.shows_iff.1 hs) hrun
    rw [view.resume] at hq'
    obtain ⟨⟨r, q⟩, hresume, hend⟩ := Option.map_eq_some_iff.1 hq'
    cases hend
    exact ⟨q, hresume, view.comesTo hcomes⟩
  last {p} h := by
    rw [← view.memory]
    exact host.last ((view.isAlive p).trans h)
  writable_of_write h := view.writable_iff.1 (host.writable_of_write (view.writeMemory h))
  writable_write h halive hw := view.writable_iff.1 (host.writable_write (view.writeMemory h)
    ((view.isAlive _).trans halive) (view.writable_iff.2 hw))
  writable_setRegisters h halive hw := view.writable_iff.1 (host.writable_setRegisters
    (view.setRegisters h) ((view.isAlive _).trans halive) (view.writable_iff.2 hw))
  writable_step h halive hw := view.writable_iff.1 (host.writable_step
    (view.singleStep h) ((view.isAlive _).trans halive) (view.writable_iff.2 hw))
  writable_resume h halive hw := view.writable_iff.1 (host.writable_resume
    (view.resume_some h) ((view.isAlive _).trans halive) (view.writable_iff.2 hw))
  writable_restart h halive hw := view.writable_iff.1 (host.writable_restart
    (view.restart h) ((view.isAlive _).trans halive) (view.writable_iff.2 hw))

end Tracee.View

end SourceDebugger
