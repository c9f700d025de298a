import SourceDebugger.Proofs.CpuProcess

/-!
# A process without side effects

A processor with two instructions, one that does nothing and one that ends the program, and a
process that executes them. What can be read and written is the memory with which it starts, and it
cannot be started again. It does what a process on its processor does, `NopProcess.view`, so it
keeps all rules for a process, `NopProcess.executes`.
-/

namespace SourceDebugger

/-- A process whose instructions do nothing. -/
structure NopProcess where
  /-- The registers. -/
  registers : Registers
  /-- The memory. -/
  memory : AddressSpace
  /-- Whether it was not seen to end. -/
  alive : Bool
  /-- There is no memory at the end of the address space. -/
  memory_last : memory Addr.last = none

namespace NopProcess

/-- What the instruction with this first byte does. -/
def execute (s : ProgramState Unit) : Completion Unit :=
  if s.memory s.pc = some 0x90 then .running (s.withPc (s.pc + (1 : UInt64)))
  else if s.memory s.pc = some 0xf4 then .exited 0
  else .exited 1

/-- The processor. Every instruction has one byte and none has operands in memory. -/
def cpu : Cpu Unit where
  length _ := 1
  Touches _ _ := False
  execute := execute
  local_ s t hregisters _ hmemory := by
    have hpc : t.pc = s.pc := congrArg Registers.pc hregisters
    have hbyte : t.memory t.pc = s.memory s.pc := by
      rw [hpc]
      exact hmemory s.pc (.inl rfl)
    refine ⟨rfl, fun _ => Iff.rfl, ?_⟩
    unfold execute
    rw [hbyte]
    split
    · refine ⟨?_, rfl, fun _ htouched => htouched.elim, fun _ _ => rfl⟩
      simp only [ProgramState.withPc, hregisters, hpc]
    · split <;> rfl

/-- No instruction has to do with another address than its own. -/
theorem not_disturbs (s : ProgramState Unit) (a : Addr) : ¬ cpu.Disturbs s a := by
  rintro ⟨-, htouches | ⟨i, hpos, hlt, -⟩⟩
  · exact htouches
  · exact absurd hlt (Nat.not_lt.2 hpos)

/-- The memory never changes. -/
theorem memory_of_step {s t : ProgramState Unit} {stop : Stop}
    (h : cpu.step s = (stop, some t)) : t.memory = s.memory :=
  funext fun a => Cpu.memory_of_step h (not_disturbs s a)

/-- An instruction that does not end the program is followed by the next one. -/
theorem pc_of_running {s t : ProgramState Unit} (h : cpu.step s = (.trap .singleStep, some t)) :
    s.memory s.pc = some 0x90 ∧ t.pc = s.pc + (1 : UInt64) := by
  rcases Cpu.step_cases cpu s with ⟨-, hs⟩ | ⟨t', -, hrun, hs⟩ | ⟨code, -, -, hs⟩ <;>
    rw [hs] at h
  · cases h
  · cases h
    change execute s = _ at hrun
    unfold execute at hrun
    split at hrun
    · rename_i hnop
      cases hrun
      exact ⟨hnop, ProgramState.pc_withPc _ _⟩
    · split at hrun <;> cases hrun
  · cases h

/-- How many instructions fit between an address and the end of the address space. -/
def room (pc : Addr) : Nat := UInt64.size - pc.val.toNat

/-- A program of this kind always stops. -/
theorem run_isSome {n : Nat} {s : ProgramState Unit} (hlast : s.memory Addr.last = none)
    (hn : room s.pc ≤ n) : (cpu.run n s).isSome := by
  induction n generalizing s with
  | zero =>
    have hlt := s.pc.val.toNat_lt
    simp only [room, UInt64.size] at hn
    omega
  | succ n ih =>
    rcases Cpu.step_cases cpu s with ⟨-, hs⟩ | ⟨t, -, -, hs⟩ | ⟨code, -, -, hs⟩
    · rw [Cpu.run_of_stop hs (by simp)]
      rfl
    · rw [Cpu.run_of_running hs]
      obtain ⟨hnop, hpc⟩ := pc_of_running hs
      have hmemory := memory_of_step hs
      apply ih (by rw [hmemory, hlast])
      -- the last address has no memory, so it has no such instruction
      have hne : s.pc ≠ Addr.last := by
        intro hend
        rw [hend, hlast] at hnop
        cases hnop
      simp only [room] at hn ⊢
      rw [hpc, Addr.toNat_add_one hne]
      omega
    · rw [Cpu.run_of_stop hs (by simp)]
      rfl

/-- The state of the program. -/
def state (p : NopProcess) : ProgramState Unit := ⟨p.registers, p.memory, ()⟩

/-- The process in another state; it is gone if there is none. -/
def become (p : NopProcess) : Option (ProgramState Unit) → NopProcess
  | some s => { p with registers := s.registers }
  | none => { p with alive := false }

/-- The process after a byte was stored where there was one. -/
def store (p : NopProcess) (addr : Addr) (byte : UInt8) (h : p.memory addr ≠ none) : NopProcess :=
  { p with
    memory := p.memory.store addr byte
    memory_last := by
      have hne : Addr.last ≠ addr := by
        rintro rfl
        exact h p.memory_last
      rw [AddressSpace.store_of_ne _ _ hne, p.memory_last] }

instance : Tracee NopProcess where
  pid _ := 1
  isAlive p := p.alive
  readMemory p addr count :=
    if p.alive then .ok (p.memory.bytesFrom addr count) else .error .processGone
  writeMemory addr data p :=
    match data with
    | [byte] =>
      if h : p.alive = true ∧ p.memory addr ≠ none then (.ok (), p.store addr byte h.2)
      else (.error .processGone, p)
    | _ => (.error .processGone, p)
  registers p := if p.alive then .ok p.registers else .error .processGone
  setRegisters regs p :=
    if p.alive then (.ok (), { p with registers := regs }) else (.error .processGone, p)
  singleStep p :=
    if p.alive then (.ok (cpu.step p.state).1, p.become (cpu.step p.state).2)
    else (.error .processGone, p)
  resume _ p :=
    if p.alive then
      (cpu.run (room p.registers.pc) p.state).map fun (stop, end_) => (.ok stop, p.become end_)
    else some (.error .processGone, p)
  restart p := (.error .processGone, p)
  kill p := (.ok (), { p with alive := false })

theorem memory_of_runsTo {s t : ProgramState Unit} {stop : Stop} {end_ : Option (ProgramState Unit)}
    (h : cpu.RunsTo s stop end_) (hend : end_ = some t) : t.memory = s.memory := by
  induction h with
  | stop hs _ =>
    rw [hend] at hs
    exact memory_of_step hs
  | next hs _ ih => rw [ih hend, memory_of_step hs]

/-! ### As a process on its processor -/

theorem execute_running {s t : ProgramState Unit} (h : execute s = .running t) :
    t.memory = s.memory := by
  unfold execute at h
  split at h
  · cases h
    rfl
  · split at h <;> cases h

instance : cpu.Terminating where
  bound s := room s.pc
  run_isSome _ hlast := run_isSome hlast (Nat.le_refl _)
  unmapped h ha := (congrFun (execute_running h) _).trans ha
  mapped h ha := fun ht => ha ((congrFun (execute_running h) _).symm.trans ht)

/-- The process, as one that is nothing but its program on the processor. -/
def onCpu (p : NopProcess) : CpuProcess cpu := ⟨p.state, p.alive, p.memory_last⟩

/-- The state of the program is all that changes when the process stops. -/
theorem onCpu_become (p : NopProcess) (end_ : Option (ProgramState Unit))
    (hmemory : ∀ t, end_ = some t → t.memory = p.memory) :
    p.onCpu.become end_ = (p.become end_).onCpu := by
  rcases end_ with _ | t
  · rfl
  · have hlast : t.memory Addr.last = none := by rw [hmemory t rfl, p.memory_last]
    rw [CpuProcess.become_some hlast]
    have hstate : (p.become (some t)).state = t := by
      show (⟨t.registers, p.memory, ()⟩ : ProgramState Unit) = t
      rw [← hmemory t rfl]
    simp only [onCpu, hstate]
    rfl

/-- It does the same. -/
theorem view : Tracee.View onCpu where
  isAlive _ := rfl
  readMemory _ _ _ := rfl
  registers _ := rfl
  writeMemory {p q addr data r} h := by
    rcases data with _ | ⟨byte, _ | _⟩
    · cases h
      rfl
    · simp only [Tracee.writeMemory] at h ⊢
      split at h <;> rename_i hboth <;> cases h
      · exact dif_pos hboth
      · exact dif_neg hboth
    · cases h
      rfl
  setRegisters {p q regs r} h := by
    simp only [Tracee.setRegisters] at h ⊢
    split at h <;> rename_i halive <;> cases h
    · exact if_pos halive
    · exact if_neg halive
  singleStep {p q r} h := by
    simp only [Tracee.singleStep] at h ⊢
    split at h <;> rename_i halive <;> cases h
    · rw [← onCpu_become _ _ fun t ht => memory_of_step (Prod.ext rfl ht)]
      exact if_pos halive
    · exact if_neg halive
  resume signal p := by
    by_cases halive : p.alive = true
    · refine (if_pos halive).trans ?_
      simp only [Tracee.resume, if_pos halive, Option.map_map]
      -- both run the same program
      refine Option.map_congr fun end_ hrun => ?_
      have hruns : cpu.RunsTo p.state end_.1 end_.2 := Cpu.runsTo_of_run hrun
      exact congrArg _ (p.onCpu_become end_.2 fun t => memory_of_runsTo hruns)
    · refine (if_neg halive).trans ?_
      simp only [Tracee.resume, if_neg halive]
      rfl
  restart h := by
    cases h
    rfl

instance : LawfulTracee NopProcess := view.lawful

theorem shows {p : NopProcess} (h : p.alive = true) :
    Shows (fun _ : NopProcess => ()) p p.state :=
  view.shows_iff.2 (CpuProcess.shows (p := p.onCpu) h)

/-- It executes its program on the processor. -/
theorem executes : Executes cpu fun _ : NopProcess => () := view.executes CpuProcess.executes

/-- Three instructions that do nothing, and one that ends the program. -/
def nops : NopProcess where
  registers := Registers.zero.setPc ⟨0x1000⟩
  memory a :=
    if a = ⟨0x1000⟩ ∨ a = ⟨0x1001⟩ ∨ a = ⟨0x1002⟩ then some 0x90
    else if a = ⟨0x1003⟩ then some 0xf4
    else none
  alive := true
  memory_last := by decide

end NopProcess

end SourceDebugger
