import SourceDebugger.Machine.Execute
import SourceDebugger.Proofs.Host

/-!
# Processes on a processor

A process that is nothing but a program on a processor: what the debugger can see and change is the
state of the program. It keeps all rules for a process, `CpuProcess.executes`, if the processor ends
every program after some time and leaves addresses without memory alone.

`CallCpu.cpu` is such a processor. It has a stack, with instructions that call a function and return
from it.
-/

namespace SourceDebugger

variable {κ : Type}

/-- A processor on which every program ends, and which gets no memory from the system. -/
class Cpu.Terminating (cpu : Cpu κ) where
  /-- After so many instructions a program has trapped or ended. -/
  bound : ProgramState κ → Nat
  /-- It has, if there is no memory at the end of the address space. -/
  run_isSome (s : ProgramState κ) : s.memory Addr.last = none → (cpu.run (bound s) s).isSome
  /-- An address without memory stays one. -/
  unmapped {s t : ProgramState κ} {a : Addr} : cpu.execute s = .running t → s.memory a = none →
    t.memory a = none
  /-- And one with memory stays one. -/
  mapped {s t : ProgramState κ} {a : Addr} : cpu.execute s = .running t → s.memory a ≠ none →
    t.memory a ≠ none

/-- A process that executes a program on a processor. -/
structure CpuProcess (cpu : Cpu κ) where
  /-- The state of the program. -/
  state : ProgramState κ
  /-- Whether it was not seen to end. -/
  alive : Bool
  /-- There is no memory at the end of the address space. -/
  memory_last : state.memory Addr.last = none

namespace CpuProcess

variable {cpu : Cpu κ}

/-- The process in another state; it is gone if there is none. -/
def become (p : CpuProcess cpu) : Option (ProgramState κ) → CpuProcess cpu
  | some s =>
    if h : s.memory Addr.last = none then { p with state := s, memory_last := h }
    else { p with alive := false }
  | none => { p with alive := false }

/-- The process after a byte was stored where there was one. -/
def store (p : CpuProcess cpu) (addr : Addr) (byte : UInt8) (h : p.state.memory addr ≠ none) :
    CpuProcess cpu :=
  { p with
    state := p.state.store addr byte
    memory_last := by
      have hne : Addr.last ≠ addr := by
        rintro rfl
        exact h p.memory_last
      rw [ProgramState.memory_store, AddressSpace.store_of_ne _ _ hne, p.memory_last] }

/-- The process with other registers. -/
def withRegisters (p : CpuProcess cpu) (registers : Registers) : CpuProcess cpu :=
  { p with state := { p.state with registers }, memory_last := p.memory_last }

instance [cpu.Terminating] : Tracee (CpuProcess cpu) where
  pid _ := 1
  isAlive p := p.alive
  readMemory p addr count :=
    if p.alive then .ok (p.state.memory.bytesFrom addr count) else .error .processGone
  writeMemory addr data p :=
    match data with
    | [byte] =>
      if h : p.alive = true ∧ p.state.memory addr ≠ none then (.ok (), p.store addr byte h.2)
      else (.error .processGone, p)
    | _ => (.error .processGone, p)
  registers p := if p.alive then .ok p.state.registers else .error .processGone
  setRegisters registers p :=
    if p.alive then (.ok (), p.withRegisters registers) else (.error .processGone, p)
  singleStep p :=
    if p.alive then (.ok (cpu.step p.state).1, p.become (cpu.step p.state).2)
    else (.error .processGone, p)
  resume _ p :=
    if p.alive then
      (cpu.run (Cpu.Terminating.bound cpu p.state) p.state).map fun (stop, end_) =>
        (.ok stop, p.become end_)
    else some (.error .processGone, p)
  restart p := (.error .processGone, p)
  kill p := (.ok (), { p with alive := false })

section Accesses

variable [cpu.Terminating] {p q : CpuProcess cpu}

/-- The debugger sees the memory of the program. -/
theorem memory_eq (h : p.alive = true) : Tracee.memory p = p.state.memory := by
  funext a
  simp only [Tracee.memory, Tracee.readMemory, h, if_true, AddressSpace.bytesFrom]
  rcases p.state.memory a with _ | byte <;> rfl

/-- What the debugger cannot see of a process is what its program has besides. -/
theorem shows (h : p.alive = true) : Shows (·.state.rest) p p.state where
  alive := h
  registers := if_pos h
  memory := memory_eq h
  rest := rfl

/-- A process shows no other state than its own. -/
theorem state_of_shows {s : ProgramState κ} (h : Shows (·.state.rest) p s) : s = p.state :=
  h.unique (shows h.alive)

/-- One byte can be stored where there is memory. All else is refused and changes nothing. -/
theorem writeMemory_cases {addr : Addr} {data : List UInt8} {r : Except DebugError Unit}
    (h : Tracee.writeMemory addr data p = (r, q)) :
    (∃ byte, ∃ hbyte : p.state.memory addr ≠ none, data = [byte] ∧ p.alive = true ∧ r = .ok () ∧
      q = p.store addr byte hbyte) ∨ r = .error .processGone ∧ q = p := by
  simp only [Tracee.writeMemory] at h
  split at h
  · split at h
    · rename_i byte hboth
      cases h
      exact .inl ⟨byte, hboth.2, rfl, hboth.1, rfl, rfl⟩
    · cases h
      exact .inr ⟨rfl, rfl⟩
  · cases h
    exact .inr ⟨rfl, rfl⟩

/-- The registers are replaced while the process is alive. -/
theorem setRegisters_cases {regs : Registers} {r : Except DebugError Unit}
    (h : Tracee.setRegisters regs p = (r, q)) :
    (p.alive = true ∧ r = .ok () ∧ q = p.withRegisters regs) ∨
      r = .error .processGone ∧ q = p := by
  simp only [Tracee.setRegisters] at h
  split at h
  · rename_i halive
    cases h
    exact .inl ⟨halive, rfl, rfl⟩
  · cases h
    exact .inr ⟨rfl, rfl⟩

/-- A step is what the processor does in the state of the program. -/
theorem singleStep_cases {r : Except DebugError Stop} (h : Tracee.singleStep p = (r, q)) :
    (p.alive = true ∧ r = .ok (cpu.step p.state).1 ∧ q = p.become (cpu.step p.state).2) ∨
      r = .error .processGone ∧ q = p ∧ p.alive = false := by
  simp only [Tracee.singleStep] at h
  split at h
  · rename_i halive
    cases h
    exact .inl ⟨halive, rfl, rfl⟩
  · rename_i hdead
    cases h
    exact .inr ⟨rfl, rfl, by simpa using hdead⟩

/-- A resume runs the program up to a stop, or is refused if the process is gone. -/
theorem resume_cases {signal : Option Signal} {r : Except DebugError Stop}
    (h : Tracee.resume signal p = some (r, q)) :
    (∃ stop end_, p.alive = true ∧ cpu.RunsTo p.state stop end_ ∧ r = .ok stop ∧
      q = p.become end_) ∨ r = .error .processGone ∧ q = p ∧ p.alive = false := by
  simp only [Tracee.resume] at h
  split at h
  · rename_i halive
    rcases hrun : cpu.run (Cpu.Terminating.bound cpu p.state) p.state with _ | ⟨stop, end_⟩
    · simp [hrun] at h
    · rw [hrun] at h
      cases h
      exact .inl ⟨stop, end_, halive, Cpu.runsTo_of_run hrun, rfl, rfl⟩
  · rename_i hdead
    cases h
    exact .inr ⟨rfl, rfl, by simpa using hdead⟩

/-- Where there is memory stays the same while a program runs. -/
theorem memory_step {s t : ProgramState κ} {stop : Stop} (h : cpu.step s = (stop, some t))
    (a : Addr) : t.memory a = none ↔ s.memory a = none := by
  rcases Cpu.step_cases cpu s with ⟨-, hs⟩ | ⟨t', -, hrun, hs⟩ | ⟨code, -, -, hs⟩ <;>
    cases hs.symm.trans h
  · exact Iff.rfl
  · exact ⟨fun ht => Classical.not_not.1 fun hs => Cpu.Terminating.mapped hrun hs ht,
      Cpu.Terminating.unmapped hrun⟩

/-- Where there is memory stays the same up to the next stop. -/
theorem memory_runsTo {s t : ProgramState κ} {stop : Stop} {end_ : Option (ProgramState κ)}
    (h : cpu.RunsTo s stop end_) (hend : end_ = some t) (a : Addr) :
    t.memory a = none ↔ s.memory a = none := by
  induction h with
  | stop hs _ =>
    rw [hend] at hs
    exact memory_step hs a
  | next hs _ ih => exact (ih hend).trans (memory_step hs a)

omit [cpu.Terminating] in
/-- A state that leaves the last address free is taken over as it is. -/
theorem become_some {s : ProgramState κ} (h : s.memory Addr.last = none) :
    p.become (some s) = { p with state := s, memory_last := h } := dif_pos h

/-- What becomes of a process shows the state that its program came to, if that kept the places of
memory. -/
theorem comesTo (h : p.alive = true) (end_ : Option (ProgramState κ))
    (hmemory : ∀ t, end_ = some t → ∀ a, t.memory a = none ↔ p.state.memory a = none) :
    ComesTo (·.state.rest) end_ (p.become end_) := by
  rcases end_ with _ | t
  · rfl
  · rw [become_some ((hmemory t rfl Addr.last).2 p.memory_last)]
    exact shows (p := { p with state := t, memory_last := _ }) h

/-- Where something can be written depends on the memory alone. -/
theorem writable_iff {addr : Addr} (h : p.alive = true) :
    Tracee.Writable p addr ↔ p.state.memory addr ≠ none := by
  constructor
  · intro hw
    obtain ⟨q, hq⟩ := hw 0
    rcases writeMemory_cases hq with ⟨_, hbyte, -⟩ | ⟨hr, -⟩
    · exact hbyte
    · cases hr
  · intro hbyte byte
    exact ⟨p.store addr byte hbyte, dif_pos ⟨h, hbyte⟩⟩

/-- What was writable is writable, unless there is less memory. -/
theorem writable_of_memory {addr : Addr} (hq : q.alive = true) (hp : p.alive = true)
    (hmemory : p.state.memory addr ≠ none → q.state.memory addr ≠ none)
    (h : Tracee.Writable p addr) : Tracee.Writable q addr :=
  (writable_iff hq).2 (hmemory ((writable_iff hp).1 h))

/-- A process that is still there when it stops can be written to where it could before. -/
theorem writable_become {addr : Addr} {end_ : Option (ProgramState κ)} (hp : p.alive = true)
    (halive : (p.become end_).alive = true)
    (hmemory : ∀ t, end_ = some t → ∀ a, t.memory a = none ↔ p.state.memory a = none)
    (h : Tracee.Writable p addr) : Tracee.Writable (p.become end_) addr := by
  rcases end_ with _ | t
  · cases halive
  · refine writable_of_memory halive hp (fun hbyte => ?_) h
    rw [become_some ((hmemory t rfl Addr.last).2 p.memory_last)]
    exact fun hnone => hbyte ((hmemory t rfl addr).1 hnone)

end Accesses

variable [cpu.Terminating]

instance : LawfulTracee (CpuProcess cpu) where
  memory_write {p q addr byte} h halive := by
    rcases writeMemory_cases h with ⟨byte', hbyte, hdata, hp, -, rfl⟩ | ⟨hr, -⟩
    · cases hdata
      rw [memory_eq halive, memory_eq hp]
      rfl
    · cases hr
  memory_write_error h _ := by
    rcases writeMemory_cases h with ⟨_, _, _, _, hr, -⟩ | ⟨-, rfl⟩
    · cases hr
    · rfl
  memory_setRegisters h halive := by
    rcases setRegisters_cases h with ⟨hp, -, rfl⟩ | ⟨-, rfl⟩
    · rw [memory_eq halive, memory_eq hp]
      rfl
    · rfl
  registers_setRegisters h halive := by
    rcases setRegisters_cases h with ⟨-, -, rfl⟩ | ⟨hr, -⟩
    · exact if_pos halive
    · cases hr
  alive_of_write h halive := by
    rcases writeMemory_cases h with ⟨_, _, _, hp, -⟩ | ⟨-, rfl⟩
    · exact hp
    · exact halive
  alive_of_setRegisters h halive := by
    rcases setRegisters_cases h with ⟨hp, -⟩ | ⟨-, rfl⟩
    · exact hp
    · exact halive
  alive_of_step h halive := by
    rcases singleStep_cases h with ⟨hp, -⟩ | ⟨-, rfl, -⟩
    · exact hp
    · exact halive
  alive_of_resume h halive := by
    rcases resume_cases h with ⟨_, _, hp, -⟩ | ⟨-, rfl, -⟩
    · exact hp
    · exact halive
  step_terminal {p q stop} h hterminal := by
    rcases singleStep_cases h with ⟨-, hr, rfl⟩ | ⟨hr, -⟩
    · rcases Cpu.step_cases cpu p.state with ⟨-, hs⟩ | ⟨t, -, -, hs⟩ | ⟨code, -, -, hs⟩ <;>
        rw [hs] at hr ⊢ <;> cases hr
      · cases hterminal
      · cases hterminal
      · rfl
    · cases hr
  resume_terminal h hterminal := by
    rcases resume_cases h with ⟨stop, end_, -, hrun, hr, rfl⟩ | ⟨hr, -⟩
    · cases hr
      rcases hrun.cases with ⟨t, rfl, -⟩ | ⟨code, rfl, rfl⟩
      · cases hterminal
      · rfl
    · cases hr
  restart_error h halive := by
    cases h
    exact ⟨halive, rfl⟩

/-- It executes its program on the processor. -/
theorem executes : Executes cpu fun p : CpuProcess cpu => p.state.rest where
  registers_ok {p} h := ⟨p.state.registers, if_pos h⟩
  setRegisters_ok {p s} regs hs := by
    have hp : p.alive = true := hs.alive
    refine ⟨p.withRegisters regs, if_pos hp, ?_⟩
    rw [state_of_shows hs]
    exact shows (p := p.withRegisters regs) hp
  registers_write h _ := by
    rcases writeMemory_cases h with ⟨_, _, -, -, -, rfl⟩ | ⟨-, rfl⟩ <;> exact ⟨rfl, rfl⟩
  alive_write h := by
    rcases writeMemory_cases h with ⟨_, _, -, hp, -, rfl⟩ | ⟨hr, -⟩
    · exact hp
    · cases hr
  singleStep {p s} hs := by
    have hp : p.alive = true := hs.alive
    rw [state_of_shows hs]
    refine ⟨p.become (cpu.step p.state).2, if_pos hp, comesTo hp _ fun t ht a => ?_⟩
    exact memory_step (Prod.ext rfl ht) a
  resume {p q s r} hs h := by
    rw [state_of_shows hs]
    rcases resume_cases h with ⟨stop, end_, hp, hrun, hr, rfl⟩ | ⟨-, -, hdead⟩
    · exact ⟨stop, end_, hrun, hr, comesTo hp _ fun t ht a => memory_runsTo hrun ht a⟩
    · exact absurd (hdead.symm.trans hs.alive) (by simp)
  resume_of_runsTo {p s stop end_} hs h := by
    have hp : p.alive = true := hs.alive
    rw [state_of_shows hs] at h
    have hends : (cpu.run _ p.state).isSome := Cpu.Terminating.run_isSome p.state p.memory_last
    obtain ⟨⟨stop', end'⟩, hrun⟩ := Option.isSome_iff_exists.1 hends
    obtain ⟨rfl, rfl⟩ := h.unique (Cpu.runsTo_of_run hrun)
    refine ⟨p.become end_, ?_, comesTo hp _ fun t ht a => memory_runsTo h ht a⟩
    show (if p.alive then _ else _) = _
    rw [if_pos hp, hrun]
    rfl
  last {p} h := by rw [memory_eq h, p.memory_last]
  writable_of_write {p q addr byte} h := by
    rcases writeMemory_cases h with ⟨byte', hbyte, hdata, hp, -, rfl⟩ | ⟨hr, -⟩
    · apply (writable_iff (p := p.store addr byte' hbyte) hp).2
      simp [store]
    · cases hr
  writable_write {p q addr a byte r} h halive hw := by
    rcases writeMemory_cases h with ⟨byte', hbyte, -, hp, -, rfl⟩ | ⟨-, rfl⟩
    · refine writable_of_memory halive hp (fun ha => ?_) hw
      by_cases haddr : a = addr
      · simp [store, haddr]
      · simpa [store, AddressSpace.store_of_ne _ _ haddr] using ha
    · exact hw
  writable_setRegisters h halive hw := by
    rcases setRegisters_cases h with ⟨hp, -, rfl⟩ | ⟨-, rfl⟩
    · exact writable_of_memory halive hp id hw
    · exact hw
  writable_step h halive hw := by
    rcases singleStep_cases h with ⟨hp, -, rfl⟩ | ⟨-, rfl, -⟩
    · exact writable_become hp halive (fun t ht a => memory_step (Prod.ext rfl ht) a) hw
    · exact hw
  writable_resume h halive hw := by
    rcases resume_cases h with ⟨stop, end_, hp, hrun, -, rfl⟩ | ⟨-, rfl, -⟩
    · exact writable_become hp halive (fun t ht a => memory_runsTo hrun ht a) hw
    · exact hw
  writable_restart h _ hw := by
    cases h
    exact hw

end CpuProcess

/-! ### A processor with a stack -/

namespace AddressSpace

/-- The place of an address in the word that starts at another one, if it lies in it. -/
def InWord (word a : Addr) : Prop := (a.val - word.val).toNat < wordBytes

instance (word a : Addr) : Decidable (InWord word a) := inferInstanceAs (Decidable (_ < _))

/-- The memory with another word; what would be stored where there is no memory is lost. -/
def storeWord (m : AddressSpace) (word : Addr) (value : UInt64) : AddressSpace := fun a =>
  if InWord word a ∧ m a ≠ none then
    (toLittleEndian wordBytes value.toNat)[(a.val - word.val).toNat]?
  else m a

/-- The bytes at some distances from an address; there is a zero where there is no memory. -/
def bytesAt (m : AddressSpace) (addr : Addr) (distances : List Nat) : List UInt8 :=
  distances.map fun i => (m (addr + UInt64.ofNat i)).getD 0

/-- The word at an address. -/
def word (m : AddressSpace) (addr : Addr) : UInt64 :=
  UInt64.ofNat (littleEndian (m.bytesAt addr (List.range wordBytes)))

/-- A word that is stored changes no byte outside of it. -/
theorem storeWord_of_not_inWord {m : AddressSpace} {word a : Addr} {value : UInt64}
    (h : ¬ InWord word a) : m.storeWord word value a = m a :=
  if_neg fun hboth => h hboth.1

/-- A word that is stored makes no memory, and takes none away. -/
theorem storeWord_eq_none {m : AddressSpace} {word a : Addr} {value : UInt64} :
    m.storeWord word value a = none ↔ m a = none := by
  unfold storeWord
  split
  · rename_i hboth
    refine ⟨fun hnone => ?_, fun hnone => absurd hnone hboth.2⟩
    have hlt : (a.val - word.val).toNat < (toLittleEndian wordBytes value.toNat).length := hboth.1
    rw [List.getElem?_eq_getElem hlt] at hnone
    cases hnone
  · exact Iff.rfl

/-- A byte behind the storing of a word depends on the byte before it alone. -/
theorem storeWord_congr {m n : AddressSpace} {word a : Addr} {value : UInt64} (h : m a = n a) :
    m.storeWord word value a = n.storeWord word value a := by
  simp only [storeWord, h]

/-- Bytes are the same in two memories that agree at their addresses. -/
theorem bytesAt_congr {m n : AddressSpace} {addr : Addr} {distances : List Nat}
    (h : ∀ i ∈ distances, m (addr + UInt64.ofNat i) = n (addr + UInt64.ofNat i)) :
    m.bytesAt addr distances = n.bytesAt addr distances :=
  List.map_congr_left fun i hi => by rw [h i hi]

/-- The first eight addresses lie in the word. -/
theorem inWord_add {addr : Addr} {i : Nat} (h : i ∈ List.range wordBytes) :
    InWord addr (addr + UInt64.ofNat i) := by
  have hlt : i < wordBytes := List.mem_range.1 h
  unfold InWord
  rw [Addr.val_add, UInt64.add_comm, UInt64.add_sub_cancel, UInt64.toNat_ofNat']
  simp only [wordBytes] at hlt ⊢
  omega

end AddressSpace

namespace CallCpu

open ProgramState

/-- A call goes to an address at a distance, and leaves the address behind it on the stack. -/
def call (s : ProgramState Nat) : ProgramState Nat :=
  let ret := s.pc + (5 : UInt64)
  let sp := s.registers.stackPointer - (8 : UInt64)
  let target := ret + Machine.signed32 (s.memory.bytesAt s.pc [1, 2, 3, 4])
  { s with
    registers := (s.registers.set .rsp sp.val).setPc target
    memory := s.memory.storeWord sp ret.val }

/-- A return goes to the address on the stack. -/
def ret (s : ProgramState Nat) : ProgramState Nat :=
  let sp := s.registers.stackPointer
  { s with registers := (s.registers.set .rsp (sp + (8 : UInt64)).val).setPc ⟨s.memory.word sp⟩ }

/-- The state behind the next instruction, if it does not end the program. -/
def effect? (s : ProgramState Nat) : Option (ProgramState Nat) :=
  if s.memory s.pc = some 0x90 then some (s.withPc (s.pc + (1 : UInt64)))
  else if s.memory s.pc = some 0xe8 then some (call s)
  else if s.memory s.pc = some 0xc3 then some (ret s)
  else none

/-- An instruction that does nothing goes on to the next one. -/
theorem effect?_nop {s : ProgramState Nat} (h : s.memory s.pc = some 0x90) :
    effect? s = some (s.withPc (s.pc + (1 : UInt64))) := by
  simp [effect?, h]

/-- A call is recognised by its first byte. -/
theorem effect?_call {s : ProgramState Nat} (h : s.memory s.pc = some 0xe8) :
    effect? s = some (call s) := by
  simp [effect?, h]

/-- A return is recognised by its only byte. -/
theorem effect?_ret {s : ProgramState Nat} (h : s.memory s.pc = some 0xc3) :
    effect? s = some (ret s) := by
  simp [effect?, h]

/-- What the next instruction does, as long as the program may execute any. -/
def execute (s : ProgramState Nat) : Completion Nat :=
  match s.rest, effect? s with
  | budget + 1, some t => .running { t with rest := budget }
  | _, _ => .exited 0

/-- How long the next instruction is. -/
def length (s : ProgramState Nat) : Nat := if s.memory s.pc = some 0xe8 then 5 else 1

/-- The word of the stack that the next instruction reads or writes. -/
def Touches (s : ProgramState Nat) (a : Addr) : Prop :=
  (s.memory s.pc = some 0xe8 ∧
    AddressSpace.InWord (s.registers.stackPointer - (8 : UInt64)) a) ∨
  (s.memory s.pc = some 0xc3 ∧ AddressSpace.InWord s.registers.stackPointer a)

instance (s : ProgramState Nat) (a : Addr) : Decidable (Touches s a) :=
  inferInstanceAs (Decidable (_ ∨ _))

section Alike

variable {s t : ProgramState Nat} (hregisters : t.registers = s.registers) (hrest : t.rest = s.rest)
  (hmemory : ∀ a, a = s.pc ∨ s.pc.Inside (length s) a ∨ Touches s a → t.memory a = s.memory a)

include hrest in
/-- Two states in which the next instruction leads on. -/
theorem alike_of_effect? {s' t' : ProgramState Nat} (hs : effect? s = some s')
    (ht : effect? t = some t') (hregs : t'.registers = s'.registers)
    (htouched : ∀ a, Touches s a → t'.memory a = s'.memory a)
    (hkept : ∀ a, ¬ Touches s a → t'.memory a = t.memory a) :
    (execute s).Alike (Touches s) t.memory (execute t) := by
  unfold execute
  rw [hrest, hs, ht]
  rcases s.rest with _ | budget
  · rfl
  · exact ⟨hregs, rfl, htouched, hkept⟩

include hregisters

omit hrest hmemory in
/-- Equal registers have the same program counter. -/
theorem pc_eq_of_registers : t.pc = s.pc := congrArg Registers.pc hregisters

include hmemory

/-- Both programs are at the same instruction. -/
theorem byte_eq : t.memory t.pc = s.memory s.pc := by
  rw [pc_eq_of_registers hregisters]
  exact hmemory s.pc (.inl rfl)

include hrest

/-- A call depends on its distance and on the stack pointer, and stores the same word. -/
theorem alike_call (hcall : s.memory s.pc = some 0xe8) :
    (execute s).Alike (Touches s) t.memory (execute t) := by
  have hpc := pc_eq_of_registers hregisters
  -- the distance is in the instruction
  have hdistance : t.memory.bytesAt s.pc [1, 2, 3, 4] = s.memory.bytesAt s.pc [1, 2, 3, 4] := by
    refine AddressSpace.bytesAt_congr fun i hi => hmemory _ (.inr (.inl ⟨i, ?_, ?_, rfl⟩))
    · simp only [List.mem_cons, List.not_mem_nil, or_false] at hi
      omega
    · simp only [List.mem_cons, List.not_mem_nil, or_false] at hi
      rw [length, if_pos hcall]
      omega
  refine alike_of_effect? hrest (effect?_call hcall)
    (effect?_call ((byte_eq hregisters hmemory).trans hcall)) ?_ (fun a ha => ?_) fun a ha => ?_
  · simp only [call, hregisters, hpc, hdistance]
  · simp only [call, hregisters, hpc]
    exact AddressSpace.storeWord_congr (hmemory a (.inr (.inr ha)))
  · refine AddressSpace.storeWord_of_not_inWord fun hin => ha (.inl ⟨hcall, ?_⟩)
    rw [← hregisters]
    exact hin

/-- A return depends on the word on the stack, and stores nothing. -/
theorem alike_ret (hret : s.memory s.pc = some 0xc3) :
    (execute s).Alike (Touches s) t.memory (execute t) := by
  have touched : ∀ a, Touches s a → t.memory a = s.memory a := fun a ha =>
    hmemory a (.inr (.inr ha))
  -- the address is on the stack
  have hword : t.memory.word s.registers.stackPointer =
      s.memory.word s.registers.stackPointer := by
    refine congrArg (UInt64.ofNat <| littleEndian ·) (AddressSpace.bytesAt_congr fun i hi => ?_)
    exact touched _ (.inr ⟨hret, AddressSpace.inWord_add hi⟩)
  refine alike_of_effect? hrest (effect?_ret hret)
    (effect?_ret ((byte_eq hregisters hmemory).trans hret)) ?_ touched fun _ _ => rfl
  simp only [ret, hregisters, hword]

/-- The next instruction does the same in two states that agree on what it looks at. -/
theorem alike : (execute s).Alike (Touches s) t.memory (execute t) := by
  have hpc := pc_eq_of_registers hregisters
  have hbyte := byte_eq hregisters hmemory
  by_cases hnop : s.memory s.pc = some 0x90
  · refine alike_of_effect? hrest (effect?_nop hnop) (effect?_nop (hbyte.trans hnop)) ?_
      (fun a ha => hmemory a (.inr (.inr ha))) fun _ _ => rfl
    simp only [withPc, hregisters, hpc]
  by_cases hcall : s.memory s.pc = some 0xe8
  · exact alike_call hregisters hrest hmemory hcall
  by_cases hret : s.memory s.pc = some 0xc3
  · exact alike_ret hregisters hrest hmemory hret
  -- there is no other instruction, so both programs end
  have hends : ∀ x : ProgramState Nat, x.memory x.pc = s.memory s.pc → execute x = .exited 0 := by
    intro x hx
    have hnone : effect? x = none := by
      simp only [effect?, hx, hnop, hcall, hret, if_false]
    unfold execute
    rw [hnone]
    cases x.rest <;> rfl
  rw [hends s rfl, hends t hbyte]
  rfl

end Alike

/-- A processor with instructions that do nothing, call a function, return from it, and end the
program. A program executes a limited number of them. -/
def cpu : Cpu Nat where
  length := length
  Touches := Touches
  execute := execute
  local_ s t hregisters hrest hmemory := by
    have hbyte := byte_eq hregisters hmemory
    refine ⟨by rw [length, length, hbyte], fun a => ?_, alike hregisters hrest hmemory⟩
    rw [Touches, Touches, hbyte, hregisters]

/-- A program goes on only while it may execute instructions, and each one counts. -/
theorem execute_running {s t : ProgramState Nat} (h : execute s = .running t) :
    ∃ budget s', s.rest = budget + 1 ∧ effect? s = some s' ∧ t = { s' with rest := budget } := by
  unfold execute at h
  rcases hrest : s.rest with _ | budget <;> rcases heffect : effect? s with _ | s' <;>
    rw [hrest, heffect] at h <;> cases h
  exact ⟨budget, s', rfl, rfl, rfl⟩

/-- Where there is memory stays the same. -/
theorem effect?_memory {s s' : ProgramState Nat} (h : effect? s = some s') (a : Addr) :
    s'.memory a = none ↔ s.memory a = none := by
  unfold effect? at h
  split at h
  · cases h
    exact Iff.rfl
  split at h
  · cases h
    exact AddressSpace.storeWord_eq_none
  split at h <;> cases h
  exact Iff.rfl

/-- A program stops at the latest when it may not execute any more. -/
theorem run_isSome {n : Nat} {s : ProgramState Nat} (h : s.rest < n) : (cpu.run n s).isSome := by
  induction n generalizing s with
  | zero => cases h
  | succ n ih =>
    rcases Cpu.step_cases cpu s with ⟨-, hs⟩ | ⟨t, -, hrun, hs⟩ | ⟨code, -, -, hs⟩
    · rw [Cpu.run_of_stop hs (by simp)]
      rfl
    · obtain ⟨budget, s', hrest, -, rfl⟩ := execute_running hrun
      rw [Cpu.run_of_running hs]
      exact ih (by dsimp only; omega)
    · rw [Cpu.run_of_stop hs (by simp)]
      rfl

instance : cpu.Terminating where
  bound s := s.rest + 1
  run_isSome _ _ := run_isSome (Nat.lt_succ_self _)
  unmapped h hs := by
    obtain ⟨_, _, -, heffect, rfl⟩ := execute_running h
    exact (effect?_memory heffect _).2 hs
  mapped h hs := by
    obtain ⟨_, _, -, heffect, rfl⟩ := execute_running h
    exact fun ht => hs ((effect?_memory heffect _).1 ht)

/-- A program that calls a function, which returns at once. -/
def calling : CpuProcess cpu where
  state :=
    { registers := (Registers.zero.setPc ⟨0x1000⟩).set .rsp 0x2010
      memory a :=
        [0xe8, 2, 0, 0, 0, 0x90, 0xf4, 0x90, 0x90, 0xc3][(a.val - 0x1000).toNat]?.or
          (if (a.val - 0x2000).toNat < 16 then some 0 else none)
      rest := 99 }
  alive := true
  memory_last := by decide

end CallCpu

end SourceDebugger
