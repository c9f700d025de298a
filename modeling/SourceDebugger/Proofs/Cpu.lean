import SourceDebugger.Proofs.Memory

/-!
# Programs and the processor

A program is a memory with instructions in it, and a processor that executes them. Of the processor
nothing is assumed but that an instruction depends on its own bytes and on the bytes it touches as
data, and changes no others: `Cpu.local_`. A trap instruction stops the process behind it.

`Cpu.after` is the run of a program by itself. With breakpoints in its memory the program is in a
`Patched` state. As long as an instruction has nothing to do with the traps it does there what it
does without them, `Patched.step`, and a process that is let go runs on to the next trap or to its
end, `Patched.runsTo`.
-/

namespace SourceDebugger

/-- All that a program works on: the registers, the memory, and whatever else there is of it. -/
structure ProgramState (κ : Type) where
  /-- The registers. -/
  registers : Registers
  /-- The memory. -/
  memory : AddressSpace
  /-- Everything else, such as what the system keeps for the process. -/
  rest : κ

namespace ProgramState

variable {κ : Type} (s : ProgramState κ)

/-- The address of the next instruction. -/
def pc : Addr := s.registers.pc

/-- The state with another next instruction. -/
def withPc (pc : Addr) : ProgramState κ := { s with registers := s.registers.setPc pc }

/-- The state with another byte in memory. -/
def store (addr : Addr) (byte : UInt8) : ProgramState κ :=
  { s with memory := s.memory.store addr byte }

/-- Whether the next instruction is the trap. -/
def AtTrap : Prop := s.memory s.pc = some trapByte

instance : Decidable s.AtTrap := inferInstanceAs (Decidable (_ = _))

/-- The state behind a trap that was executed. -/
def behindTrap : ProgramState κ := s.withPc (s.pc + (1 : UInt64))

/-- Storing a byte does not move the program. -/
@[simp]
theorem pc_store (addr : Addr) (byte : UInt8) : (s.store addr byte).pc = s.pc := rfl

/-- Storing a byte changes the memory at its address. -/
@[simp]
theorem memory_store (addr : Addr) (byte : UInt8) :
    (s.store addr byte).memory = s.memory.store addr byte := rfl

@[simp]
theorem pc_withPc (pc : Addr) : (s.withPc pc).pc = pc := Registers.pc_setPc _ _

@[simp]
theorem memory_withPc (pc : Addr) : (s.withPc pc).memory = s.memory := rfl

@[simp]
theorem rest_withPc (pc : Addr) : (s.withPc pc).rest = s.rest := rfl

end ProgramState

/-- Whether an address lies in an instruction behind its first byte. -/
def Addr.Inside (pc : Addr) (length : Nat) (a : Addr) : Prop :=
  ∃ i, 0 < i ∧ i < length ∧ a = pc + UInt64.ofNat i

/-- What becomes of a program by an instruction. -/
inductive Completion (κ : Type) where
  /-- It goes on. -/
  | running (s : ProgramState κ)
  /-- It ends. -/
  | exited (code : Int)

/-- The same instruction was executed twice. Where it touches memory it leaves the same there, and
elsewhere the second memory is as it was `before`. -/
def Completion.Alike {κ : Type} (touched : Addr → Prop) (before : AddressSpace) :
    Completion κ → Completion κ → Prop
  | .running s, .running t =>
    t.registers = s.registers ∧ t.rest = s.rest ∧ (∀ a, touched a → t.memory a = s.memory a) ∧
      ∀ a, ¬ touched a → t.memory a = before a
  | .exited c, .exited d => c = d
  | _, _ => False

/-- What executes instructions. -/
structure Cpu (κ : Type) where
  /-- The number of bytes of the next instruction. -/
  length : ProgramState κ → Nat
  /-- The bytes that the next instruction reads or writes as data. -/
  Touches : ProgramState κ → Addr → Prop
  /-- What the next instruction does, unless it is a trap. -/
  execute : ProgramState κ → Completion κ
  /-- An instruction depends on its own bytes and on those it touches, and changes no others. -/
  local_ : ∀ s t, t.registers = s.registers → t.rest = s.rest →
    (∀ a, a = s.pc ∨ s.pc.Inside (length s) a ∨ Touches s a → t.memory a = s.memory a) →
    length t = length s ∧ (∀ a, Touches t a ↔ Touches s a) ∧
      (execute s).Alike (Touches s) t.memory (execute t)

namespace Cpu

variable {κ : Type} (cpu : Cpu κ)

/-- Whether the next instruction has to do with an address at which it does not start: it reads or
writes there, or it lies over it. A trap has to do with none. -/
def Disturbs (s : ProgramState κ) (a : Addr) : Prop :=
  ¬ s.AtTrap ∧ (cpu.Touches s a ∨ s.pc.Inside (cpu.length s) a)

/-- Executes one instruction: how the process stops then, and its state unless it ended. -/
def step (s : ProgramState κ) : Stop × Option (ProgramState κ) :=
  if s.AtTrap then (.trap .breakpoint, some s.behindTrap)
  else
    match cpu.execute s with
    | .running t => (.trap .singleStep, some t)
    | .exited code => (.exited code, none)

/-- The state after some instructions of the program by itself, unless it ended before. -/
def after : Nat → ProgramState κ → Option (ProgramState κ)
  | 0, s => some s
  | n + 1, s => (cpu.step s).2.bind (after n)

/-- The state `t` is reached from `s` by instructions that are no traps. -/
inductive Passes : ProgramState κ → ProgramState κ → Prop
  | refl (s : ProgramState κ) : Passes s s
  | next {s t u : ProgramState κ} : cpu.step s = (.trap .singleStep, some t) → Passes t u →
      Passes s u

/-- A process in the state `s` that is let go stops in this way, in a state unless it ended. -/
inductive RunsTo : ProgramState κ → Stop → Option (ProgramState κ) → Prop
  | stop {s : ProgramState κ} {stop : Stop} {end_ : Option (ProgramState κ)} :
      cpu.step s = (stop, end_) → stop ≠ .trap .singleStep → RunsTo s stop end_
  | next {s t : ProgramState κ} {stop : Stop} {end_ : Option (ProgramState κ)} :
      cpu.step s = (.trap .singleStep, some t) → RunsTo t stop end_ → RunsTo s stop end_

/-- Lets a process run for at most so many instructions: how it stops, if it does. -/
def run : Nat → ProgramState κ → Option (Stop × Option (ProgramState κ))
  | 0, _ => none
  | n + 1, s =>
    match cpu.step s with
    | (.trap .singleStep, some t) => run n t
    | result => some result

variable {cpu} {s t : ProgramState κ}

/-- At a trap instruction the program stops behind it. -/
theorem step_of_atTrap (h : s.AtTrap) : cpu.step s = (.trap .breakpoint, some s.behindTrap) :=
  if_pos h

/-- An instruction that goes on is a single step. -/
theorem step_of_running (h : ¬ s.AtTrap) (ht : cpu.execute s = .running t) :
    cpu.step s = (.trap .singleStep, some t) := by
  rw [step, if_neg h, ht]

/-- An instruction that ends the program is its last one. -/
theorem step_of_exited (h : ¬ s.AtTrap) {code : Int} (hc : cpu.execute s = .exited code) :
    cpu.step s = (.exited code, none) := by
  rw [step, if_neg h, hc]

/-- A step is a trap, an instruction or the end. -/
theorem step_cases (cpu : Cpu κ) (s : ProgramState κ) :
    (s.AtTrap ∧ cpu.step s = (.trap .breakpoint, some s.behindTrap)) ∨
    (∃ t, ¬ s.AtTrap ∧ cpu.execute s = .running t ∧ cpu.step s = (.trap .singleStep, some t)) ∨
    ∃ code, ¬ s.AtTrap ∧ cpu.execute s = .exited code ∧ cpu.step s = (.exited code, none) := by
  by_cases h : s.AtTrap
  · exact .inl ⟨h, step_of_atTrap h⟩
  rcases he : cpu.execute s with t | code
  · exact .inr (.inl ⟨t, h, rfl, step_of_running h he⟩)
  · exact .inr (.inr ⟨code, h, rfl, step_of_exited h he⟩)

/-- Steps can be counted in two parts. -/
theorem after_add (m n : Nat) (s : ProgramState κ) :
    cpu.after (m + n) s = (cpu.after m s).bind (cpu.after n) := by
  induction m generalizing s with
  | zero =>
    rw [Nat.zero_add]
    rfl
  | succ m ih =>
    rw [Nat.succ_add, after, after]
    -- a program that ended stays there
    rcases (cpu.step s).2 with _ | t
    · rfl
    · exact ih t

/-- The states of a run are closed under steps. -/
theorem after_closed {s₀ : ProgramState κ} (h : ∃ n, cpu.after n s₀ = some s)
    (hstep : (cpu.step s).2 = some t) : ∃ n, cpu.after n s₀ = some t := by
  obtain ⟨n, hn⟩ := h
  refine ⟨n + 1, ?_⟩
  rw [after_add, hn, Option.bind_some, after, hstep]
  rfl

/-- A run begins with a step if that goes on. -/
theorem run_of_running {n : Nat} (h : cpu.step s = (.trap .singleStep, some t)) :
    cpu.run (n + 1) s = cpu.run n t := by
  simp only [run, h]

/-- A run ends with a step that is no single step. -/
theorem run_of_stop {n : Nat} {stop : Stop} {end_ : Option (ProgramState κ)}
    (h : cpu.step s = (stop, end_)) (hne : stop ≠ .trap .singleStep) :
    cpu.run (n + 1) s = some (stop, end_) := by
  rw [run, h]
  split
  · rename_i heq
    cases heq
    exact absurd rfl hne
  · rfl

/-- A run that ends within its limit is a run without one. -/
theorem runsTo_of_run {n : Nat} {stop : Stop} {end_ : Option (ProgramState κ)}
    (h : cpu.run n s = some (stop, end_)) : cpu.RunsTo s stop end_ := by
  -- the number of instructions bounds the run, which is one by `next` for each of them
  induction n generalizing s with
  | zero => cases h
  | succ n ih =>
    rcases step_cases cpu s with ⟨-, hs⟩ | ⟨t, -, -, hs⟩ | ⟨code, -, -, hs⟩
    · rw [run_of_stop hs (by simp)] at h
      cases h
      exact .stop hs (by simp)
    · rw [run_of_running hs] at h
      exact .next hs (ih h)
    · rw [run_of_stop hs (by simp)] at h
      cases h
      exact .stop hs (by simp)

/-- A process stops at a trap, or it ends. -/
theorem RunsTo.cases {stop : Stop} {end_ : Option (ProgramState κ)} (h : cpu.RunsTo s stop end_) :
    (∃ t, stop = .trap .breakpoint ∧ end_ = some t) ∨
    ∃ code, stop = .exited code ∧ end_ = none := by
  induction h with
  | @stop s stop end_ hs hne =>
    rcases step_cases cpu s with ⟨-, hs'⟩ | ⟨t, -, -, hs'⟩ | ⟨code, -, -, hs'⟩ <;>
      cases hs.symm.trans hs'
    · exact .inl ⟨_, rfl, rfl⟩
    · exact absurd rfl hne
    · exact .inr ⟨code, rfl, rfl⟩
  | next _ _ ih => exact ih

/-- A process stops in one way. -/
theorem RunsTo.unique {stop stop' : Stop} {end_ end' : Option (ProgramState κ)}
    (h : cpu.RunsTo s stop end_) (h' : cpu.RunsTo s stop' end') : stop = stop' ∧ end_ = end' := by
  -- the two runs go in step, as a step has one result
  induction h with
  | stop hs hne =>
    cases h' with
    | stop hs' =>
      cases hs.symm.trans hs'
      exact ⟨rfl, rfl⟩
    | next hs' =>
      cases hs.symm.trans hs'
      exact absurd rfl hne
  | next hs _ ih =>
    cases h' with
    | stop hs' hne' =>
      cases hs.symm.trans hs'
      exact absurd rfl hne'
    | next hs' hrest =>
      cases hs.symm.trans hs'
      exact ih hrest

/-- An instruction changes only what it touches. -/
theorem memory_of_running (ht : cpu.execute s = .running t) {a : Addr} (ha : ¬ cpu.Touches s a) :
    t.memory a = s.memory a := by
  obtain ⟨-, -, h⟩ := cpu.local_ s s rfl rfl fun _ _ => rfl
  rw [ht] at h
  exact h.2.2.2 a ha

/-- A step changes nothing that it does not disturb. -/
theorem memory_of_step {stop : Stop} (ht : cpu.step s = (stop, some t)) {a : Addr}
    (ha : ¬ cpu.Disturbs s a) : t.memory a = s.memory a := by
  rcases step_cases cpu s with ⟨-, hs⟩ | ⟨t', htrap, hrun, hs⟩ | ⟨code, -, -, hs⟩ <;> rw [hs] at ht
  · cases ht
    rfl
  · cases ht
    exact memory_of_running hrun fun htouch => ha ⟨htrap, .inl htouch⟩
  · cases ht

end Cpu

/-! ### Programs with breakpoints -/

/-- The state `x` is that of the program state `u` with the breakpoints of a table in memory. -/
structure Patched {κ : Type} (table : BreakpointTable) (x u : ProgramState κ) : Prop where
  registers : x.registers = u.registers
  rest : x.rest = u.rest
  coherent : Coherent table x.memory u.memory

namespace Patched

open BreakpointTable Cpu

variable {κ : Type} {cpu : Cpu κ} {table : BreakpointTable} {x u : ProgramState κ}

/-- Under patches the program is at the same place. -/
theorem pc_eq (h : Patched table x u) : x.pc = u.pc := congrArg Registers.pc h.registers

/-- A program can be moved under patches. -/
theorem withPc (h : Patched table x u) (pc : Addr) : Patched table (x.withPc pc) (u.withPc pc) where
  registers := congrArg (Registers.setPc · pc) h.registers
  rest := h.rest
  coherent := h.coherent

/-- A trap can be passed under patches, since the program counter moves by one in both. -/
theorem behindTrap (h : Patched table x u) : Patched table x.behindTrap u.behindTrap := by
  unfold ProgramState.behindTrap
  rw [h.pc_eq]
  exact h.withPc _

/-- At a breakpoint the process executes the trap. -/
theorem atTrap_of_isArmed (h : Patched table x u) (harmed : table.isArmed u.pc = true) :
    x.AtTrap := by
  obtain ⟨b, hb, haddr⟩ := isArmed_iff.1 harmed
  unfold ProgramState.AtTrap
  rw [h.pc_eq, ← haddr]
  exact h.coherent.trapped b hb

/-- Elsewhere it executes a trap only if the program does. -/
theorem atTrap_iff (h : Patched table x u) (hfree : table.isArmed u.pc = false) :
    x.AtTrap ↔ u.AtTrap := by
  unfold ProgramState.AtTrap
  rw [h.pc_eq, h.coherent.elsewhere _ hfree]

/-- Two states that differ by breakpoints still do so after an instruction that touches none. -/
theorem of_untouched (h : Patched table x u) {x' u' : ProgramState κ} {touched : Addr → Prop}
    (hregisters : x'.registers = u'.registers) (hrest : x'.rest = u'.rest)
    (htouched : ∀ a, touched a → x'.memory a = u'.memory a)
    (hx : ∀ a, ¬ touched a → x'.memory a = x.memory a)
    (hu : ∀ a, ¬ touched a → u'.memory a = u.memory a)
    (hfree : ∀ a, table.isArmed a = true → ¬ touched a) : Patched table x' u' where
  registers := hregisters
  rest := hrest
  -- what was touched is the same on both sides, and no trap was among it
  coherent :=
    { distinct := h.coherent.distinct
      trapped := fun b hb => by
        rw [hx _ (hfree _ (isArmed_of_mem hb))]
        exact h.coherent.trapped b hb
      saved := fun b hb => by
        rw [hu _ (hfree _ (isArmed_of_mem hb))]
        exact h.coherent.saved b hb
      elsewhere := fun a ha => by
        by_cases htouch : touched a
        · exact htouched a htouch
        · rw [hx a htouch, hu a htouch]
          exact h.coherent.elsewhere a ha }

/-- The two states have the same bytes where an instruction uses them, if no breakpoint is among
these. -/
theorem agree (h : Patched table x u) (hfree : table.isArmed u.pc = false) {s : ProgramState κ}
    (hpc : s.pc = u.pc) (htrap : ¬ s.AtTrap)
    (hclear : ∀ a, table.isArmed a = true → ¬ cpu.Disturbs s a) (a : Addr)
    (ha : a = s.pc ∨ s.pc.Inside (cpu.length s) a ∨ cpu.Touches s a) : x.memory a = u.memory a := by
  apply h.coherent.elsewhere a
  -- the first byte is free, and the others are used by the instruction
  rcases ha with rfl | ha
  · rw [hpc, hfree]
  · rcases harmed : table.isArmed a
    · rfl
    · exact absurd ⟨htrap, ha.symm⟩ (hclear a harmed)

/-- An instruction that has nothing to do with the breakpoints that are in memory is the same in the
program by itself. -/
theorem undisturbed (h : Patched table x u) (hfree : table.isArmed u.pc = false)
    (hclear : ∀ a, table.isArmed a = true → ¬ cpu.Disturbs x a) {a : Addr}
    (ha : ¬ cpu.Disturbs x a) : ¬ cpu.Disturbs u a := by
  rintro ⟨htrap, hdisturbs⟩
  rw [← h.atTrap_iff hfree] at htrap
  -- so both states have the same instruction, and it touches the same bytes
  obtain ⟨hlength, htouches, -⟩ := cpu.local_ x u h.registers.symm h.rest.symm
    fun b hb => (h.agree hfree h.pc_eq htrap hclear b hb).symm
  refine ha ⟨htrap, ?_⟩
  rwa [htouches, hlength, ← h.pc_eq] at hdisturbs

/-- Where a process has no breakpoint, and the program executes nothing that has to do with one, the
process does what the program does by itself. -/
theorem running (h : Patched table x u) (hfree : table.isArmed u.pc = false) (htrap : ¬ u.AtTrap)
    (hclear : ∀ a, table.isArmed a = true → ¬ cpu.Disturbs u a) :
    (∃ x' u', cpu.execute x = .running x' ∧ cpu.execute u = .running u' ∧ Patched table x' u') ∨
    ∃ code, cpu.execute x = .exited code ∧ cpu.execute u = .exited code := by
  have huntouched : ∀ a, table.isArmed a = true → ¬ cpu.Touches u a :=
    fun a ha htouch => hclear a ha ⟨htrap, .inl htouch⟩
  -- the instruction uses no byte under a breakpoint, so it does the same in both states
  obtain ⟨-, -, hlocal⟩ := cpu.local_ u x h.registers h.rest
    fun a ha => h.agree hfree rfl htrap hclear a ha
  rcases hx : cpu.execute x with x' | code <;> rcases hu : cpu.execute u with u' | code' <;>
    rw [hx, hu] at hlocal
  · obtain ⟨hregisters, hrest, htouched, hkept⟩ := hlocal
    refine .inl ⟨x', u', rfl, rfl, h.of_untouched hregisters hrest htouched hkept ?_ huntouched⟩
    exact fun a ha => memory_of_running hu ha
  · exact hlocal.elim
  · exact hlocal.elim
  · exact .inr ⟨code, rfl, by rw [show code' = code from hlocal]⟩

/-- So a single step is the one of the program. -/
theorem step (h : Patched table x u) (hfree : table.isArmed u.pc = false)
    (hclear : ∀ a, table.isArmed a = true → ¬ cpu.Disturbs u a) :
    (∃ stop x' u', cpu.step x = (stop, some x') ∧ cpu.step u = (stop, some u') ∧
      Patched table x' u') ∨ ∃ stop, cpu.step x = (stop, none) ∧ cpu.step u = (stop, none) := by
  have hiff := h.atTrap_iff hfree
  by_cases htrap : u.AtTrap
  · exact .inl ⟨_, _, _, step_of_atTrap (hiff.2 htrap), step_of_atTrap htrap, h.behindTrap⟩
  have htrap' : ¬ x.AtTrap := fun hx => htrap (hiff.1 hx)
  -- the program executes an instruction, in both states or in neither
  rcases h.running hfree htrap hclear with ⟨x', u', hx, hu, h'⟩ | ⟨code, hx, hu⟩
  · exact .inl ⟨_, x', u', step_of_running htrap' hx, step_of_running htrap hu, h'⟩
  · exact .inr ⟨_, step_of_exited htrap' hx, step_of_exited htrap hu⟩

end Patched

/-! ### Traps and the program counter -/

theorem Registers.setPc_setPc (regs : Registers) (a b : Addr) :
    (regs.setPc a).setPc b = regs.setPc b := by
  simp [setPc, set]

theorem Registers.setPc_pc (regs : Registers) : regs.setPc regs.pc = regs := by
  simp [setPc, set, pc, get]

/-- One byte behind an address and back again. -/
theorem Addr.sub?_add_one {a : Addr} (h : a ≠ Addr.last) : (a + (1 : UInt64)).sub? 1 = some a := by
  have hle : (1 : UInt64) ≤ (a + (1 : UInt64)).val := by
    rw [UInt64.le_iff_toNat_le, toNat_add_one h]
    simp
  unfold sub?
  rw [if_pos hle]
  exact congrArg some (Addr.ext_iff_val.2 (by simp))

/-- Whoever goes back by one byte from behind an address is at that address. -/
theorem Addr.eq_of_sub?_add_one {a b : Addr} (h : (a + (1 : UInt64)).sub? 1 = some b) : b = a := by
  unfold sub? at h
  split at h
  · cases h
    exact Addr.ext_iff_val.2 (by simp)
  · cases h

namespace ProgramState

variable {κ : Type}

/-- The state to which the debugger moves a process that trapped: back onto a breakpoint, if it
stands behind one. -/
def rewound (table : BreakpointTable) (s : ProgramState κ) : ProgramState κ :=
  match s.pc.sub? 1 with
  | some a => if table.isArmed a then s.withPc a else s
  | none => s

theorem withPc_withPc (s : ProgramState κ) (a b : Addr) : (s.withPc a).withPc b = s.withPc b := by
  simp only [withPc, Registers.setPc_setPc]

theorem withPc_pc (s : ProgramState κ) : s.withPc s.pc = s := by
  simp only [withPc, pc, Registers.setPc_pc]

/-- A process that is not behind a breakpoint stays where it is. -/
theorem rewound_of_not_behind {table : BreakpointTable} {s : ProgramState κ}
    (hfree : ∀ a, s.pc.sub? 1 = some a → table.isArmed a = false) : s.rewound table = s := by
  unfold rewound
  split
  · rename_i a ha
    rw [hfree a ha]
    rfl
  · rfl

/-- A process behind a breakpoint is moved onto it. -/
theorem rewound_of_behind {table : BreakpointTable} {s : ProgramState κ} {a : Addr}
    (ha : s.pc.sub? 1 = some a) (harmed : table.isArmed a = true) :
    s.rewound table = s.withPc a := by
  unfold rewound
  rw [ha]
  exact if_pos harmed

/-- A process that executed the trap of a breakpoint is moved back to where it was. -/
theorem rewound_of_isArmed {table : BreakpointTable} {s : ProgramState κ}
    (harmed : table.isArmed s.pc = true) (hlast : s.pc ≠ Addr.last) :
    s.behindTrap.rewound table = s := by
  have hbehind : s.behindTrap.pc.sub? 1 = some s.pc := by
    rw [behindTrap, pc_withPc, Addr.sub?_add_one hlast]
  rw [rewound_of_behind hbehind harmed, behindTrap, withPc_withPc, withPc_pc]

/-- A process that executed a trap of the program stays behind it. -/
theorem rewound_of_free {table : BreakpointTable} {s : ProgramState κ}
    (hfree : table.isArmed s.pc = false) : s.behindTrap.rewound table = s.behindTrap := by
  refine rewound_of_not_behind fun a ha => ?_
  rw [behindTrap, pc_withPc] at ha
  rw [Addr.eq_of_sub?_add_one ha, hfree]

end ProgramState

namespace Patched

open BreakpointTable Cpu ProgramState

variable {κ : Type} {cpu : Cpu κ} {table : BreakpointTable} {x u : ProgramState κ}

/-- The trap of a breakpoint is not at the end of the address space, if there is no memory. -/
theorem pc_ne_last (h : Patched table x u) (harmed : table.isArmed u.pc = true)
    (hlast : x.memory Addr.last = none) : u.pc ≠ Addr.last := by
  intro hpc
  have htrap : x.memory x.pc = some trapByte := h.atTrap_of_isArmed harmed
  rw [h.pc_eq, hpc, hlast] at htrap
  cases htrap

/-- What is left of the program after a step, if it was in a run of which `P` holds: the state, once
the debugger moved it back from a trap. -/
theorem rewound_of_step {P : ProgramState κ → Prop}
    (closed : ∀ s t, P s → (cpu.step s).2 = some t → P t) (hfree : table.isArmed u.pc = false)
    {t : ProgramState κ} (hstep : cpu.step u = (.trap .breakpoint, some t)) (hu : P u) :
    P (t.rewound table) := by
  have ht : P t := closed u t hu (by rw [hstep])
  rcases step_cases cpu u with ⟨-, hs⟩ | ⟨t', -, -, hs⟩ | ⟨code, -, -, hs⟩ <;>
    cases hs.symm.trans hstep
  -- a trap of the program is left where it is
  rwa [rewound_of_free hfree]

/-- A process that runs from a state of a run of the program comes to a trap, and when it is moved
back from there it is in a state of that run again, or it ends. -/
theorem runsTo {P : ProgramState κ → Prop} (closed : ∀ s t, P s → (cpu.step s).2 = some t → P t)
    {stop : Stop} {end_ : Option (ProgramState κ)} (hrun : cpu.RunsTo x stop end_)
    (h : Patched table x u) (hu : P u)
    (hclear : ∀ y, cpu.Passes x y → ∀ a, table.isArmed a = true → ¬ cpu.Disturbs y a)
    (hlast : ∀ y, end_ = some y → y.memory Addr.last = none) :
    (∃ x' u', stop = .trap .breakpoint ∧ end_ = some x' ∧ Patched table x' u' ∧
      P (u'.rewound table)) ∨ end_ = none := by
  -- the state of the program goes along, and `P` holds of it at each step
  induction hrun generalizing u with
  | @stop x stop end_ hstep hne =>
    rcases harmed : table.isArmed u.pc
    · have hclear := hclear x (.refl x)
      rcases h.step harmed fun a ha => h.undisturbed harmed hclear (hclear a ha) with
        ⟨stop', x', u', hx, hu', h'⟩ | ⟨stop', hx, -⟩ <;> cases hx.symm.trans hstep
      -- no breakpoint is there, so the trap is one of the program
      · rcases step_cases cpu u with ⟨-, hs⟩ | ⟨t, -, -, hs⟩ | ⟨code, -, -, hs⟩ <;>
          cases hs.symm.trans hu'
        · exact .inl ⟨x', _, rfl, rfl, h', rewound_of_step closed harmed hs hu⟩
        · exact absurd rfl hne
      · exact .inr rfl
    -- the trap is that of a breakpoint, and moving back undoes it
    · have htrap := h.atTrap_of_isArmed harmed
      rw [step_of_atTrap htrap] at hstep
      cases hstep
      have hlast : x.memory Addr.last = none := hlast x.behindTrap rfl
      refine .inl ⟨_, _, rfl, rfl, h.behindTrap, ?_⟩
      rwa [rewound_of_isArmed harmed (h.pc_ne_last harmed hlast)]
  | @next x t stop end_ hstep _ ih =>
    rcases harmed : table.isArmed u.pc
    · have hclear' := hclear x (.refl x)
      rcases h.step harmed fun a ha => h.undisturbed harmed hclear' (hclear' a ha) with
        ⟨stop', x', u', hx, hu', h'⟩ | ⟨stop', hx, -⟩ <;> cases hx.symm.trans hstep
      exact ih h' (closed u u' hu (by rw [hu'])) (fun y hy => hclear y (.next hx hy)) hlast
    · rw [step_of_atTrap (h.atTrap_of_isArmed harmed)] at hstep
      cases hstep

end Patched

end SourceDebugger
