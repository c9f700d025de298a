import SourceDebugger.Proofs.Ensures
import SourceDebugger.Proofs.NopProcess

/-!
# How code is shown

Before code is disassembled or decoded, the traps in it are taken away. What is left is the code of
the program, `Coherent.unpatch_eq`, however short the read was and wherever the traps are. So
whatever is shown depends on the program and not on the breakpoints in it, except for the marks at
the instructions that have one: `Session.code_shown` compares two sessions with different
breakpoints in one program.
-/

namespace SourceDebugger

namespace BreakpointTable

/-- Restoring bytes under breakpoints leaves as many bytes. -/
theorem length_unpatch (table : BreakpointTable) (base : Addr) (bytes : List UInt8) :
    (table.unpatch base bytes).length = bytes.length := by
  unfold unpatch
  induction table generalizing bytes with
  | nil => rfl
  | cons b rest ih =>
    rw [List.foldl_cons, ih, restoreByte_eq]
    split
    · exact List.length_set
    · rfl

/-- An address is among those of the breakpoints if and only if it is armed. -/
theorem contains_addrs (table : BreakpointTable) (a : Addr) :
    (table.map (·.addr)).contains a = table.isArmed a := by
  rw [Bool.eq_iff_iff, isArmed_iff, List.contains_iff_mem, List.mem_map]

end BreakpointTable

/-- Bytes that are in memory from an address on, before the end of the address space. -/
structure AddressSpace.Holds (m : AddressSpace) (addr : Addr) (bytes : List UInt8) : Prop where
  inSpace : addr.val.toNat + bytes.length ≤ UInt64.size
  inPlace : m.bytesFrom addr bytes.length = bytes

namespace AddressSpace

variable {m : AddressSpace} {addr : Addr} {byte : UInt8} {bytes : List UInt8}

/-- The first byte is at the address. -/
theorem Holds.head (h : m.Holds addr (byte :: bytes)) : m addr = some byte := by
  have hbytes := h.inPlace
  rw [List.length_cons, bytesFrom] at hbytes
  split at hbytes
  · rename_i hbyte
    rw [hbyte, (List.cons.inj hbytes).1]
  · cases hbytes

/-- The others are behind it. -/
theorem Holds.tail (h : m.Holds addr (byte :: bytes)) (hlast : addr ≠ Addr.last) :
    m.Holds (addr + (1 : UInt64)) bytes where
  inSpace := by
    have hspace := h.inSpace
    rw [List.length_cons] at hspace
    rw [Addr.toNat_add_one hlast]
    omega
  inPlace := by
    have hbytes := h.inPlace
    rw [List.length_cons, bytesFrom, h.head] at hbytes
    exact (List.cons.inj hbytes).2

/-- Nothing is behind the last address. -/
theorem Holds.eq_nil (h : m.Holds Addr.last (byte :: bytes)) : bytes = [] := by
  have hspace := h.inSpace
  have hlast : Addr.last.val.toNat = UInt64.size - 1 := rfl
  rw [List.length_cons, hlast, UInt64.size] at hspace
  exact List.length_eq_zero_iff.1 (by omega)

/-- The bytes that are read are those in memory. -/
theorem holds_bytesFrom (hlast : m Addr.last = none) (addr : Addr) (count : Nat) :
    m.Holds addr (m.bytesFrom addr count) := by
  -- up to the first byte that the process does not have
  induction count generalizing addr with
  | zero => exact ⟨Nat.le_of_lt addr.val.toNat_lt, rfl⟩
  | succ n ih =>
    rcases hbyte : m addr with _ | byte
    · rw [bytesFrom, hbyte]
      exact ⟨Nat.le_of_lt addr.val.toNat_lt, rfl⟩
    -- the last address has nothing behind it, so counting on does not wrap around
    have hne : addr ≠ Addr.last := by
      rintro rfl
      cases hlast.symm.trans hbyte
    obtain ⟨hspace, hplace⟩ := ih (addr + (1 : UInt64))
    rw [Addr.toNat_add_one hne] at hspace
    rw [bytesFrom, hbyte]
    refine ⟨by rw [List.length_cons]; omega, ?_⟩
    rw [List.length_cons, bytesFrom, hbyte]
    dsimp only
    rw [hplace]

end AddressSpace

/-- A memory with traps in it. -/
def AddressSpace.withTraps (own : AddressSpace) (table : BreakpointTable) : AddressSpace :=
  fun a => if table.isArmed a then some trapByte else own a

/-- Everything that is in memory can be read, and the last address has no memory. -/
structure Tracee.ReadsAll {σ : Type} [Tracee σ] (p : σ) : Prop where
  memory_last : memory p Addr.last = none
  readMemory (addr : Addr) (count : Nat) :
    Tracee.readMemory p addr count = .ok ((memory p).bytesFrom addr count)

/-- A process that reads all it has gives the bytes that are in its memory. -/
theorem Tracee.ReadsAll.holds {σ : Type} [Tracee σ] {p : σ} (h : ReadsAll p) {addr : Addr}
    {count : Nat} {bytes : List UInt8} (hread : Tracee.readMemory p addr count = .ok bytes) :
    (memory p).Holds addr bytes := by
  cases (h.readMemory addr count).symm.trans hread
  exact AddressSpace.holds_bytesFrom h.memory_last addr count

/-- The process that does nothing reads all it has. -/
theorem NopProcess.readsAll {p : NopProcess} (h : p.alive = true) : Tracee.ReadsAll p where
  memory_last := by
    rw [(shows h).memory]
    exact p.memory_last
  readMemory addr count := by
    rw [(shows h).memory]
    exact if_pos h

open BreakpointTable

variable {table : BreakpointTable} {memory own : AddressSpace}

/-- Without the traps, bytes of the memory are bytes of the program. -/
theorem Coherent.unpatch_holds (h : Coherent table memory own) {addr : Addr} {bytes : List UInt8}
    (hbytes : memory.Holds addr bytes) : own.Holds addr (table.unpatch addr bytes) := by
  induction bytes generalizing addr with
  | nil =>
    rw [unpatch_nil]
    exact ⟨hbytes.inSpace, rfl⟩
  | cons byte bytes ih =>
    obtain ⟨byte', hbyte'⟩ := table.unpatch_singleton addr byte
    have hown : own addr = some byte' := by
      rw [← h.unpatched_eq, unpatched, hbytes.head, Option.bind_some, hbyte']
      rfl
    refine ⟨(length_unpatch _ _ _).symm ▸ hbytes.inSpace, ?_⟩
    -- at the last address the bytes end, elsewhere the next byte stands at the next address
    by_cases hlast : addr = Addr.last
    · subst hlast
      obtain rfl := hbytes.eq_nil
      rw [hbyte', List.length_singleton, AddressSpace.bytesFrom, hown]
      rfl
    · rw [unpatch_cons hlast, hbyte', List.singleton_append, List.length_cons,
        AddressSpace.bytesFrom, hown]
      exact congrArg _ (ih (hbytes.tail hlast)).inPlace

/-- A program with traps written into it is coherent with its table. -/
theorem coherent_withTraps (hdistinct : table.Distinct)
    (hsaved : ∀ b ∈ table, own b.addr = some b.saved) :
    Coherent table (own.withTraps table) own where
  distinct := hdistinct
  trapped b hb := if_pos (isArmed_of_mem hb)
  saved := hsaved
  elsewhere a ha := if_neg (by rw [ha]; exact Bool.false_ne_true)

/-! ### Disassembly -/

namespace Disassembly

/-- The instructions with marks at those that have a breakpoint, and at no others. -/
def marked (d : Disassembly) (table : BreakpointTable) : Disassembly :=
  { d with
    instructions := d.instructions.map fun i => { i with hasBreakpoint := table.isArmed i.addr } }

/-- Breakpoints only make the marks. -/
theorem instructionsOf_eq (table : BreakpointTable) (fuel : Nat) (data : List UInt8) (addr : Addr) :
    instructionsOf (table.map (·.addr)) fuel data addr =
      (instructionsOf [] fuel data addr).map
        (List.map fun i => { i with hasBreakpoint := table.isArmed i.addr }) := by
  induction fuel generalizing data addr with
  | zero => cases data <;> rfl
  | succ fuel ih =>
    rcases data with _ | ⟨byte, data⟩
    · rfl
    simp only [instructionsOf]
    rcases X86.Instruction.decode? (byte :: data) addr.val with _ | i
    · rfl
    · dsimp only
      rw [ih, contains_addrs]
      rcases instructionsOf [] fuel ((byte :: data).drop i.length)
        (addr + UInt64.ofNat i.length) with e | rest <;> rfl

/-- Breakpoints only mark instructions; they change none. -/
theorem disassemble_eq (table : BreakpointTable) (data : List UInt8) (addr : Addr) :
    disassemble data addr (table.map (·.addr)) =
      (disassemble data addr []).map (·.marked table) := by
  unfold disassemble
  rw [instructionsOf_eq]
  rcases instructionsOf [] data.length data addr with e | rest <;> rfl

/-- Marks and source lines are put to an instruction in either order. -/
theorem marked_annotate (d : Disassembly) (table : BreakpointTable) (index : DebugIndex) :
    (d.marked table).annotate index = (d.annotate index).marked table := by
  simp only [marked, annotate, List.map_map]
  rfl

end Disassembly

namespace Session

variable {σ : Type} [Tracee σ] {s t : Session σ}

/-- The code from an address on, as it is shown: as much of it as can be read. -/
def code (s : Session σ) (addr : Addr) (count : Nat) : Except DebugError (List UInt8) :=
  (Tracee.readMemory s.process addr count).map (s.breakpoints.unpatch addr)

/-- The function at the current instruction, disassembled from code without any mark. -/
def shownFunction (index : DebugIndex) (registers : Except DebugError Registers)
    (code : Addr → Nat → Except DebugError (List UInt8)) :
    Except DebugError (Addr × Disassembly) := do
  let pc ← registers.map Registers.pc
  let f ← index.functionContaining pc
  let length := ((f.highPc.distanceFrom? f.lowPc).getD 0).toNat
  let bytes ← code f.lowPc length
  if bytes.length = length then
    let d ← Disassembly.disassemble bytes f.lowPc []
    return (pc, (d.annotate index).markCurrent pc)
  else throw (.io s!"read {bytes.length} of {length} bytes at {f.lowPc.text}")

omit [Tracee σ] in
/-- What only reads the session is followed by what only reads it. -/
theorem bind_of_reads {α β : Type} {x : Task σ α} {f : α → Task σ β} {r : Except DebugError α}
    {g : α → Except DebugError β} (hx : x s = some (r, s)) (hf : ∀ a, f a s = some (g a, s)) :
    (x >>= f) s = some (r.bind g, s) := by
  rw [bind_apply, hx]
  rcases r with e | a
  · rfl
  · exact hf a

/-- Of the breakpoints, a disassembly has only the marks. -/
theorem disassemble_eq (s : Session σ) :
    disassemble s = some
      ((shownFunction s.index (Tracee.registers s.process) s.code).map fun (pc, d) =>
        .disassembly pc (d.marked s.breakpoints), s) := by
  -- both sides ask the process in the same order, so they fail at the same question
  have hreads : disassemble s = some
      ((Tracee.pc s.process).bind fun pc =>
        (s.index.functionContaining pc).bind fun f =>
          (Tracee.readExact s.process f.lowPc
              ((f.highPc.distanceFrom? f.lowPc).getD 0).toNat).bind fun bytes =>
            (Disassembly.disassemble (s.breakpoints.unpatch f.lowPc bytes) f.lowPc
                (s.breakpoints.map (·.addr))).bind fun d =>
              .ok (.disassembly pc ((d.annotate s.index).markCurrent pc)), s) :=
    bind_of_reads rfl fun pc => (get_bind_apply _ s).trans (bind_of_reads rfl fun f =>
      bind_of_reads rfl fun bytes => bind_of_reads rfl fun d => rfl)
  rw [hreads]
  unfold shownFunction code
  simp only [Tracee.pc, Tracee.readExact, Disassembly.disassemble_eq]
  rcases Tracee.registers s.process with e | regs
  · rfl
  simp only [bind, Except.bind, Except.map, pure, Except.pure]
  rcases s.index.functionContaining regs.pc with e | f
  · rfl
  dsimp only
  rcases Tracee.readMemory s.process f.lowPc ((f.highPc.distanceFrom? f.lowPc).getD 0).toNat with
    e | bytes
  · rfl
  dsimp only
  -- the check of the length is made on bytes of the process, and taking traps back keeps it
  rw [length_unpatch]
  by_cases hlength : bytes.length = ((f.highPc.distanceFrom? f.lowPc).getD 0).toNat
  · simp only [if_pos hlength]
    rcases Disassembly.disassemble (s.breakpoints.unpatch f.lowPc bytes) f.lowPc [] with e | d
    · rfl
    · dsimp only
      rw [Disassembly.marked_annotate]
      rfl
  · simp only [if_neg hlength]
    rfl

/-- The instruction is decoded from the code without breakpoints, and nothing is changed. -/
theorem instructionAt_eq (s : Session σ) (pc : Addr) :
    instructionAt pc s = some
      ((s.code pc X86.maxInstructionLength).bind (InstructionInfo.decode · pc), s) := by
  rw [instructionAt, get_bind_apply]
  unfold code
  rcases Tracee.readMemory s.process pc X86.maxInstructionLength with e | bytes <;> rfl

/-- The process of a session has the program `own` in its memory, with the traps of the session,
and what is read of the memory is there. -/
structure HasProgram (own : AddressSpace) (s : Session σ) : Prop where
  coherent : Coherent s.breakpoints (Tracee.memory s.process) own
  reads {addr : Addr} {count : Nat} {bytes : List UInt8} :
    Tracee.readMemory s.process addr count = .ok bytes →
      (Tracee.memory s.process).Holds addr bytes

/-- Two sessions that stand at the same place of the same program. The breakpoints can be others,
and so can the bytes in memory, but not how many of them can be read. -/
structure SameProgram (own : AddressSpace) (s t : Session σ) : Prop where
  left : s.HasProgram own
  right : t.HasProgram own
  index : s.index = t.index
  registers : Tracee.registers s.process = Tracee.registers t.process
  lengths (addr : Addr) (count : Nat) :
    (Tracee.readMemory s.process addr count).map List.length =
      (Tracee.readMemory t.process addr count).map List.length

variable {own : AddressSpace}

/-- Two sessions of the same program show the same code. -/
theorem SameProgram.code_eq (h : SameProgram own s t) (addr : Addr) (count : Nat) :
    s.code addr count = t.code addr count := by
  have hlength := h.lengths addr count
  unfold code
  rcases hs : Tracee.readMemory s.process addr count with e | bytes <;>
    rcases ht : Tracee.readMemory t.process addr count with e' | bytes' <;>
    rw [hs, ht] at hlength
  · exact congrArg Except.error (Except.error.inj hlength)
  · cases hlength
  · cases hlength
  · have hlength : bytes.length = bytes'.length := Except.ok.inj hlength
    have hleft := (h.left.coherent.unpatch_holds (h.left.reads hs)).inPlace
    have hright := (h.right.coherent.unpatch_holds (h.right.reads ht)).inPlace
    rw [length_unpatch] at hleft hright
    -- both are the bytes of the program, and as many
    refine congrArg Except.ok ?_
    rw [← hleft, ← hright, hlength]

/-- What is shown of code does not depend on breakpoints. The bytes that are read are those of the
program once the traps are taken away. In two sessions with different breakpoints in one program a
disassembly is the same or fails in the same way, apart from the marks at the instructions that have
a breakpoint, and every instruction is decoded in the same way. -/
theorem code_shown (h : SameProgram own s t) :
    (∀ addr count bytes, Tracee.readMemory s.process addr count = .ok bytes →
      (s.breakpoints.unpatch addr bytes).length = bytes.length ∧
        own.Holds addr (s.breakpoints.unpatch addr bytes)) ∧
      (∃ shown : Except DebugError (Addr × Disassembly),
        disassemble s = some
          (shown.map fun (pc, d) => .disassembly pc (d.marked s.breakpoints), s) ∧
        disassemble t = some
          (shown.map fun (pc, d) => .disassembly pc (d.marked t.breakpoints), t)) ∧
      ∀ pc, ∃ result, instructionAt pc s = some (result, s) ∧
        instructionAt pc t = some (result, t) := by
  have hcode : s.code = t.code := funext fun addr => funext (h.code_eq addr)
  refine ⟨fun addr count bytes hread => ⟨length_unpatch _ _ _,
    h.left.coherent.unpatch_holds (h.left.reads hread)⟩, ⟨_, disassemble_eq s, ?_⟩, fun pc => ?_⟩
  · rw [disassemble_eq t, h.index, h.registers, hcode]
  · exact ⟨_, instructionAt_eq s pc, by rw [instructionAt_eq t, hcode]⟩

/-! ### Processes of which everything can be read -/

/-- How much of the memory can be read does not depend on the traps in it. -/
theorem sameProgram_of_readsAll (hs : Tracee.ReadsAll s.process) (ht : Tracee.ReadsAll t.process)
    (hleft : Coherent s.breakpoints (Tracee.memory s.process) own)
    (hright : Coherent t.breakpoints (Tracee.memory t.process) own) (hindex : s.index = t.index)
    (hregisters : Tracee.registers s.process = Tracee.registers t.process) :
    SameProgram own s t where
  left := ⟨hleft, hs.holds⟩
  right := ⟨hright, ht.holds⟩
  index := hindex
  registers := hregisters
  lengths addr count := by
    have hlength {u : Session σ} (hu : Tracee.ReadsAll u.process)
        (hcoherent : Coherent u.breakpoints (Tracee.memory u.process) own) :
        ((Tracee.memory u.process).bytesFrom addr count).length =
          (own.bytesFrom addr count).length := by
      rw [← hcoherent.unpatch_bytesFrom hu.memory_last, length_unpatch]
    rw [hs.readMemory, ht.readMemory]
    exact congrArg Except.ok ((hlength hs hleft).trans (hlength ht hright).symm)

/-- A call and an instruction that does nothing, and behind them the end of the program. -/
def callMemory : AddressSpace := fun a =>
  (a.distanceFrom? ⟨0x1000⟩).bind fun n => [0xe8, 2, 0, 0, 0, 0x90, 0xf4][n.toNat]?

/-- A program that stands before a call, with some breakpoints. -/
def callWith (table : BreakpointTable) (hlast : callMemory.withTraps table Addr.last = none) :
    Session NopProcess where
  debuggee := ⟨⟨Registers.zero.setPc ⟨0x1000⟩, callMemory.withTraps table, true, hlast⟩, table⟩
  index :=
    { DebugIndex.empty "/" with
      functions := [⟨"f", ⟨0x1000⟩, ⟨0x1006⟩, [], 1, true, 0, []⟩] }
  frames := none
  pendingSignal := none
  bias := .null
  listRange := Listing.defaultRange
  files := ⟨"/", []⟩

/-- A trap at the call. -/
def trapAtCall : BreakpointTable := [⟨⟨0x1000⟩, 0xe8, "a.c", 1, .user⟩]

/-- Traps behind the function, in the middle of the call, and behind it. -/
def trapsBesideCall : BreakpointTable :=
  [⟨⟨0x1006⟩, 0xf4, "a.c", 3, .user⟩, ⟨⟨0x1002⟩, 0, "a.c", 1, .internal⟩,
    ⟨⟨0x1005⟩, 0x90, "a.c", 2, .user⟩]

/-- Both show the same two instructions. -/
theorem code_shown_call :
    ∃ d : Disassembly,
      disassemble (callWith trapAtCall rfl) =
        some (.ok (.disassembly ⟨0x1000⟩ (d.marked trapAtCall)), callWith trapAtCall rfl) ∧
      disassemble (callWith trapsBesideCall rfl) =
        some
          (.ok (.disassembly ⟨0x1000⟩ (d.marked trapsBesideCall)), callWith trapsBesideCall rfl) ∧
      d.instructions.map (·.raw) = [[0xe8, 2, 0, 0, 0], [0x90]] ∧
      instructionAt ⟨0x1000⟩ (callWith trapsBesideCall rfl) =
        some (.ok ⟨5, true⟩, callWith trapsBesideCall rfl) := by
  have hcoherent (table : BreakpointTable) (hlast : callMemory.withTraps table Addr.last = none)
      (hdistinct : (table.map (·.addr)).Nodup)
      (hsaved : ∀ b ∈ table, callMemory b.addr = some b.saved) :
      Coherent (callWith table hlast).breakpoints
        (Tracee.memory (callWith table hlast).process) callMemory := by
    rw [(NopProcess.shows rfl).memory]
    exact coherent_withTraps hdistinct hsaved
  have hsame : SameProgram callMemory (callWith trapAtCall rfl) (callWith trapsBesideCall rfl) :=
    sameProgram_of_readsAll (NopProcess.readsAll rfl) (NopProcess.readsAll rfl)
      (hcoherent _ _ (by decide) (by decide)) (hcoherent _ _ (by decide) (by decide)) rfl rfl
  obtain ⟨-, ⟨shown, hleft, hright⟩, hdecoded⟩ := code_shown hsame
  -- what the first one shows is evaluated
  have hview : (disassemble (callWith trapAtCall rfl)).any (fun r => r.1.toOption.any fun
      | .disassembly pc d =>
        pc == ⟨0x1000⟩ && d.instructions.map (·.raw) == [[0xe8, 2, 0, 0, 0], [0x90]]
      | _ => false) = true := by
    decide +kernel
  have hinstruction : (instructionAt ⟨0x1000⟩ (callWith trapAtCall rfl)).any (fun r =>
      r.1.toOption == some ⟨5, true⟩) = true := by
    decide +kernel
  rw [hleft] at hview
  rcases shown with e | ⟨pc, d⟩
  · cases hview
  obtain ⟨hpc, hraw⟩ := Bool.and_eq_true_iff.1 hview
  obtain rfl := beq_iff_eq.1 hpc
  have hraw := beq_iff_eq.1 hraw
  rw [Disassembly.marked, List.map_map] at hraw
  obtain ⟨result, hfirst, hsecond⟩ := hdecoded ⟨0x1000⟩
  rw [hfirst] at hinstruction
  rcases result with e | info
  · cases hinstruction
  obtain rfl : info = ⟨5, true⟩ := Option.some.inj (beq_iff_eq.1 hinstruction)
  exact ⟨d, hleft, hright, hraw, hsecond⟩

end Session

end SourceDebugger
