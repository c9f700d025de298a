import SourceDebugger.Disassembly
import SourceDebugger.Proofs.WordMemory

/-!
# Tilings by instructions

Code is disassembled one instruction behind the other, and the steps of the session decode one
instruction by itself. Both rest on a decoder of which only little has to be known: a `Decoder`
takes some of the bytes that are there, and looks at no more than fifteen of them. The decoder of
the program is one, `Decoder.x86`.

* `Decoder.disassemble_tiles`: the instructions of a disassembly tile the code, and each is what is
  decoded by itself at its address. What cannot be disassembled cannot be decoded at the first
  address that is reported.
-/

namespace SourceDebugger

/-! ### What a decoder takes -/

namespace X86

/-- What is left behind what was taken is no longer than what was there. -/
def Shortens {α : Type} (x : StateT (List UInt8) Option α) : Prop :=
  ∀ bs a rest, x bs = some (a, rest) → rest.length ≤ bs.length

namespace Shortens

variable {α β : Type} {x : StateT (List UInt8) Option α}

theorem pure (a : α) : Shortens (pure a : StateT (List UInt8) Option α) := by
  rintro bs _ _ ⟨⟩
  exact Nat.le_refl _

/-- Readers in a row shorten in a row. -/
theorem bind {f : α → StateT (List UInt8) Option β} (hx : Shortens x) (hf : ∀ a, Shortens (f a)) :
    Shortens (x >>= f) := by
  intro bs b rest h
  obtain ⟨⟨a, mid⟩, hmid, hrest⟩ := Option.bind_eq_some_iff.1 h
  exact Nat.le_trans (hf a mid b rest hrest) (hx bs a mid hmid)

theorem map {f : α → β} (hx : Shortens x) : Shortens (do return f (← x)) :=
  hx.bind fun _ => pure _

/-- What takes no bytes. -/
theorem lift (a? : Option α) : Shortens (liftM a? : StateT (List UInt8) Option α) := by
  rcases a? with _ | a
  · exact nofun
  · exact pure a

theorem failure : Shortens (failure : StateT (List UInt8) Option α) := nofun

theorem ite {p : Prop} [Decidable p] {y : StateT (List UInt8) Option α} (hx : Shortens x)
    (hy : Shortens y) : Shortens (if p then x else y) := by
  split
  · exact hx
  · exact hy

/-- One byte less is left. -/
theorem takeByte : Shortens takeByte := by
  intro bs b rest h
  rcases bs with _ | ⟨b', bs⟩
  · cases h
  · cases h
    exact Nat.le_succ _

/-- What takes a byte first takes at least that one. -/
theorem length_lt_of_takeByte {f : UInt8 → StateT (List UInt8) Option β} (hf : ∀ b, Shortens (f b))
    {bs rest : List UInt8} {b : β} (h : (X86.takeByte >>= f) bs = some (b, rest)) :
    rest.length < bs.length := by
  obtain ⟨⟨c, mid⟩, hmid, hrest⟩ := Option.bind_eq_some_iff.1 h
  refine Nat.lt_of_le_of_lt (hf c mid b rest hrest) ?_
  rcases bs with _ | ⟨c, bs⟩
  · cases hmid
  · cases hmid
    exact Nat.lt_succ_self _

/-- A constant leaves what is behind its bytes. -/
theorem takeSigned (count : Nat) : Shortens (takeSigned count) := by
  intro bs n rest h
  unfold X86.takeSigned at h
  split at h
  · cases h
  · cases h
    rw [List.length_drop]
    exact Nat.sub_le _ _

/-- A byte that is only looked at is left. -/
theorem peekByte : Shortens peekByte := by
  rintro bs _ _ ⟨⟩
  exact Nat.le_refl _

theorem guard (p : Prop) [Decidable p] :
    Shortens (guard p : StateT (List UInt8) Option Unit) :=
  ite (pure _) failure

theorem takeUnits (unit : UInt64) : Shortens (takeUnits unit) := (takeSigned 1).map

/-- Behind the scale, index and base there may be a displacement. -/
theorem takeScaled (p : Prefixes) (r : MemoryReading) (mode : UInt8) :
    Shortens (ModeByte.takeScaled p r mode) := by
  refine takeByte.bind fun b => ?_
  exact ite (takeSigned 4).map (ite (takeUnits _).map (ite (takeSigned 4).map (pure 0).map))

/-- The byte behind the opcode, and what belongs to it, leaves what is behind. -/
theorem takeModeByte (p : Prefixes) (r : MemoryReading) : Shortens (ModeByte.take p r) := by
  refine takeByte.bind fun b => ite (pure _) (ite (takeScaled p r _).map ?_)
  exact ite (takeSigned 4).map (ite (takeUnits _).map (ite (takeSigned 4).map (pure 0).map))

/-- A form without such a byte takes none. -/
theorem takeFor (f : Form) (p : Prefixes) (r : MemoryReading) :
    Shortens (ModeByte.takeFor f p r) :=
  ite (takeModeByte p r).map (pure _)

/-- An operand takes a constant, or nothing that is not there already. -/
theorem takeOperand (c : OperandContext) (f : OperandForm) : Shortens (c.takeOperand f) := by
  cases f with
  | opcodeRegister s | accumulator s | named name | one | vectorThird span | generalThird s =>
    exact pure _
  | imm8 | vectorFourth span | imm4 => exact takeByte.map
  | imm8Signed s | imm16 | imm32 s | immFull s | rel8 reach | rel32 reach | relFull | absolute s =>
    exact (takeSigned _).map
  | vectorShared span => exact peekByte.bind fun b => (lift b).map
  | reg s => exact (guard _).bind fun _ => lift _
  | segmentReg | controlReg => exact (lift c.mode).bind fun mode => ite (pure _) failure
  | debugReg | mask | tile => exact (lift c.mode).bind fun mode => lift _
  | tileRegister => exact (guard _).bind fun _ => lift _
  | tileMemory => exact (lift c.mode).bind fun mode => (guard _).bind fun _ => lift _
  | _ => exact lift _

/-- Operands take their constants in a row. -/
theorem takeOperands (c : OperandContext) (fs : List OperandForm) :
    Shortens (Instruction.takeOperands c fs) := by
  induction fs with
  | nil => exact pure _
  | cons f fs ih => exact (takeOperand c f).bind fun operand => ih.map

end Shortens

/-- Prefixes end where no further byte is one. -/
theorem Prefixes.length_take_le (p : Prefixes) (bytes : List UInt8) :
    (p.take bytes).2.length ≤ bytes.length := by
  induction bytes generalizing p with
  | nil => exact Nat.le_refl _
  | cons b rest ih =>
    rw [Prefixes.take]
    split
    · exact Nat.le_succ_of_le (ih _)
    · exact Nat.le_refl _

namespace Instruction

/-- Behind a vector prefix the opcode is a single byte. -/
theorem shortens_takeVectorOpcode (p : Prefixes) (table : Nat) :
    Shortens (takeVectorOpcode p table) :=
  Shortens.takeByte.bind fun _ => (Shortens.lift _).bind fun _ => (Shortens.lift _).map

/-- The short vector prefix has one byte behind its first one. -/
theorem shortens_takeShortVector (p : Prefixes) : Shortens (takeShortVector p) :=
  Shortens.takeByte.bind fun _ => shortens_takeVectorOpcode _ _

/-- The usual vector prefix has two bytes behind its first one. -/
theorem shortens_takeLongVector (p : Prefixes) (tables : List UInt8) :
    Shortens (takeLongVector p tables) :=
  Shortens.takeByte.bind fun _ => Shortens.takeByte.bind fun _ =>
    (Shortens.guard _).bind fun _ => shortens_takeVectorOpcode _ _

/-- The vector prefix for masks and rounding has three bytes behind its first one. -/
theorem shortens_takeExtensiveVector (p : Prefixes) : Shortens (takeExtensiveVector p) :=
  Shortens.takeByte.bind fun _ => Shortens.takeByte.bind fun _ => Shortens.takeByte.bind fun _ =>
    (Shortens.guard _).bind fun _ => shortens_takeVectorOpcode _ _

/-- An opcode takes at least a byte. -/
theorem length_lt_of_takeOpcode {p : Prefixes} {bytes rest : List UInt8}
    {opcode : Prefixes × Rule × UInt8} (h : takeOpcode p bytes = some (opcode, rest)) :
    rest.length < bytes.length := by
  -- a vector prefix takes more bytes behind the first one, and an escape byte one or two
  refine Shortens.length_lt_of_takeByte (fun b => Shortens.peekByte.bind fun next => ?_) h
  refine .ite ((Shortens.guard _).bind fun _ => shortens_takeShortVector p) ?_
  refine .ite ((Shortens.guard _).bind fun _ => shortens_takeLongVector p _) ?_
  refine .ite ((Shortens.guard _).bind fun _ => shortens_takeExtensiveVector p) ?_
  refine .ite ((Shortens.guard _).bind fun _ => shortens_takeLongVector p _) ?_
  refine .ite (Shortens.lift _).map (Shortens.takeByte.bind fun b => ?_)
  refine .ite ?_ (.ite ?_ (Shortens.lift _).map)
  · exact Shortens.takeByte.bind fun b => (Shortens.lift _).map
  · exact Shortens.takeByte.bind fun b => (Shortens.lift _).map

/-- An instruction takes some of the bytes that are there, and at most fifteen. -/
theorem length_of_decode? {data : List UInt8} {address : UInt64} {i : Instruction}
    (h : decode? data address = some i) :
    0 < i.length ∧ i.length ≤ min maxInstructionLength data.length := by
  unfold decode? at h
  have hprefixes := Prefixes.none.length_take_le (data.take maxInstructionLength)
  have havailable : (data.take maxInstructionLength).length =
      min maxInstructionLength data.length := List.length_take
  generalize data.take maxInstructionLength = available at h hprefixes havailable
  obtain ⟨⟨⟨p, rule, opcode⟩, bytes⟩, hopcode, h⟩ := Option.bind_eq_some_iff.1 h
  -- the opcode takes at least one byte, the parts behind it none or more
  have hlt := length_lt_of_takeOpcode hopcode
  obtain ⟨form, -, h⟩ := Option.bind_eq_some_iff.1 h
  obtain ⟨-, -, h⟩ := Option.bind_eq_some_iff.1 h
  obtain ⟨⟨mode, bytes'⟩, hmode, h⟩ := Option.bind_eq_some_iff.1 h
  have hmode := Shortens.takeFor _ _ _ _ _ _ hmode
  obtain ⟨⟨operands, rest⟩, hoperands, h⟩ := Option.bind_eq_some_iff.1 h
  have hrest := Shortens.takeOperands _ _ _ _ _ hoperands
  obtain ⟨-, -, h⟩ := Option.bind_eq_some_iff.1 h
  dsimp only at h
  split at h
  · cases h
  · obtain ⟨⟨mnemonic, operands⟩, -, h⟩ := Option.bind_eq_some_iff.1 h
    cases h
    dsimp only
    omega

/-- What is behind the fifteenth byte is not looked at. -/
theorem decode?_take (data : List UInt8) (address : UInt64) :
    decode? (data.take maxInstructionLength) address = decode? data address := by
  unfold decode?
  rw [List.take_take, Nat.min_self]

end Instruction

end X86

/-- A decoder of instructions, of which little is known. -/
structure Decoder where
  /-- The instruction at the start of bytes that lie at an address, if there is a valid one. -/
  decode : List UInt8 → UInt64 → Option X86.Instruction
  /-- An instruction takes bytes. -/
  length_pos {data : List UInt8} {address : UInt64} {i : X86.Instruction} :
    data ≠ [] → decode data address = some i → 0 < i.length
  /-- It takes no bytes that are not there. -/
  length_le {data : List UInt8} {address : UInt64} {i : X86.Instruction} :
    data ≠ [] → decode data address = some i → i.length ≤ data.length
  /-- Only the first bytes are looked at. -/
  decode_take {data : List UInt8} {address : UInt64} :
    data ≠ [] → decode (data.take X86.maxInstructionLength) address = decode data address

namespace Decoder

/-- The decoder of the program. -/
def x86 : Decoder where
  decode := X86.Instruction.decode?
  length_pos _ h := (X86.Instruction.length_of_decode? h).1
  length_le _ h := Nat.le_trans (X86.Instruction.length_of_decode? h).2 (Nat.min_le_right _ _)
  decode_take _ := X86.Instruction.decode?_take _ _

/-- What the step engine learns from a decoder. -/
def info (D : Decoder) (data : List UInt8) (addr : Addr) : Except DebugError InstructionInfo :=
  match D.decode data addr.val with
  | some i => .ok ⟨i.length, i.flow = .call⟩
  | none => .error (.undecodable addr)

/-- What the step engine learns is what the decoder of the program says. -/
theorem x86_info : x86.info = InstructionInfo.decode := rfl

/-- The instructions of `data`, which starts at `addr`. -/
def instructions (D : Decoder) (breakpoints : List Addr) :
    Nat → List UInt8 → Addr → Except DebugError (List DisassembledInstruction)
  | _, [], _ => .ok []
  | 0, _ :: _, addr => .error (.undecodable addr)
  | fuel + 1, data, addr =>
    match D.decode data addr.val with
    | none => .error (.undecodable addr)
    | some i => do
      let rest ← D.instructions breakpoints fuel (data.drop i.length) (addr + UInt64.ofNat i.length)
      return ⟨addr, data.take i.length, i.text, breakpoints.contains addr, none⟩ :: rest

/-- The disassembly of `data`, which starts at `addr`. -/
def disassemble (D : Decoder) (data : List UInt8) (addr : Addr) (breakpoints : List Addr) :
    Except DebugError Disassembly := do
  return ⟨← D.instructions breakpoints data.length data addr, none⟩

/-- With the decoder of the program, the instructions are those of the disassembly. -/
theorem x86_instructions (breakpoints : List Addr) (fuel : Nat) (data : List UInt8) (addr : Addr) :
    x86.instructions breakpoints fuel data addr =
      Disassembly.instructionsOf breakpoints fuel data addr := by
  induction fuel generalizing data addr with
  | zero => cases data <;> rfl
  | succ fuel ih =>
    rcases data with _ | ⟨b, data⟩
    · rfl
    · simp only [instructions, Disassembly.instructionsOf, ih]
      rfl

/-- With the decoder of the program, this is its disassembly. -/
theorem x86_disassemble : x86.disassemble = Disassembly.disassemble := by
  funext data addr breakpoints
  rw [disassemble, Disassembly.disassemble, x86_instructions]

variable {D : Decoder} {breakpoints : List Addr} {data : List UInt8} {addr : Addr}

/-! ### Tilings -/

/-- The instructions tile the bytes from an address on. -/
inductive Tiles (D : Decoder) (breakpoints : List Addr) :
    Addr → List UInt8 → List DisassembledInstruction → Prop
  /-- No bytes. -/
  | nil (addr : Addr) : Tiles D breakpoints addr [] []
  /-- An instruction, and a tiling of the bytes behind it. -/
  | cons {addr : Addr} {data : List UInt8} {i : X86.Instruction}
    {rest : List DisassembledInstruction} : data ≠ [] → D.decode data addr.val = some i →
    Tiles D breakpoints (addr + UInt64.ofNat i.length) (data.drop i.length) rest →
    Tiles D breakpoints addr data
      (⟨addr, data.take i.length, i.text, breakpoints.contains addr, none⟩ :: rest)

/-- The offsets that are reached by decoding one instruction behind the other. -/
inductive Reached (D : Decoder) : Addr → List UInt8 → Nat → Prop
  /-- The first byte. -/
  | start (addr : Addr) (data : List UInt8) : Reached D addr data 0
  /-- What is reached behind an instruction. -/
  | behind {addr : Addr} {data : List UInt8} {i : X86.Instruction} {n : Nat} : data ≠ [] →
    D.decode data addr.val = some i →
    Reached D (addr + UInt64.ofNat i.length) (data.drop i.length) n →
    Reached D addr data (i.length + n)

/-- Decoding gets stuck at an offset: there are bytes left, but they are no instruction. -/
structure Stuck (D : Decoder) (addr : Addr) (data : List UInt8) (n : Nat) : Prop where
  /-- The bytes before it are instructions. -/
  reached : D.Reached addr data n
  /-- There are bytes left. -/
  lt_length : n < data.length
  /-- They are no instruction. -/
  invalid : D.decode (data.drop n) (addr + UInt64.ofNat n).val = none

/-- What is behind an instruction that was decoded. -/
theorem Stuck.behind {i : X86.Instruction} {n : Nat} (hdata : data ≠ [])
    (hdecode : D.decode data addr.val = some i)
    (h : D.Stuck (addr + UInt64.ofNat i.length) (data.drop i.length) n) :
    D.Stuck addr data (i.length + n) := by
  obtain ⟨hreached, hlt, hinvalid⟩ := h
  rw [List.length_drop] at hlt
  rw [List.drop_drop, Addr.add_ofNat_add_ofNat] at hinvalid
  exact ⟨.behind hdata hdecode hreached, by omega, hinvalid⟩

/-- If decoding gets stuck, and there is an instruction first, it gets stuck behind that. -/
theorem Stuck.of_behind {i : X86.Instruction} {n : Nat}
    (hdecode : D.decode data addr.val = some i) (h : D.Stuck addr data n) :
    ∃ m, n = i.length + m ∧ D.Stuck (addr + UInt64.ofNat i.length) (data.drop i.length) m := by
  obtain ⟨hreached, hlt, hinvalid⟩ := h
  cases hreached with
  | start =>
    simp [hdecode] at hinvalid
  | @behind _ _ j m hdata hdecode' hreached =>
    obtain rfl : i = j := Option.some.inj (hdecode.symm.trans hdecode')
    rw [← List.drop_drop, ← Addr.add_ofNat_add_ofNat] at hinvalid
    refine ⟨m, rfl, hreached, ?_, hinvalid⟩
    rw [List.length_drop]
    omega

/-- Decoding is stuck at the first address at which it fails. -/
theorem Stuck.first {m n : Nat} (h : D.Stuck addr data n) (hreached : D.Reached addr data m)
    (hne : m ≠ n) :
    m < n ∧ ∃ i, D.decode (data.drop m) (addr + UInt64.ofNat m).val = some i := by
  -- from the first byte on, `m` and `n` go behind the same instructions until `m` is reached
  induction hreached generalizing n with
  | start addr data =>
    refine ⟨Nat.pos_of_ne_zero hne.symm, ?_⟩
    cases h.reached with
    | start => exact absurd rfl hne
    | @behind _ _ i m hdata hdecode hreached => exact ⟨i, by simpa using hdecode⟩
  | @behind addr data i m hdata hdecode hreached ih =>
    obtain ⟨n, rfl, hstuck⟩ := h.of_behind hdecode
    obtain ⟨hlt, hvalid⟩ := ih hstuck (by omega)
    rw [List.drop_drop, Addr.add_ofNat_add_ofNat] at hvalid
    exact ⟨by omega, hvalid⟩

/-- One step of the disassembly. -/
theorem instructions_cons {fuel : Nat} (hdata : data ≠ []) :
    D.instructions breakpoints (fuel + 1) data addr =
      match D.decode data addr.val with
      | none => .error (.undecodable addr)
      | some i =>
        (D.instructions breakpoints fuel (data.drop i.length) (addr + UInt64.ofNat i.length)).map
          (⟨addr, data.take i.length, i.text, breakpoints.contains addr, none⟩ :: ·) := by
  rcases data with _ | ⟨b, data⟩
  · exact absurd rfl hdata
  · rw [instructions]
    · rcases D.decode (b :: data) addr.val with _ | i
      · rfl
      · dsimp only
        cases D.instructions breakpoints fuel ((b :: data).drop i.length)
          (addr + UInt64.ofNat i.length) <;> rfl
    · nofun

/-- Either the instructions tile the bytes, or decoding gets stuck. -/
theorem instructions_cases (D : Decoder) (breakpoints : List Addr) {data : List UInt8}
    (addr : Addr) {fuel : Nat} (hfuel : data.length ≤ fuel) :
    (∃ is, D.instructions breakpoints fuel data addr = .ok is ∧ D.Tiles breakpoints addr data is) ∨
    ∃ n, D.instructions breakpoints fuel data addr = .error (.undecodable (addr + UInt64.ofNat n)) ∧
      D.Stuck addr data n := by
  induction fuel generalizing data addr with
  | zero =>
    obtain rfl := List.length_eq_zero_iff.1 (Nat.le_zero.1 hfuel)
    exact .inl ⟨[], rfl, .nil addr⟩
  | succ fuel ih =>
    by_cases hdata : data = []
    · subst hdata
      exact .inl ⟨[], rfl, .nil addr⟩
    rw [instructions_cons hdata]
    rcases hdecode : D.decode data addr.val with _ | i <;> dsimp only
    · refine .inr ⟨0, ?_, .start addr data, List.length_pos_iff.2 hdata, ?_⟩
      · rw [Addr.add_zero]
      · rwa [List.drop_zero, Addr.add_zero]
    -- an instruction is not empty, so less fuel is enough for what is behind it
    have hpos := D.length_pos hdata hdecode
    have hrest : (data.drop i.length).length ≤ fuel := by
      rw [List.length_drop]
      omega
    rcases ih (addr + UInt64.ofNat i.length) hrest with ⟨is, his, htiles⟩ | ⟨n, hn, hstuck⟩
    · left
      rw [his]
      exact ⟨_, rfl, .cons hdata hdecode htiles⟩
    · right
      rw [hn]
      refine ⟨i.length + n, ?_, hstuck.behind hdata hdecode⟩
      rw [← Addr.add_ofNat_add_ofNat]
      rfl

namespace Tiles

variable {is : List DisassembledInstruction}

/-- Nothing is left out, and nothing is there twice. -/
theorem flatMap_raw (h : D.Tiles breakpoints addr data is) : is.flatMap (·.raw) = data := by
  induction h with
  | nil addr => rfl
  | cons hdata hdecode htiles ih =>
    rw [List.flatMap_cons, ih]
    exact List.take_append_drop _ _

/-- Each instruction is what is decoded at its place. -/
theorem at_place (h : D.Tiles breakpoints addr data is)
    {before after : List DisassembledInstruction} {i : DisassembledInstruction}
    (his : is = before ++ i :: after) :
    let offset := (before.map (·.raw.length)).sum
    offset < data.length ∧ i.addr = addr + UInt64.ofNat offset ∧
      i.hasBreakpoint = breakpoints.contains i.addr ∧
      ∃ x, D.decode (data.drop offset) i.addr.val = some x ∧ x.length = i.raw.length := by
  induction h generalizing before with
  | nil addr => simp at his
  | @cons addr data x rest hdata hdecode htiles ih =>
    -- the instructions before this one have as many bytes as they were decoded with
    have hraw : (data.take x.length).length = x.length :=
      List.length_take_of_le (D.length_le hdata hdecode)
    rcases before with _ | ⟨j, before⟩
    · obtain ⟨rfl, -⟩ := List.cons.inj his
      exact ⟨List.length_pos_iff.2 hdata, (Addr.add_zero addr).symm, rfl, x, hdecode, hraw.symm⟩
    · obtain ⟨rfl, hrest⟩ := List.cons.inj his
      obtain ⟨hlt, haddr, hbreakpoint, y, hy, hlength⟩ := ih hrest
      rw [List.length_drop] at hlt
      rw [Addr.add_ofNat_add_ofNat] at haddr
      rw [List.drop_drop] at hy
      rw [List.map_cons, List.sum_cons, hraw]
      exact ⟨by omega, haddr, hbreakpoint, y, hy, hlength⟩

end Tiles

/-- The instructions of a disassembly tile the bytes: their bytes are those of the data, each stands
behind those before it, it is marked if and only if it has a breakpoint, and what is decoded by
itself there has its length. If there is no disassembly, the address that is reported is the first
one at which nothing can be decoded. All of this holds for any decoder; that of the program is
`x86`. -/
theorem disassemble_tiles (D : Decoder) {data : List UInt8} {start : Addr}
    (hspace : start.toNat + data.length ≤ 2 ^ 64) (breakpoints : List Addr) :
    (∀ d, D.disassemble data start breakpoints = .ok d →
      d.instructions.flatMap (·.raw) = data ∧
      ∀ before i after, d.instructions = before ++ i :: after →
        let offset := (before.map (·.raw.length)).sum
        i.addr.toNat = start.toNat + offset ∧ (i.hasBreakpoint = true ↔ i.addr ∈ breakpoints) ∧
        ∃ info, D.info (data.drop offset) i.addr = .ok info ∧
          D.info ((data.drop offset).take X86.maxInstructionLength) i.addr = .ok info ∧
          info.length = i.raw.length) ∧
    (∀ e, D.disassemble data start breakpoints = .error e →
      ∃ n, D.Stuck start data n ∧ e = .undecodable (start + UInt64.ofNat n) ∧
        (start + UInt64.ofNat n).toNat = start.toNat + n ∧
        ∀ m, D.Reached start data m → m ≠ n →
          m < n ∧ ∃ i, D.decode (data.drop m) (start + UInt64.ofNat m).val = some i) ∧
    x86.disassemble = Disassembly.disassemble ∧ x86.info = InstructionInfo.decode := by
  -- either the bytes are used up, or there is a first place where decoding fails
  rcases D.instructions_cases breakpoints start (Nat.le_refl data.length) with
    ⟨is, his, htiles⟩ | ⟨n, hn, hstuck⟩
  · have hd : D.disassemble data start breakpoints = .ok ⟨is, none⟩ := by
      rw [disassemble, his]
      rfl
    rw [hd]
    refine ⟨?_, nofun, x86_disassemble, x86_info⟩
    rintro _ ⟨⟩
    refine ⟨htiles.flatMap_raw, ?_⟩
    intro before i after hsplit
    obtain ⟨hlt, haddr, hbreakpoint, x, hx, hlength⟩ := htiles.at_place hsplit
    -- an instruction of the listing is not empty, so there are bytes at its place
    have hpart : data.drop (before.map (·.raw.length)).sum ≠ [] := by
      rw [← List.length_pos_iff, List.length_drop]
      omega
    refine ⟨?_, ?_, ⟨x.length, x.flow = .call⟩, ?_, ?_, hlength⟩
    · rw [haddr]
      exact Addr.toNat_add_ofNat (by omega)
    · rw [hbreakpoint]
      exact List.contains_iff_mem
    · rw [info, hx]
    · rw [info, D.decode_take hpart, hx]
  · have he : D.disassemble data start breakpoints =
        .error (.undecodable (start + UInt64.ofNat n)) := by
      rw [disassemble, hn]
      rfl
    rw [he]
    refine ⟨nofun, ?_, x86_disassemble, x86_info⟩
    rintro _ ⟨⟩
    -- what can not be decoded lies inside of the bytes, so its address does not wrap around
    have hlt := hstuck.lt_length
    refine ⟨n, hstuck, rfl, Addr.toNat_add_ofNat (by omega), ?_⟩
    intro m hreached hne
    exact hstuck.first hreached hne

/-- A `call` and a `ret`. -/
def callAndReturn : List UInt8 := [0xe8, 0x0a, 0, 0, 0, 0xc3]

/-- The disassembly can reach to the last address that there is, and behind a `nop` it fails at a
byte that is no instruction. -/
theorem disassemble_tiles_callAndReturn :
    (∃ d, Disassembly.disassemble callAndReturn ⟨0xfffffffffffffffa⟩ [⟨0xffffffffffffffff⟩] =
        .ok d ∧ d.instructions.flatMap (·.raw) = callAndReturn ∧
      ∀ before i after, d.instructions = before ++ i :: after →
        i.addr.toNat = 0xfffffffffffffffa + (before.map (·.raw.length)).sum ∧
        (i.hasBreakpoint = true ↔ i.addr ∈ [⟨0xffffffffffffffff⟩])) ∧
    ∃ n, x86.Stuck ⟨0x2000⟩ [0x90, 0x06] n ∧
      Disassembly.disassemble [0x90, 0x06] ⟨0x2000⟩ [] =
        .error (.undecodable (Addr.mk 0x2000 + UInt64.ofNat n)) := by
  constructor
  · have hspace : (Addr.mk 0xfffffffffffffffa).toNat + callAndReturn.length ≤ 2 ^ 64 := by decide
    have htiles := x86.disassemble_tiles hspace [⟨0xffffffffffffffff⟩]
    rw [x86_disassemble] at htiles
    rcases hd : Disassembly.disassemble callAndReturn ⟨0xfffffffffffffffa⟩
      [⟨0xffffffffffffffff⟩] with e | d
    · have hok : (Disassembly.disassemble callAndReturn ⟨0xfffffffffffffffa⟩
          [⟨0xffffffffffffffff⟩]).toOption.isSome := by decide +kernel
      rw [hd] at hok
      cases hok
    · obtain ⟨hraw, hplace⟩ := htiles.1 d hd
      refine ⟨d, rfl, hraw, fun before i after hsplit => ?_⟩
      obtain ⟨haddr, hbreakpoint, -⟩ := hplace before i after hsplit
      exact ⟨haddr, hbreakpoint⟩
  · have hspace : (Addr.mk 0x2000).toNat + ([0x90, 0x06] : List UInt8).length ≤ 2 ^ 64 := by decide
    have htiles := x86.disassemble_tiles hspace []
    rw [x86_disassemble] at htiles
    have he : Disassembly.disassemble [0x90, 0x06] ⟨0x2000⟩ [] =
        .error (.undecodable ⟨0x2001⟩) := by decide +kernel
    obtain ⟨n, hstuck, herror, -⟩ := htiles.2.1 _ he
    exact ⟨n, hstuck, he.trans (congrArg _ herror)⟩

end Decoder

end SourceDebugger
