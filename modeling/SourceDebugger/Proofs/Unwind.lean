import SourceDebugger.CallFrame.Unwind
import SourceDebugger.Proofs.FrameTable
import SourceDebugger.Proofs.SortedMap

/-!
# Unwinding finds the row of the table

The replay of call frame instructions stops as soon as its location lies behind the address in
question, and never looks at what follows. Still it ends with the row of the table in which the
address lies, `FrameIndex.unwind_eq_row`.

An encoded instruction is taken from its bytes, `FrameTable.Op.Encoded.takes`, and executed as its
meaning says, `UnwindState.step_table`; the replay is an induction over the instructions.
-/

namespace SourceDebugger

open FrameTable Read

/-! ### What the replay stands for -/

/-- What a rule means. -/
def RegisterRule.table : RegisterRule → FrameTable.Rule
  | undefined => .undefined
  | sameValue => .sameValue
  | offset n => .offset n.toInt
  | valOffset n => .valOffset n.toInt
  | register number => .register number
  | expression expr => .expression expr
  | valExpression expr => .valExpression expr

/-- What a rule of the frame address means. -/
def CfaRule.table : CfaRule → FrameTable.Cfa
  | undefined => .undefined
  | registerOffset reg n => .registerOffset reg n.toInt
  | expression expr => .expression expr

/-- What the rules of registers mean. -/
def FrameTable.Rules.ofMap (rules : RegisterRules) : FrameTable.Rules :=
  fun reg => (SortedMap.find? rules reg).map RegisterRule.table

/-- The state of the table that a state of the replay stands for. -/
def UnwindState.table (st : UnwindState) : FrameTable.State where
  location := st.location.val.toNat
  cfa := st.cfa.table
  rules := .ofMap st.rules
  stack := st.remembered.map fun (cfa, rules) => (cfa.table, .ofMap rules)

/-- The context in which the table is made. -/
def UnwindContext.table (ctx : UnwindContext) : FrameTable.Context where
  codeAlignment := ctx.codeAlignment.toNat
  dataAlignment := ctx.dataAlignment.toInt
  bias := ctx.bias.val.toNat
  initial := .ofMap ctx.initial

namespace FrameTable

/-! ### Decoding -/

/-- An instruction with its numbers as words. -/
def Op.instruction : Op → FrameInstruction
  | nop => .nop
  | setLocation addr => .setLocation (UInt64.ofNat addr)
  | advance delta => .advance (UInt64.ofNat delta)
  | offset reg n => .offset reg (Int64.ofInt n)
  | offsetSigned reg n => .offset reg (Int64.ofInt n)
  | valOffset reg n => .valOffset reg (Int64.ofInt n)
  | valOffsetSigned reg n => .valOffset reg (Int64.ofInt n)
  | restore reg => .restore reg
  | undefined reg => .undefined reg
  | sameValue reg => .sameValue reg
  | register reg other => .register reg other
  | rememberState => .rememberState
  | restoreState => .restoreState
  | defCfa reg n => .defCfa reg (Int64.ofInt n)
  | defCfaSigned reg n => .defCfaFactored reg (Int64.ofInt n)
  | defCfaRegister reg => .defCfaRegister reg
  | defCfaOffset n => .defCfaOffset (Int64.ofInt n)
  | defCfaOffsetSigned n => .defCfaOffsetFactored (Int64.ofInt n)
  | defCfaExpression expr => .defCfaExpression expr
  | expression reg expr => .expression reg expr
  | valExpression reg expr => .valExpression reg expr

open FrameInstruction Leb128

/-- A register is taken from any encoding of its number. -/
theorem takes_register {n : Nat} {bs : List UInt8} (h : IsUnsigned n bs) (hn : n < 2 ^ 16) :
    Takes takeRegister bs n := by
  have hword : (UInt64.ofNat n).toNat = n :=
    UInt64.toNat_ofNat_of_lt' (Nat.lt_trans hn (by decide))
  have hsize : n < UInt16.size := hn
  refine (h.takes (by omega)).map ?_
  rw [hword, if_pos hsize]

/-- An offset is taken from any encoding of a number that has a sign bit to spare. -/
theorem takes_offset {n : Nat} {bs : List UInt8} (h : IsUnsigned n bs) (hn : n < 2 ^ 63) :
    Takes takeUnsigned bs (Int64.ofInt n) := by
  have hword : (UInt64.ofNat n).toNat = n :=
    UInt64.toNat_ofNat_of_lt' (Nat.lt_trans hn (by decide))
  have hlt : UInt64.ofNat n < 0x8000000000000000 := by
    rw [UInt64.lt_iff_toNat_lt, hword]
    exact hn
  refine (h.takes (by omega)).map ?_
  rw [if_pos hlt, toInt64_of_emod (by rw [hword])]

/-- An expression is taken from a block with its length before it. -/
theorem takes_expression {expr bs : List UInt8} (h : IsBlock expr bs) :
    Takes takeExpression bs expr := by
  obtain ⟨ls, hls, rfl⟩ := h.eq_append
  refine (hls.takes h.length_lt).bind ?_
  rw [UInt64.toNat_ofNat_of_lt' h.length_lt]
  exact ByteReader.takes_bytes expr

/-- An opcode that holds an operand in itself. -/
theorem opcode_of_lt {n : Nat} (h : n < 64) :
    (UInt8.ofNat (0x40 + n) &&& 0xc0 = 0x40 ∧ UInt8.ofNat (0x40 + n) &&& 0x3f = UInt8.ofNat n) ∧
    (UInt8.ofNat (0x80 + n) &&& 0xc0 = 0x80 ∧ UInt8.ofNat (0x80 + n) &&& 0x3f = UInt8.ofNat n) ∧
    UInt8.ofNat (0xc0 + n) &&& 0xc0 = 0xc0 ∧ UInt8.ofNat (0xc0 + n) &&& 0x3f = UInt8.ofNat n := by
  -- there are 64 operands
  have hall : ∀ m : Fin 64,
      (UInt8.ofNat (0x40 + m) &&& 0xc0 = 0x40 ∧ UInt8.ofNat (0x40 + m) &&& 0x3f = UInt8.ofNat m) ∧
      (UInt8.ofNat (0x80 + m) &&& 0xc0 = 0x80 ∧ UInt8.ofNat (0x80 + m) &&& 0x3f = UInt8.ofNat m) ∧
      UInt8.ofNat (0xc0 + m) &&& 0xc0 = 0xc0 ∧ UInt8.ofNat (0xc0 + m) &&& 0x3f = UInt8.ofNat m := by
    decide
  exact hall ⟨n, h⟩

/-- An instruction whose opcode has no operand in itself. -/
theorem takes_of_extended {op : UInt8} (hop : op &&& 0xc0 = 0) {bs : List UInt8}
    {i : FrameInstruction} (h : Takes (takeExtended op) bs i) : Takes take (op :: bs) i := by
  refine (ByteReader.takes_uint8 op).bind ?_
  simp only [hop]
  exact h

/-- A register behind an opcode. -/
theorem takes_one {op : UInt8} (hop : op &&& 0xc0 = 0) {f : Nat → FrameInstruction}
    (hf : takeExtended op = do return f (← takeRegister)) {reg : Nat} {rs : List UInt8}
    (h : IsUnsigned reg rs) (hreg : reg < 2 ^ 16) : Takes take (op :: rs) (f reg) := by
  refine takes_of_extended hop ?_
  rw [hf]
  exact (takes_register h hreg).map rfl

/-- A register and something else behind an opcode. -/
theorem takes_two {α : Type} {op : UInt8} (hop : op &&& 0xc0 = 0) {x : Read α}
    {f : Nat → α → FrameInstruction}
    (hf : takeExtended op = do
      let reg ← takeRegister
      return f reg (← x)) {reg : Nat} {a : α}
    {rs bs : List UInt8} (h : IsUnsigned reg rs) (hreg : reg < 2 ^ 16) (hx : Takes x bs a) :
    Takes take (op :: (rs ++ bs)) (f reg a) := by
  refine takes_of_extended hop ?_
  rw [hf]
  exact (takes_register h hreg).bind (hx.map rfl)

/-- No instruction is encoded in no bytes. -/
theorem Op.Encoded.ne_nil {op : Op} {bs : List UInt8} (h : op.Encoded bs) : bs ≠ [] := by
  cases h <;> exact List.cons_ne_nil _ _

/-- An instruction is taken from the bytes that encode it. -/
theorem Op.Encoded.takes {op : Op} {bs : List UInt8} (h : op.Encoded bs) (hrange : op.InRange) :
    Takes take bs op.instruction := by
  cases h with
  | nop => exact takes_of_extended (by decide) (Takes.pure _)
  | setLocation haddr =>
    exact takes_of_extended (by decide) ((ByteReader.takes_uint64 haddr).map rfl)
  | @advance delta hdelta =>
    obtain ⟨hhigh, hlow⟩ := (opcode_of_lt hdelta).1
    refine (ByteReader.takes_uint8 _).map ?_
    have hword := UInt8.toUInt64_ofNat' (Nat.lt_trans hdelta (by decide : 64 < UInt8.size))
    simp only [hhigh, hlow, hword, Op.instruction]
  | @advance1 delta =>
    refine takes_of_extended (by decide) ((ByteReader.takes_uint8 delta).map ?_)
    rw [← UInt64.ofNat_uInt8ToNat]
    rfl
  | @advance2 delta hdelta =>
    refine takes_of_extended (by decide) ((ByteReader.takes_uint16 hdelta).map ?_)
    rw [UInt16.toUInt64_ofNat' hdelta]
    rfl
  | @advance4 delta hdelta =>
    refine takes_of_extended (by decide) ((ByteReader.takes_uint32 hdelta).map ?_)
    rw [UInt32.toUInt64_ofNat' hdelta]
    rfl
  | @offset reg n bs hreg hn =>
    obtain ⟨hhigh, hlow⟩ := (opcode_of_lt hreg).2.1
    have hbyte := UInt8.toNat_ofNat_of_lt' (Nat.lt_trans hreg (by decide : 64 < UInt8.size))
    refine (ByteReader.takes_uint8 _).bind ?_
    simp only [hhigh, hlow, hbyte]
    exact (takes_offset hn hrange.2).map rfl
  | @restore reg hreg =>
    obtain ⟨hhigh, hlow⟩ := (opcode_of_lt hreg).2.2
    have hbyte := UInt8.toNat_ofNat_of_lt' (Nat.lt_trans hreg (by decide : 64 < UInt8.size))
    refine (ByteReader.takes_uint8 _).map ?_
    simp only [hhigh, hlow, hbyte, Op.instruction]
  | rememberState | restoreState => exact takes_of_extended (by decide) (Takes.pure _)
  -- the others have one operand or two behind the opcode, the first of them a register
  | restoreExtended hreg | undefined hreg | sameValue hreg | defCfaRegister hreg =>
    exact takes_one (by decide) rfl hreg hrange
  | offsetExtended hreg hn | valOffset hreg hn | defCfa hreg hn =>
    exact takes_two (by decide) rfl hreg hrange.1 (takes_offset hn hrange.2)
  | offsetSigned hreg hn | valOffsetSigned hreg hn | defCfaSigned hreg hn =>
    exact takes_two (by decide) rfl hreg hrange hn.takes
  | register hreg hother =>
    exact takes_two (by decide) rfl hreg hrange.1 (takes_register hother hrange.2)
  | expression hreg hexpr | valExpression hreg hexpr =>
    exact takes_two (by decide) rfl hreg hrange (takes_expression hexpr)
  | defCfaOffset hn => exact takes_of_extended (by decide) ((takes_offset hn hrange).map rfl)
  | defCfaOffsetSigned hn => exact takes_of_extended (by decide) (hn.takes.map rfl)
  | defCfaExpression hexpr =>
    exact takes_of_extended (by decide) ((takes_expression hexpr).map rfl)

end FrameTable

/-! ### Execution -/

/-- A product that is a signed word. -/
theorem toInt_ofInt_mul {n : Int} {d : Int64} (h : Fits (n * d.toInt)) :
    (Int64.ofInt n * d).toInt = n * d.toInt := by
  have hmul : Int64.ofInt n * d = Int64.ofInt (n * d.toInt) := by
    rw [Int64.ofInt_mul, Int64.ofInt_toInt]
  rw [hmul, Int64.toInt_ofInt_of_le h.1 h.2]

/-- A number below the sign bit keeps its value. -/
theorem toInt_ofInt_natCast {n : Nat} (h : n < 2 ^ 63) : (Int64.ofInt n).toInt = n :=
  Int64.toInt_ofInt_of_le (by omega) (by omega)

/-- A sum that is an address. -/
theorem Addr.exists_add? {a : Addr} {n : UInt64} (h : a.val.toNat + n.toNat < 2 ^ 64) :
    ∃ b, a.add? n = some b ∧ b.val.toNat = a.val.toNat + n.toNat :=
  ⟨a + n, if_pos h, Addr.toNat_add?_of_eq_some (if_pos h)⟩

namespace UnwindState

variable {ctx : UnwindContext} {st : UnwindState}

/-- Setting a rule sets it in the row of the table. -/
theorem table_setRule (st : UnwindState) (reg : Nat) (rule : RegisterRule) :
    (st.setRule reg rule).table = st.table.setRule reg (some rule.table) := by
  have hrules : Rules.ofMap (SortedMap.update st.rules reg rule fun _ => rule) =
      fun r => if r = reg then some rule.table else Rules.ofMap st.rules r := by
    funext r
    -- the rule of this register is new, and the others are found as before
    by_cases hr : r = reg
    · rw [Rules.ofMap, hr, SortedMap.find?_update_self, if_pos rfl]
      rfl
    · rw [Rules.ofMap, SortedMap.find?_update_of_ne _ _ _ hr, if_neg hr]
      rfl
  simp only [setRule, table, State.setRule, hrules]

/-- Restoring a rule sets the one of the initial row. -/
theorem table_restoreRule (ctx : UnwindContext) (st : UnwindState) (reg : Nat) :
    (st.restoreRule ctx reg).table = st.table.setRule reg (ctx.table.initial reg) := by
  have hinitial : ctx.table.initial reg =
      (SortedMap.find? ctx.initial reg).map RegisterRule.table := rfl
  unfold restoreRule
  rw [hinitial]
  -- the common entry has a rule for the register, or it has none
  split
  · rename_i rule hrule
    rw [table_setRule, hrule]
    rfl
  · rename_i hnone
    have hrules : Rules.ofMap (st.rules.filter (·.1 != reg)) =
        fun r => if r = reg then none else Rules.ofMap st.rules r := by
      funext r
      rw [Rules.ofMap, SortedMap.find?_filter]
      by_cases hr : r = reg
      · rw [if_pos hr, if_pos hr]
        rfl
      · rw [if_neg hr, if_neg hr]
        rfl
    simp only [table, State.setRule, hrules, hnone, Option.map_none]

/-- The location is moved on by a number of units. -/
theorem advance_ofNat {delta : Nat}
    (h : st.location.val.toNat + delta * ctx.codeAlignment.toNat < 2 ^ 64) :
    ∃ location, st.advance ctx (UInt64.ofNat delta) = .ok { st with location } ∧
      location.val.toNat = st.location.val.toNat + delta * ctx.codeAlignment.toNat := by
  -- with a unit of zero the number can be anything
  have hproduct : (UInt64.ofNat delta).toNat * ctx.codeAlignment.toNat =
      delta * ctx.codeAlignment.toNat := by
    rcases Nat.eq_zero_or_pos ctx.codeAlignment.toNat with hzero | hpos
    · rw [hzero, Nat.mul_zero, Nat.mul_zero]
    · have hle := Nat.le_mul_of_pos_right delta hpos
      rw [UInt64.toNat_ofNat_of_lt' (Nat.lt_of_le_of_lt (by omega) h)]
  have hword : (UInt64.ofNat delta * ctx.codeAlignment).toNat =
      delta * ctx.codeAlignment.toNat := by
    rw [UInt64.toNat_mul, hproduct, Nat.mod_eq_of_lt (by omega)]
  obtain ⟨b, hadd, hb⟩ := Addr.exists_add? (a := st.location) (by rwa [hword])
  rw [hword] at hb
  refine ⟨b, ?_, hb⟩
  have hfits : delta * ctx.codeAlignment.toNat < UInt64.size :=
    Nat.lt_of_le_of_lt (Nat.le_add_left _ _) h
  simp only [advance, hproduct, hadd, if_pos hfits]

/-- A row that counts from a register is one of a state that does. -/
theorem registerOffset_of_onRegister (h : st.table.cfa.OnRegister) :
    ∃ reg n, st.cfa = .registerOffset reg n := by
  obtain ⟨location, _ | ⟨reg, n⟩ | expr, rules, remembered⟩ := st
  · exact h.elim
  · exact ⟨reg, n, rfl⟩
  · exact h.elim

/-- A legal instruction does what it means. -/
theorem step_table {op : Op} (h : op.Legal ctx.table st.table) :
    ∃ st', st.step ctx op.instruction = .ok st' ∧ st'.table = op.next ctx.table st.table := by
  obtain ⟨hrange, hlegal⟩ := h
  -- one case for each operation: its row is computed from the table of the state
  cases op with
  | nop => exact ⟨st, rfl, rfl⟩
  | setLocation addr =>
    -- a legal address does not overflow with the bias
    have hlegal : ctx.bias.val.toNat + addr < 2 ^ 64 := hlegal.2
    have haddr := UInt64.toNat_ofNat_of_lt' (Nat.lt_of_le_of_lt (Nat.le_add_left _ _) hlegal)
    obtain ⟨b, hadd, hb⟩ := Addr.exists_add? (a := ctx.bias) (n := UInt64.ofNat addr)
      (by rwa [haddr])
    refine ⟨{ st with location := b }, by simp only [Op.instruction, step, hadd], ?_⟩
    simp only [table, Op.next, hb, haddr]
    rfl
  | advance delta =>
    obtain ⟨location, hadvance, hlocation⟩ := advance_ofNat hlegal
    refine ⟨{ st with location }, hadvance, ?_⟩
    simp only [table, Op.next, hlocation]
    rfl
  | offset reg n | offsetSigned reg n | valOffset reg n | valOffsetSigned reg n =>
    refine ⟨_, rfl, ?_⟩
    rw [table_setRule, RegisterRule.table, toInt_ofInt_mul hlegal]
    rfl
  | restore reg => exact ⟨_, rfl, table_restoreRule ctx st reg⟩
  | undefined reg | sameValue reg | register reg other | expression reg expr
  | valExpression reg expr => exact ⟨_, rfl, table_setRule st reg _⟩
  | rememberState => exact ⟨_, rfl, rfl⟩
  | restoreState =>
    -- a legal `restoreState` has something to restore
    obtain ⟨location, cfa, rules, _ | ⟨⟨cfa', rules'⟩, remembered⟩⟩ := st
    · exact absurd rfl hlegal
    · exact ⟨_, rfl, rfl⟩
  | defCfa reg n =>
    refine ⟨_, rfl, ?_⟩
    simp only [table, CfaRule.table, Op.next, toInt_ofInt_natCast hrange.2]
  | defCfaSigned reg n =>
    refine ⟨_, rfl, ?_⟩
    simp only [table, CfaRule.table, Op.next]
    rw [toInt_ofInt_mul hlegal]
    rfl
  -- a legal change of the register has a register to change
  | defCfaRegister reg =>
    obtain ⟨old, n, hcfa⟩ := registerOffset_of_onRegister hlegal
    refine ⟨_, rfl, ?_⟩
    simp only [table, hcfa, CfaRule.table, Op.next, Cfa.withRegister]
  | defCfaOffset n =>
    obtain ⟨reg, old, hcfa⟩ := registerOffset_of_onRegister hlegal
    refine ⟨{ st with cfa := .registerOffset reg (Int64.ofInt n) }, ?_, ?_⟩
    · simp only [Op.instruction, step, setCfaOffset, hcfa]
    · simp only [table, hcfa, CfaRule.table, Op.next, Cfa.withOffset, toInt_ofInt_natCast hrange]
  | defCfaOffsetSigned n =>
    obtain ⟨reg, old, hcfa⟩ := registerOffset_of_onRegister hlegal.1
    refine ⟨{ st with cfa := .registerOffset reg (Int64.ofInt n * ctx.dataAlignment) }, ?_, ?_⟩
    · simp only [Op.instruction, step, setCfaOffset, hcfa]
    · simp only [table, hcfa, CfaRule.table, Op.next, Cfa.withOffset]
      rw [toInt_ofInt_mul hlegal.2]
      rfl
  | defCfaExpression expr => exact ⟨_, rfl, rfl⟩

/-! ### The replay -/

/-- An address is passed when the location is behind it. -/
theorem isPast_iff {pc : Addr} :
    st.isPast (some pc) = true ↔ pc.val.toNat < st.location.val.toNat := by
  simp only [isPast, decide_eq_true_eq]
  exact UInt64.lt_iff_toNat_lt

/-- At the end of the bytes, or past the limit, the replay is over. -/
theorem replayFrom_of_end {limit : Option Addr} {bytes : List UInt8}
    (h : bytes = [] ∨ st.isPast limit = true) (fuel : Nat) :
    replayFrom ctx limit fuel st bytes = .ok st := by
  rcases fuel with _ | fuel
  · rfl
  rcases bytes with _ | ⟨b, rest⟩
  · rfl
  · exact if_pos (h.resolve_left (List.cons_ne_nil b rest))

/-- Before that, an instruction is taken and executed. -/
theorem replayFrom_append {limit : Option Addr} {op : Op} {bs : List UInt8} (h : op.Encoded bs)
    (hlegal : op.Legal ctx.table st.table) (hpast : st.isPast limit = false) (fuel : Nat)
    (rest : List UInt8) :
    ∃ st', st'.table = op.next ctx.table st.table ∧
      replayFrom ctx limit (fuel + 1) st (bs ++ rest) = replayFrom ctx limit fuel st' rest := by
  obtain ⟨st', hstep, htable⟩ := step_table hlegal
  refine ⟨st', htable, ?_⟩
  have htake := h.takes hlegal.1 0 rest
  -- an instruction has a first byte, so the bytes are not at their end
  obtain ⟨b, more, hb⟩ := List.exists_cons_of_ne_nil h.ne_nil
  have htake' : FrameInstruction.take (ByteReader.ofList (b :: (more ++ rest))) =
      (.ok op.instruction, ⟨0 + bs.length, rest⟩) := by
    rw [← List.cons_append, ← hb]
    exact htake
  rw [hb, List.cons_append, replayFrom, hpast, htake']
  · simp only [Bool.false_eq_true, if_false, hstep]
  · exact fun hnil => nomatch hnil

/-- Without a limit all instructions are executed. -/
theorem replayFrom_all {ops : List Op} {code : List UInt8} (h : Op.EncodedAll ops code)
    {fuel : Nat} (hfuel : code.length ≤ fuel) (hlegal : LegalAll ctx.table st.table ops) :
    ∃ st', replayFrom ctx none fuel st code = .ok st' ∧
      st'.table = final ctx.table st.table ops := by
  -- the instructions are executed one by one; each of them takes some fuel
  induction h generalizing fuel st with
  | nil => exact ⟨st, replayFrom_of_end (.inl rfl) fuel, rfl⟩
  | @cons op ops bs code hop _ ih =>
    have hpos := List.length_pos_iff.2 hop.ne_nil
    rw [List.length_append] at hfuel
    obtain ⟨fuel, rfl⟩ : ∃ n, fuel = n + 1 := ⟨fuel - 1, by omega⟩
    have hpast : st.isPast none = false := rfl
    obtain ⟨st₁, htable, hreplay⟩ := replayFrom_append hop hlegal.1 hpast fuel code
    have hfuel₁ : code.length ≤ fuel := by omega
    have hlegal₁ : LegalAll ctx.table st₁.table ops := htable ▸ hlegal.2
    obtain ⟨st', hrest, hfinal⟩ := ih hfuel₁ hlegal₁
    exact ⟨st', hreplay.trans hrest, by rw [hfinal, htable]; rfl⟩

/-- With a limit the replay ends with the row for it, whatever follows the instructions that lead
to a location behind it. -/
theorem replayFrom_row {ops : List Op} {code : List UInt8} (h : Op.EncodedAll ops code)
    {pc : Addr} {tail : List UInt8} {fuel : Nat} (hfuel : (code ++ tail).length ≤ fuel)
    (hlegal : LegalAll ctx.table st.table ops) (hst : st.location.val.toNat ≤ pc.val.toNat)
    (hend : tail = [] ∨ pc.val.toNat < (final ctx.table st.table ops).location) :
    ∃ st' row, replayFrom ctx (some pc) fuel st (code ++ tail) = .ok st' ∧
      lookup? (rows ctx.table st.table ops) pc.val.toNat = some row ∧
      st'.cfa.table = row.cfa ∧ .ofMap st'.rules = row.rules := by
  -- the row in question is the current one or a later one, until the limit is passed
  induction h generalizing fuel st with
  | nil =>
    have htail : tail = [] := hend.resolve_right (Nat.not_lt.2 hst)
    exact ⟨st, st.table.row, replayFrom_of_end (.inl htail) fuel,
      lookup?_cons_of_lt hst (by simp), rfl, rfl⟩
  | @cons op ops bs code hop _ ih =>
    have hpos := List.length_pos_iff.2 hop.ne_nil
    rw [List.append_assoc, List.length_append] at hfuel
    obtain ⟨fuel, rfl⟩ : ∃ n, fuel = n + 1 := ⟨fuel - 1, by omega⟩
    have hpast : st.isPast (some pc) = false := by
      rw [Bool.eq_false_iff, ne_eq, isPast_iff]
      omega
    obtain ⟨st₁, htable, hreplay⟩ := replayFrom_append hop hlegal.1 hpast fuel (code ++ tail)
    rw [List.append_assoc, hreplay]
    have hlegal₁ : LegalAll ctx.table st₁.table ops := htable ▸ hlegal.2
    -- the limit is not passed yet: the row is one of the rest
    by_cases hst₁ : st₁.location.val.toNat ≤ pc.val.toNat
    · have hfuel₁ : (code ++ tail).length ≤ fuel := by omega
      have hend₁ : tail = [] ∨ pc.val.toNat < (final ctx.table st₁.table ops).location := by
        rw [htable]
        exact hend
      obtain ⟨st', row, hrest, hrow, hrules⟩ := ih hfuel₁ hlegal₁ hst₁ hend₁
      refine ⟨st', row, hrest, ?_, hrules⟩
      rw [htable] at hrow
      unfold rows
      split
      · exact lookup?_cons_of_some hrow
      · exact hrow
    · -- the instruction has started a row behind the address
      have hlocation : (op.next ctx.table st.table).location = st₁.location.val.toNat := by
        rw [← htable]
        rfl
      have hmoves : op.moves = true := by
        rw [← Bool.not_eq_false]
        intro hstays
        have hsame : (op.next ctx.table st.table).location = st.table.location :=
          location_next hstays
        exact hst₁ (by rw [← hlocation, hsame]; exact hst)
      obtain ⟨hcfa, hrules⟩ := rules_next ctx.table st.table hmoves
      refine ⟨st₁, st.table.row, replayFrom_of_end (.inr ?_) fuel, ?_, ?_, ?_⟩
      · exact isPast_iff.2 (by omega)
      · rw [rows, if_pos hmoves]
        refine lookup?_cons_of_lt hst fun row hrow => ?_
        have hstart := location_le_start hlegal.2 hrow
        omega
      · rw [← htable] at hcfa
        exact hcfa
      · rw [← htable] at hrules
        exact hrules

end UnwindState

/-! ### Frames -/

/-- The state of the table before the instructions of the common entry. -/
def FrameDescription.tableStart (d : FrameDescription) : FrameTable.State :=
  ⟨d.first.val.toNat, .undefined, fun _ => none, []⟩

namespace FrameIndex

/-- What is the same for a table, once the common entry has set up its rules. -/
def tableContext (index : FrameIndex) (entry : CommonEntry) (initial : FrameTable.Rules) :
    FrameTable.Context :=
  ⟨entry.codeAlignment.toNat, entry.dataAlignment.toInt, index.bias.val.toNat, initial⟩

/-- A description that answers for an address starts at or before it. -/
theorem first_le_of_covering {index : FrameIndex} {pc : Addr} {d : FrameDescription}
    {entry : CommonEntry} (h : index.covering pc = .ok (d, entry)) :
    d.first.val.toNat ≤ pc.val.toNat := by
  -- a covering description is a candidate, and candidates contain or touch pc
  have hmem : d ∈ index.candidates pc := by
    unfold covering at h
    split at h
    · cases h
    · rename_i hone
      cases h
      rw [hone]
      exact List.mem_singleton_self _
    · cases h
  have hcovers : d.covers pc = true := by
    unfold candidates at hmem
    dsimp only at hmem
    split at hmem
    · exact (List.mem_filter.1 (List.mem_filter.1 hmem).1).2
    · exact (List.mem_filter.1 hmem).2
  unfold FrameDescription.covers at hcovers
  rw [Bool.and_eq_true, decide_eq_true_eq] at hcovers
  exact UInt64.le_iff_toNat_le.1 hcovers.1

/-- To unwind at an address is to find its row in the table. The instructions of the common entry
set up the rules `s.rules`, and those of the description make the table from there on, as far as the
first location behind the address; what follows can be anything. The frame has the rules of the last
row that does not start behind the address, and its base is computed by them. -/
theorem unwind_eq_row (index : FrameIndex) (pc : Addr) (regs : Registers) (d : FrameDescription)
    (entry : CommonEntry) (hcovering : index.covering pc = .ok (d, entry)) (initial ops : List Op)
    (code tail : List UInt8) (hinitial : Op.EncodedAll initial entry.initialInstructions)
    (hstays : ∀ op ∈ initial, op.moves = false) (hops : Op.EncodedAll ops code)
    (hcode : d.instructions = code ++ tail)
    (hlegal₀ : LegalAll (index.tableContext entry fun _ => none) d.tableStart initial)
    (s : FrameTable.State)
    (hs : final (index.tableContext entry fun _ => none) d.tableStart initial = s)
    (hlegal : LegalAll (index.tableContext entry s.rules) s ops)
    (hend : tail = [] ∨
      pc.val.toNat < (final (index.tableContext entry s.rules) s ops).location) :
    ∃ row cfa rules location,
      lookup? (rows (index.tableContext entry s.rules) s ops) pc.val.toNat = some row ∧
      cfa.table = row.cfa ∧ .ofMap rules = row.rules ∧
      index.unwind pc regs =
        (Frame.resolve pc cfa regs.debugTable).map fun frameBase =>
          { location, address := pc, cfa, rules, registers := regs.debugTable, frameBase,
            returnAddressRegister := entry.returnAddressRegister } := by
  let start : UnwindState := ⟨d.first, .undefined, [], []⟩
  let ctx : UnwindContext := ⟨entry.codeAlignment, entry.dataAlignment, index.bias, []⟩
  have hlegal₀ : LegalAll ctx.table start.table initial := hlegal₀
  -- the instructions of the common entry set up the rules, all of them
  obtain ⟨st, hcommon, hst⟩ := UnwindState.replayFrom_all hinitial (Nat.le_refl _) hlegal₀
  have htable : st.table = s := hst.trans hs
  let ctx' : UnwindContext := { ctx with initial := st.rules }
  have hctx' : ctx'.table = index.tableContext entry s.rules := by
    rw [← htable]
    rfl
  -- they start no row, so the replay goes on from the first address
  have hlocation : st.location.val.toNat ≤ pc.val.toNat := by
    have hstayed : st.location.val.toNat = d.first.val.toNat := by
      show st.table.location = _
      rw [hst]
      exact location_final hstays
    rw [hstayed]
    exact first_le_of_covering hcovering
  rw [← hctx', ← htable] at hlegal hend ⊢
  -- those of the description are replayed up to the address
  obtain ⟨st', row, hreplay, hrow, hcfa, hrules⟩ :=
    UnwindState.replayFrom_row hops (Nat.le_refl _) hlegal hlocation hend
  refine ⟨row, st'.cfa, st'.rules, st'.location, hrow, hcfa, hrules, ?_⟩
  have hcommon' : start.replay ctx none entry.initialInstructions = .ok st := hcommon
  have hreplay' : st.replay ctx' (some pc) d.instructions = .ok st' := by
    rw [UnwindState.replay, hcode]
    exact hreplay
  unfold unwind
  simp only [hcovering, bind, Except.bind]
  rw [hcommon']
  dsimp only
  rw [hreplay']
  dsimp only
  rcases Frame.resolve pc st'.cfa regs.debugTable with e | frameBase <;> rfl

/-- A description in the usual form: the frame address is eight bytes above the stack pointer, and
sixteen behind the first instruction. Behind the rows that matter there is an unknown opcode. -/
def pushed : FrameIndex where
  commonEntries := [⟨1, "", 1, -8, 16, [0x0c, 0x07, 0x08, 0x90, 0x01]⟩]
  descriptions := [⟨⟨0x1000⟩, 0x10, [0x41, 0x0e, 0x10, 0x43, 0x3f], 0⟩]
  bias := .null

open Leb128 in
/-- Behind the first instruction the frame address is sixteen bytes above the stack pointer. -/
theorem unwind_eq_row_pushed :
    ∃ f, pushed.unwind ⟨0x1002⟩ (Registers.zero.set .rsp 0x7000) = .ok f ∧
      f.cfa.table = .registerOffset 7 16 ∧ f.frameBase = ⟨0x7010⟩ := by
  have number : ∀ b : UInt8, b &&& 0x80 = 0 → IsUnsigned (group b) [b] :=
    fun b hb => ⟨.last hb, Nat.le_of_lt (by decide : 1 < maxLength), rfl⟩
  -- the encodings of the instructions are given, with one byte for each number
  have hinitial : Op.EncodedAll [.defCfa 7 8, .offset 16 1] [0x0c, 0x07, 0x08, 0x90, 0x01] :=
    .cons (.defCfa (number 7 (by decide)) (number 8 (by decide)))
      (.cons (.offset (by decide) (number 1 (by decide))) .nil)
  have hops : Op.EncodedAll [.advance 1, .defCfaOffset 16, .advance 3] [0x41, 0x0e, 0x10, 0x43] :=
    .cons (.advance (by decide))
      (.cons (.defCfaOffset (number 16 (by decide))) (.cons (.advance (by decide)) .nil))
  obtain ⟨row, cfa, rules, location, hrow, hcfa, -, hunwind⟩ :=
    unwind_eq_row pushed ⟨0x1002⟩ (Registers.zero.set .rsp 0x7000) _ _ rfl
      [.defCfa 7 8, .offset 16 1] [.advance 1, .defCfaOffset 16, .advance 3]
      [0x41, 0x0e, 0x10, 0x43] [0x3f] hinitial (by decide) hops rfl (by decide) _ rfl (by decide)
      (by decide)
  -- the row is known, so the rule of the frame's address is too
  have hrowcfa : row.cfa = .registerOffset 7 16 := by
    have hmap := congrArg (Option.map Row.cfa) hrow
    exact (Option.some.inj (hmap : some _ = some row.cfa)).symm
  rw [hrowcfa] at hcfa
  obtain ⟨n, rfl, hn⟩ : ∃ n : Int64, cfa = .registerOffset 7 n ∧ n.toInt = 16 := by
    rcases cfa with _ | ⟨reg, n⟩ | expr
    · cases hcfa
    · obtain ⟨rfl, hn⟩ := FrameTable.Cfa.registerOffset.inj hcfa
      exact ⟨n, rfl, hn⟩
    · cases hcfa
  obtain rfl : n = 16 := Int64.toInt_inj.1 hn
  exact ⟨_, hunwind, rfl, rfl⟩

end FrameIndex

end SourceDebugger
