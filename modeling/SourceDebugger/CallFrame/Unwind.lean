import SourceDebugger.CallFrame.Entry
import SourceDebugger.CallFrame.Instruction
import SourceDebugger.Index.SortedMap
import SourceDebugger.Registers

/-!
# Unwinding

The rules of the frame at an address: the instructions of the common entry set up the defaults, and
the instructions of the description are replayed until the location lies behind the address.
-/

namespace SourceDebugger

/-- How the caller's value of a register is found. -/
inductive RegisterRule where
  /-- It is lost. -/
  | undefined
  /-- It is the current value. -/
  | sameValue
  /-- It is saved at an offset from the frame address. -/
  | offset (n : Int64)
  /-- It is the frame address plus an offset. -/
  | valOffset (n : Int64)
  /-- It is in another register. -/
  | register (number : Nat)
  /-- It is saved where an expression says. -/
  | expression (expr : List UInt8)
  /-- It is the value of an expression. -/
  | valExpression (expr : List UInt8)
deriving DecidableEq, Inhabited

/-- How the canonical frame address is found. -/
inductive CfaRule where
  /-- There is no rule yet. -/
  | undefined
  /-- It is the value of a register plus an offset. -/
  | registerOffset (register : Nat) (offset : Int64)
  /-- It is given by an expression. -/
  | expression (expr : List UInt8)
deriving DecidableEq, Inhabited

/-- The rule as it stands in messages. -/
def CfaRule.text : CfaRule → String
  | undefined => "Undefined"
  | registerOffset reg offset => s!"Cfa \x7b reg: {reg}, offset: {offset.toInt} \x7d"
  | expression expr => "Expression([" ++ String.intercalate ", " (expr.map (toString ·.toNat)) ++ "])"

/-- The rules of registers, by number. -/
abbrev RegisterRules := SortedMap Nat RegisterRule

/-- The state of the replay. -/
structure UnwindState where
  /-- How far the replay got. -/
  location : Addr
  /-- The rule of the frame address. -/
  cfa : CfaRule
  /-- The rules of the registers. -/
  rules : RegisterRules
  /-- The rules that were kept for later, the last ones first. -/
  remembered : List (CfaRule × RegisterRules)
deriving DecidableEq, Inhabited

/-- What does not change during the replay. -/
structure UnwindContext where
  /-- The unit of location advances. -/
  codeAlignment : UInt64
  /-- The unit of factored offsets. -/
  dataAlignment : Int64
  /-- How far the program was moved. -/
  bias : Addr
  /-- The rules that the common entry set up. -/
  initial : RegisterRules

namespace UnwindState

/-- Gives a register a rule. -/
def setRule (st : UnwindState) (reg : Nat) (rule : RegisterRule) : UnwindState :=
  { st with rules := SortedMap.update st.rules reg rule fun _ => rule }

/-- Gives a register back the rule of the common entry, or none. -/
def restoreRule (ctx : UnwindContext) (st : UnwindState) (reg : Nat) : UnwindState :=
  match SortedMap.find? ctx.initial reg with
  | some rule => st.setRule reg rule
  | none => { st with rules := st.rules.filter (·.1 != reg) }

/-- Changes the offset of the frame address, which has to be that of a register. -/
def setCfaOffset (st : UnwindState) (offset : Int64) : Except DebugError UnwindState :=
  match st.cfa with
  | .registerOffset reg _ => .ok { st with cfa := .registerOffset reg offset }
  | _ => .error (.unresolvableFrame "CFA offset changed without a CFA register")

/-- Moves the location on. -/
def advance (ctx : UnwindContext) (st : UnwindState) (delta : UInt64) :
    Except DebugError UnwindState :=
  let moved :=
    -- the product is checked before the sum, since it would wrap around first
    if delta.toNat * ctx.codeAlignment.toNat < UInt64.size then
      st.location.add? (delta * ctx.codeAlignment)
    else none
  match moved with
  | some location => .ok { st with location }
  | none =>
    .error (.unresolvableFrame <|
      s!"advancing {st.location.text} by {delta.toNat} * {ctx.codeAlignment.toNat} overflows")

/-- Executes one instruction. -/
def step (ctx : UnwindContext) (st : UnwindState) :
    FrameInstruction → Except DebugError UnwindState
  | .nop => .ok st
  | .setLocation addr =>
    match ctx.bias.add? addr with
    | some location => .ok { st with location }
    | none => .error (.unresolvableFrame s!"set_loc {Text.Hex.marked addr.toNat} overflows")
  | .advance delta => st.advance ctx delta
  | .offset reg n => .ok (st.setRule reg (.offset (n * ctx.dataAlignment)))
  | .valOffset reg n => .ok (st.setRule reg (.valOffset (n * ctx.dataAlignment)))
  | .restore reg => .ok (st.restoreRule ctx reg)
  | .undefined reg => .ok (st.setRule reg .undefined)
  | .sameValue reg => .ok (st.setRule reg .sameValue)
  | .register reg other => .ok (st.setRule reg (.register other))
  | .rememberState => .ok { st with remembered := (st.cfa, st.rules) :: st.remembered }
  | .restoreState =>
    match st.remembered with
    | (cfa, rules) :: remembered => .ok { st with cfa, rules, remembered }
    | [] => .error (.unresolvableFrame "restore_state without remember_state")
  | .defCfa reg offset => .ok { st with cfa := .registerOffset reg offset }
  | .defCfaFactored reg n => .ok { st with cfa := .registerOffset reg (n * ctx.dataAlignment) }
  | .defCfaRegister reg =>
    -- without an offset so far, the register alone is the frame address
    let offset := match st.cfa with
      | .registerOffset _ offset => offset
      | _ => 0
    .ok { st with cfa := .registerOffset reg offset }
  | .defCfaOffset offset => st.setCfaOffset offset
  | .defCfaOffsetFactored n => st.setCfaOffset (n * ctx.dataAlignment)
  | .defCfaExpression expr => .ok { st with cfa := .expression expr }
  | .expression reg expr => .ok (st.setRule reg (.expression expr))
  | .valExpression reg expr => .ok (st.setRule reg (.valExpression expr))

/-- Whether the location lies behind the limit of a replay. -/
def isPast (st : UnwindState) : Option Addr → Bool
  | some pc => pc < st.location
  | none => false

/-- Replays the instructions in `bytes` until they end or the location is behind `limit`. Every
instruction takes a byte, so `fuel` bytes hold at most as many instructions. -/
def replayFrom (ctx : UnwindContext) (limit : Option Addr) :
    Nat → UnwindState → List UInt8 → Except DebugError UnwindState
  | 0, st, _ => .ok st
  | _, st, [] => .ok st
  | fuel + 1, st, bytes =>
    -- the instruction that would change the rules for later addresses is not executed
    if st.isPast limit then .ok st
    else
      match FrameInstruction.take (ByteReader.ofList bytes) with
      | (.error e, _) => .error e
      | (.ok i, r) =>
        match st.step ctx i with
        | .error e => .error e
        | .ok st => replayFrom ctx limit fuel st r.rest

/-- Replays a row of instructions. -/
def replay (ctx : UnwindContext) (limit : Option Addr) (st : UnwindState) (bytes : List UInt8) :
    Except DebugError UnwindState :=
  replayFrom ctx limit bytes.length st bytes

end UnwindState

/-- The frame at an address. -/
structure Frame where
  /-- How far the replay got. -/
  location : Addr
  /-- The address the frame was unwound for. -/
  address : Addr
  /-- The rule of the frame address. -/
  cfa : CfaRule
  /-- The rules of the registers. -/
  rules : RegisterRules
  /-- The values of the registers, by number. -/
  registers : List UInt64
  /-- The canonical frame address. -/
  frameBase : Addr
  /-- The number of the register that holds the return address. -/
  returnAddressRegister : Nat
deriving DecidableEq, Inhabited

namespace Frame

/-- The rule of a register; one without a rule is lost. -/
def rule (f : Frame) (reg : Nat) : RegisterRule :=
  (SortedMap.find? f.rules reg).getD .undefined

/-- Where the caller's value of a register is saved, if it is saved on the stack. -/
def savedRegister? (f : Frame) (reg : Nat) : Option Addr :=
  match f.rule reg with
  | .offset n => some (f.frameBase.offset n)
  | _ => none

/-- Where the return address is saved. -/
def returnAddressSlot? (f : Frame) : Option Addr := f.savedRegister? f.returnAddressRegister

/-- The frame address that a rule gives, if it can be computed. -/
def resolve (address : Addr) (rule : CfaRule) (registers : List UInt64) : Except DebugError Addr :=
  match rule with
  | .registerOffset reg offset =>
    match registers[reg]? with
    | none => .error (.unresolvableFrame s!"CFA register {reg} is not tracked")
    | some base =>
      if base = 0 then .error (.unresolvableFrame s!"CFA register {reg} is zero")
      else .ok ((Addr.mk base).offset offset)
  | rule => .error (.unresolvableFrame s!"CFA rule at {address.text} is {rule.text}")

end Frame

/-- The frame at `pc` for a snapshot of the registers. -/
def FrameIndex.unwind (index : FrameIndex) (pc : Addr) (regs : Registers) :
    Except DebugError Frame := do
  let (description, entry) ← index.covering pc
  let start : UnwindState := ⟨description.first, .undefined, [], []⟩
  let ctx : UnwindContext := ⟨entry.codeAlignment, entry.dataAlignment, index.bias, []⟩
  let st ← start.replay ctx none entry.initialInstructions
  let st ← st.replay { ctx with initial := st.rules } (some pc) description.instructions
  let frameBase ← Frame.resolve pc st.cfa regs.debugTable
  return {
    location := st.location
    address := pc
    cfa := st.cfa
    rules := st.rules
    registers := regs.debugTable
    frameBase
    returnAddressRegister := entry.returnAddressRegister }

end SourceDebugger
