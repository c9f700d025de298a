import Std.Data.HashMap
import SourceDebugger.X86.Decode
import SourceDebugger.X86.Processor

/-!
# Execution of instructions

What the instructions for integers, for the stack and for control flow do. An instruction of any
other kind raises the signal for illegal instructions.
-/

namespace SourceDebugger.X86

open Processor

/-- What an instruction does; the program counter already is behind the instruction. -/
abbrev Effect := Instruction → Execution Completion

namespace Effect

/-- An instruction that ends plainly. -/
def ofAction (x : Instruction → Execution Unit) : Effect := fun i => do
  x i
  return .plain

/-- An instruction that raises a signal. -/
def fault (s : Signal) : Effect := fun _ => raise s

/-- An instruction without any effect that a program could see. -/
def nothing : Effect := ofAction fun _ => return ()

/-- An instruction with one operand of known width. -/
def unary (x : Width → Operand → Execution Unit) : Effect := ofAction fun i =>
  match i.operands with
  | [a] =>
    match a.width? with
    | some w => x w a
    | none => raise .ill
  | _ => raise .ill

/-- An instruction with two operands, the first of which has a known width. -/
def binary (x : Width → Operand → Operand → Execution Unit) : Effect := ofAction fun i =>
  match i.operands with
  | [a, b] =>
    match a.width? with
    | some w => x w a b
    | none => raise .ill
  | _ => raise .ill

/-- Keeps a result of arithmetic: the value, and the flags of a mask. -/
def keep (mask : UInt64) (o : Operand) (r : Arithmetic) : Execution Unit := do
  o.write r.value
  setFlags mask r.flags

/-- Arithmetic on two values that replaces the first one. -/
def arithmetic (f : Width → UInt64 → UInt64 → Bool → Arithmetic) : Effect :=
  binary fun w a b => do
    keep Flag.arithmetic a (f w (← a.read) (← b.read) (← flag Flag.carry))

/-- Arithmetic on two values of which only the flags are kept. -/
def comparison (f : Width → UInt64 → UInt64 → Arithmetic) : Effect :=
  binary fun w a b => do
    setFlags Flag.arithmetic (f w (← a.read) (← b.read)).flags

/-- Arithmetic on one value. -/
def update (mask : UInt64) (f : Width → UInt64 → Arithmetic) : Effect :=
  unary fun w a => do keep mask a (f w (← a.read))

/-- The arithmetic on two operands, and that on one. -/
def arithmeticEffects : List (String × Effect) :=
  [("add", arithmetic fun w a b _ => .add w a b false),
   ("adc", arithmetic .add),
   ("sub", arithmetic fun w a b _ => .sub w a b false),
   ("sbb", arithmetic .sub),
   ("and", arithmetic fun w a b _ => .logic w (a &&& b)),
   ("or", arithmetic fun w a b _ => .logic w (a ||| b)),
   ("xor", arithmetic fun w a b _ => .logic w (a ^^^ b)),
   ("cmp", comparison fun w a b => .sub w a b false),
   ("test", comparison fun w a b => .logic w (a &&& b)),
   ("inc", update (Flag.arithmetic &&& ~~~Flag.carry) fun w a => .add w a 1 false),
   ("dec", update (Flag.arithmetic &&& ~~~Flag.carry) fun w a => .sub w a 1 false),
   ("neg", update Flag.arithmetic fun w a => .sub w 0 a false),
   ("not", unary fun w a => do a.write (w.truncate (~~~(← a.read))))]

/-- The halves of the accumulator that products and quotients use. -/
def lowHalf (w : Width) : RegisterName := .general w 0
def highHalf : Width → RegisterName
  | .byte => .highByte 0
  | w => .general w 2

/-- A product that is kept in both halves of the accumulator. -/
def multiply (signed : Bool) (w : Width) (factor : Operand) : Execution Unit := do
  let a ← readRegister (lowHalf w)
  let b ← factor.read
  let product : Int := if signed then w.toInt a * w.toInt b else (a.toNat * b.toNat : Nat)
  let low := w.ofInt product
  -- the high half is the quotient by the size, rounded down for both signs
  let high := w.ofInt (product / (w.size : Int))
  let exact : Bool := if signed then w.toInt low = product else high = 0
  writeRegister (lowHalf w) low
  writeRegister (highHalf w) high
  setFlags Flag.arithmetic (Arithmetic.product w low exact).flags

/-- A quotient of both halves of the accumulator, and its remainder. It has to fit. -/
def divide (signed : Bool) (w : Width) (divisor : Operand) : Execution Unit := do
  let low ← readRegister (lowHalf w)
  let high ← readRegister (highHalf w)
  let d ← divisor.read
  if d = 0 then raise .fpe
  let upper : Int := if signed then w.toInt high else (high.toNat : Int)
  let n : Int := upper * (w.size : Int) + (low.toNat : Int)
  let (q, r) :=
    if signed then (n.tdiv (w.toInt d), n.tmod (w.toInt d))
    else (n / (d.toNat : Int), n % (d.toNat : Int))
  let half : Int := (w.size / 2 : Nat)
  -- the quotient has to fit into the low half with its sign
  let fits : Bool := if signed then -half ≤ q && q < half else q < (w.size : Int)
  if !fits then raise .fpe
  writeRegister (lowHalf w) (w.ofInt q)
  writeRegister (highHalf w) (w.ofInt r)

/-- A signed product of which the low half is kept. -/
def multiplyInto (w : Width) (target : Operand) (a b : UInt64) : Execution Unit := do
  let product := w.toInt a * w.toInt b
  let low := w.ofInt product
  keep Flag.arithmetic target (.product w low (w.toInt low = product))

/-- Products and quotients. -/
def productEffects : List (String × Effect) :=
  [("mul", unary (multiply false)),
   ("div", unary (divide false)),
   ("idiv", unary (divide true)),
   ("imul", fun i =>
      match i.operands with
      | [_] => unary (multiply true) i
      | [_, _] => binary (fun w a b => do multiplyInto w a (← a.read) (← b.read)) i
      | [a, b, c] => do
        let some w := a.width? | raise .ill
        multiplyInto w a (← b.read) (← c.read)
        return .plain
      | _ => raise .ill)]

/-- A conversion of one register into another of the accumulator. -/
def convert (source target : RegisterName) (f : UInt64 → UInt64) : Effect :=
  ofAction fun _ => do writeRegister target (f (← readRegister source))

/-- The sign of a value in every bit. -/
def signOf (w : Width) (v : UInt64) : UInt64 := if w.signBit v then ~~~(0 : UInt64) else 0

/-- The bytes of a value in the opposite order. -/
def reverseBytes (w : Width) (v : UInt64) : UInt64 :=
  UInt64.ofNat (littleEndian (toLittleEndian w.bytes v.toNat).reverse)

/-- Copies and conversions. -/
def moveEffects : List (String × Effect) :=
  let move (f : Operand → UInt64 → UInt64) : Effect :=
    binary fun w a b => do a.write (w.truncate (f b (← b.read)))
  let extended (b : Operand) (v : UInt64) : UInt64 :=
    match b.width? with
    | some w => w.signExtend v
    | none => v
  [("mov", move fun _ v => v), ("movzx", move fun _ v => v), ("movnti", move fun _ v => v),
   ("movsx", move extended), ("movsxd", move extended),
   ("movbe", binary fun w a b => do a.write (reverseBytes w (← b.read))),
   ("bswap", unary fun w a => do a.write (reverseBytes w (← a.read))),
   ("lea", binary fun w a b => do
      let .memory _ m := b | raise .ill
      -- the address is computed without its segment, since nothing is read
      a.write (w.truncate (← address { m with segment := none }))),
   ("xchg", binary fun _ a b => do
      let x ← a.read
      let y ← b.read
      b.write x
      a.write y),
   ("cbw", convert (.general .byte 0) (.general .word 0) Width.byte.signExtend),
   ("cwde", convert (.general .word 0) (.general .dword 0) Width.word.signExtend),
   ("cdqe", convert (.general .dword 0) (.general .qword 0) Width.dword.signExtend),
   ("cwd", convert (.general .word 0) (.general .word 2) (signOf .word)),
   ("cdq", convert (.general .dword 0) (.general .dword 2) (signOf .dword)),
   ("cqo", convert (.general .qword 0) (.general .qword 2) (signOf .qword)),
   ("xlatb", ofAction fun _ => do
      let v ← load false .byte ((← get .rbx) + (← readRegister (.general .byte 0)))
      writeRegister (.general .byte 0) v)]

/-- Compares the accumulator with the first operand; if they are equal, the second one replaces it,
otherwise it replaces the accumulator. -/
def compareExchange (w : Width) (a b : Operand) : Execution Unit := do
  let accumulator := RegisterName.general w 0
  let old ← a.read
  let r := Arithmetic.sub w (← readRegister accumulator) old false
  if r.value = 0 then a.write (← b.read)
  else
    -- the write to memory happens even where nothing changes, and faults like one
    if a matches .memory _ _ then a.write old
    writeRegister accumulator old
  setFlags Flag.arithmetic r.flags

/-- Sums and exchanges that other processors see as one step. -/
def exchangeEffects : List (String × Effect) :=
  [("cmpxchg", binary compareExchange),
   ("xadd", binary fun w a b => do
      let x ← a.read
      let r := Arithmetic.add w x (← b.read) false
      -- the sum is what stays if both are the same register
      if a matches .memory _ _ then
        keep Flag.arithmetic a r
        b.write x
      else
        b.write x
        keep Flag.arithmetic a r)]

/-- The flags that a shift leaves alone: the overflow, if a register is turned round by a constant
other than one. -/
def untouched (s : Shift) (a b : Operand) : UInt64 :=
  match a, b with
  | .register _, .immediate n => Flag.when (s.isPlainRotation && n ≠ 1) Flag.overflow
  | _, _ => 0

/-- A shift by a number of places; none leaves the flags alone. -/
def shift (s : Shift) : Effect := binary fun w a b => do
  let v ← a.read
  let count := Shift.places w (← b.read)
  if count = 0 then a.write v
  else keep (~~~(untouched s a b)) a (s.apply w v count (← get .eflags))

/-- A shift that fills up from another value. -/
def doubleShift (left : Bool) : Effect := ofAction fun i =>
  match i.operands with
  | [a, b, c] => do
    let some w := a.width? | raise .ill
    let v ← a.read
    let count := Shift.places w (← c.read)
    if count = 0 then a.write v
    else keep (~~~(0 : UInt64)) a (Shift.double left w v (← b.read) count (← get .eflags))
  | _ => raise .ill

/-- The shifts. -/
def shiftEffects : List (String × Effect) :=
  (["rol", "ror", "rcl", "rcr", "shl", "shr", "sal", "sar"].filterMap fun name =>
    (Shift.ofName? name).map fun s => (name, shift s)) ++
  [("shld", doubleShift true), ("shrd", doubleShift false)]

/-- Tests a bit and changes it. The number of the bit can lead beyond an operand in memory if it
comes from a register. -/
def bitTest (change : Bool → Option Bool) : Effect := binary fun w a b => do
  let number ← b.read
  let place := number.toNat % w.bits
  -- the number of a register reaches beyond the operand, in whole units of its width
  let moved : Operand :=
    match a, b with
    | .memory size m, .register _ =>
      let units := w.toInt number / w.bits
      .memory size { m with displacement := m.displacement + Width.qword.ofInt (units * w.bytes) }
    | _, _ => a
  let v ← moved.read
  let mask : UInt64 := 1 <<< UInt64.ofNat place
  let old : Bool := v &&& mask ≠ 0
  match change old with
  | none => pure ()
  | some true => moved.write (v ||| mask)
  | some false => moved.write (v &&& ~~~mask)
  setFlags Flag.carry (Flag.when old Flag.carry)

/-- A count of bits; `none` leaves the target alone. The zero flag tells whether the given value is
zero. -/
def bitScan (f : Width → UInt64 → Option Nat) : Effect := binary fun w a b => do
  let v ← b.read
  match f w v with
  | some n =>
    a.write (UInt64.ofNat n)
    setFlags Flag.arithmetic (Flag.ofResult w (UInt64.ofNat n) &&& ~~~Flag.zero)
  | none => setFlags Flag.arithmetic (Flag.zero ||| Flag.parity)

/-- A count of bits that always has a result. -/
def bitCount (f : Width → UInt64 → Nat) (carryIfZero : Bool) : Effect := binary fun w a b => do
  let v ← b.read
  let n := f w v
  a.write (UInt64.ofNat n)
  let zero : Bool := if carryIfZero then n = 0 else v = 0
  setFlags Flag.arithmetic
    (Flag.when zero Flag.zero ||| Flag.when (carryIfZero && v = 0) Flag.carry)

/-- The places of the ones of a value, from below. -/
def ones (w : Width) (v : UInt64) : List Nat :=
  (List.range w.bits).filter fun i => (v >>> UInt64.ofNat i) &&& 1 = 1

/-- The instructions that look at single bits. -/
def bitEffects : List (String × Effect) :=
  [("bt", bitTest fun _ => none),
   ("bts", bitTest fun _ => some true),
   ("btr", bitTest fun _ => some false),
   ("btc", bitTest fun old => some (!old)),
   ("bsf", bitScan fun w v => (ones w v).head?),
   ("bsr", bitScan fun w v => (ones w v).getLast?),
   ("tzcnt", bitCount (fun w v => (ones w v).head?.getD w.bits) true),
   ("lzcnt", bitCount (fun w v =>
      match (ones w v).getLast? with
      | some i => w.bits - 1 - i
      | none => w.bits) true),
   ("popcnt", bitCount (fun w v => (ones w v).length) false)]

/-- The flags register as it is put on the stack: the resume flag is never in it. -/
def pushedFlags : Execution UInt64 := return (← get .eflags) &&& ~~~Flag.resume

/-- The stack. -/
def stackEffects : List (String × Effect) :=
  [("push", ofAction fun i =>
      match i.operands with
      | [.immediate v] => push .qword v
      | [.register (.segment n)] => do push .qword (← get (segmentRegister n))
      | [a] => do
        let some w := a.width? | raise .ill
        push w (← a.read)
      | _ => raise .ill),
   ("pop", unary fun w a => do a.write (← pop w)),
   ("pushf", ofAction fun _ => do push .qword (← pushedFlags)),
   ("pushfw", ofAction fun _ => do push .word (← pushedFlags)),
   ("popf", ofAction fun _ => do
      setFlags (Flag.loadable ||| Flag.resume) ((← pop .qword) &&& ~~~Flag.resume)),
   ("popfw", ofAction fun _ => do setFlags (Flag.loadable &&& 0xffff) (← pop .word)),
   ("leave", ofAction fun _ => do
      set .rsp (← get .rbp)
      set .rbp (← pop .qword)),
   ("enter", ofAction fun i =>
      match i.operands with
      | [.immediate size, .immediate 0] => do
        push .qword (← get .rbp)
        set .rbp (← get .rsp)
        set .rsp ((← get .rsp) - size)
      | _ => raise .ill)]

/-- A jump if a condition holds. -/
def jumpIf (condition : Execution Bool) : Effect := ofAction fun i =>
  match i.operands with
  | [.target _ addr] => do if ← condition then jump addr
  | _ => raise .ill

/-- A jump while the counter, which goes down by one, is not zero and a condition holds. -/
def loop (condition : Execution Bool) : Effect := jumpIf do
  let count := (← get .rcx) - 1
  set .rcx count
  return count ≠ 0 && (← condition)

/-- Jumps, calls and returns. -/
def controlEffects : List (String × Effect) :=
  [("jmp", ofAction fun i =>
      match i.operands with
      | [a] => do jump (← a.read)
      | _ => raise .ill),
   ("call", ofAction fun i =>
      match i.operands with
      | [a] => do
        let target ← a.read
        push .qword (← get .rip)
        jump target
      | _ => raise .ill),
   ("ret", ofAction fun i => do
      let target ← pop .qword
      match i.operands with
      | [.immediate size] => set .rsp ((← get .rsp) + size)
      | _ => pure ()
      jump target),
   ("loop", loop (return true)),
   ("loope", loop (flag Flag.zero)),
   ("loopne", loop (return !(← flag Flag.zero))),
   ("jrcxz", jumpIf (return (← get .rcx) = 0))]

/-- The instructions with a condition in their names. -/
def conditionalEffects : List (String × Effect) :=
  conditions.zipIdx.flatMap fun (name, n) =>
    let holds : Execution Bool := return conditionHolds n (← get .eflags)
    [("j" ++ name, jumpIf holds),
     ("set" ++ name, unary fun _ a => do a.write (if ← holds then 1 else 0)),
     ("cmov" ++ name, binary fun _ a b => do
        let new ← b.read
        let old ← a.read
        a.write (if ← holds then new else old))]

/-- Moves a pointer of a string instruction to the next item. -/
def advance (w : Width) (pointer : Register) : Execution Unit := do
  let size := UInt64.ofNat w.bytes
  let p ← get pointer
  set pointer (if ← flag Flag.direction then p - size else p + size)

/-- A string instruction. Repeated, it is executed for one item at a time: as long as items are
left, the program counter goes back to the instruction, and the flags are those before it. -/
def string (compares : Bool) (item : Execution Unit) : Effect := ofAction fun i => do
  if !i.operands.isEmpty then raise .ill
  if i.prefixes.any (["rep", "repe", "repne"].contains ·) then
    -- without items nothing is done, not even to the flags
    if (← get .rcx) = 0 then return
    let flags ← get .eflags
    item
    let count := (← get .rcx) - 1
    set .rcx count
    let wanted : Bool := !i.prefixes.contains "repne"
    -- the instruction starts again, and the resume flag keeps it from trapping on itself
    if count ≠ 0 && (!compares || (← flag Flag.zero) == wanted) then
      set .rip i.address
      set .eflags (flags ||| Flag.resume)
  else item

/-- The string instructions of one width. -/
def stringEffects (suffix : String) (w : Width) : List (String × Effect) :=
  let accumulator := RegisterName.general w 0
  [("movs" ++ suffix, string false do
      store false w (← get .rdi) (← load false w (← get .rsi))
      advance w .rsi
      advance w .rdi),
   ("stos" ++ suffix, string false do
      store false w (← get .rdi) (← readRegister accumulator)
      advance w .rdi),
   ("lods" ++ suffix, string false do
      writeRegister accumulator (← load false w (← get .rsi))
      advance w .rsi),
   ("scas" ++ suffix, string true do
      let v ← load false w (← get .rdi)
      setFlags Flag.arithmetic (Arithmetic.sub w (← readRegister accumulator) v false).flags
      advance w .rdi),
   ("cmps" ++ suffix, string true do
      let a ← load false w (← get .rsi)
      let b ← load false w (← get .rdi)
      setFlags Flag.arithmetic (Arithmetic.sub w a b false).flags
      advance w .rsi
      advance w .rdi)]

/-- The instructions that change flags only. -/
def flagEffects : List (String × Effect) :=
  [("clc", ofAction fun _ => setFlags Flag.carry 0),
   ("stc", ofAction fun _ => setFlags Flag.carry Flag.carry),
   ("cmc", ofAction fun _ => do setFlags Flag.carry (~~~(← get .eflags))),
   ("cld", ofAction fun _ => setFlags Flag.direction 0),
   ("std", ofAction fun _ => setFlags Flag.direction Flag.direction),
   ("lahf", ofAction fun _ => do writeRegister (.highByte 0) (← get .eflags)),
   ("sahf", ofAction fun _ => do
      setFlags (Flag.arithmetic &&& 0xff) (← readRegister (.highByte 0)))]

/-- The instructions that do nothing here. -/
def idleEffects : List (String × Effect) :=
  ["nop", "pause", "endbr64", "endbr32", "prefetch", "prefetchw", "prefetchwt1", "prefetchnta",
    "prefetcht0", "prefetcht1", "prefetcht2", "lfence", "mfence", "sfence", "wait", "clflush",
    "clflushopt", "clwb"].map (·, nothing)

/-- The instructions that only the system may execute. -/
def privilegedEffects : List (String × Effect) :=
  ["hlt", "cli", "sti", "in", "out", "insb", "insw", "insd", "outsb", "outsw", "outsd",
    "clts", "invd", "wbinvd", "invlpg", "lgdt", "lidt", "lldt", "ltr", "lmsw", "rdmsr", "wrmsr",
    "rdpmc", "sysret", "sysretq", "xsetbv", "swapgs", "iretw", "iretd", "iretq", "retf",
    "call far", "jmp far"].map (·, fault .segv)

/-- The instructions that hand over to the system. -/
def systemEffects : List (String × Effect) :=
  [("int3", fun _ => return .breakpoint),
   ("int1", fun _ => return .breakpoint),
   ("int", fun i => if i.operands = [.immediate 3] then return .breakpoint else raise .segv),
   ("syscall", fun _ => return .systemCall)]

/-- What every instruction does, by its name. -/
def table : Std.HashMap String Effect :=
  .ofList (arithmeticEffects ++ productEffects ++ moveEffects ++ exchangeEffects ++ shiftEffects ++
    bitEffects ++ stackEffects ++ controlEffects ++ conditionalEffects ++
    stringEffects "b" .byte ++ stringEffects "w" .word ++ stringEffects "d" .dword ++
    stringEffects "q" .qword ++ flagEffects ++ idleEffects ++ privilegedEffects ++ systemEffects)

end Effect

namespace Processor

/-- Takes the instruction at the program counter from memory. If its bytes end early because the
memory does, that is a fault of memory. -/
def fetch : Execution Instruction := do
  let rip ← get .rip
  checkCanonical false rip
  let memory := (← getThe Processor).memory
  memory.check .execute rip.toNat
  let bytes := memory.fetch rip.toNat maxInstructionLength
  -- with more bytes the instruction would have gone on, so the memory is what failed
  match Instruction.decode? bytes rip with
  | some i => return i
  | none =>
    let missing := maxInstructionLength - bytes.length
    let extended := bytes ++ List.replicate missing 0
    if missing ≠ 0 ∧ (Instruction.decode? extended rip).isSome then
      memory.check .execute (rip.toNat + bytes.length)
    raise .ill

/-- Executes one instruction. -/
def step : Execution Completion := do
  let i ← fetch
  set .rip (i.address + UInt64.ofNat i.length)
  -- the resume flag lasts for one instruction
  set .eflags ((← get .eflags) &&& ~~~Flag.resume)
  match Effect.table[i.mnemonic]? with
  | some effect => effect i
  | none => raise .ill

end Processor

end SourceDebugger.X86
