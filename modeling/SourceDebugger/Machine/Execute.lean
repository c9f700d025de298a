import SourceDebugger.Machine.Basic

/-!
# Executing instructions on scripted machines

The instructions that a scripted machine knows, and its behaviour as a process under a debugger.
-/

namespace SourceDebugger.Machine

/-- The flag that the last counted value was zero. -/
def zeroFlag : UInt64 := 0x40

/-- Puts a word on the stack. -/
def push (v : UInt64) : Action Machine Unit := do
  let rsp := (← register .rsp) - 8
  setRegister .rsp rsp
  write true ⟨rsp⟩ (toLittleEndian wordBytes v.toNat)

/-- Takes a word from the stack. -/
def pop : Action Machine UInt64 := do
  let rsp ← register .rsp
  let v ← (wordAt (← get) ⟨rsp⟩ : Except DebugError UInt64)
  setRegister .rsp (rsp + 8)
  return v

/-- A byte as a word with its sign. -/
def signed8 (b : UInt8) : UInt64 := b.toInt8.toInt64.toUInt64

/-- Four bytes as a word with their sign. -/
def signed32 (bytes : List UInt8) : UInt64 :=
  (UInt32.ofNat (littleEndian (bytes.take 4))).toInt32.toInt64.toUInt64

/-- What an instruction does once its bytes are known; `next` is the address behind it. -/
abbrev Effect := UInt64 → Action Machine Stop

/-- An effect after which the machine goes on behind the instruction. -/
def plain (x : Action Machine Unit) : Effect := fun next => do
  -- the program counter stands behind the instruction even where that fails
  setRegister .rip next
  x
  return .trap .singleStep

/-- A jump by a distance. -/
def jump (distance : UInt64) : Effect := fun next => do
  setRegister .rip (next + distance)
  return .trap .singleStep

/-- A jump by a distance if the zero flag has a value. -/
def jumpIf (zero : Bool) (distance : UInt64) : Effect := fun next => do
  let flags ← register .eflags
  jump (if ((flags &&& zeroFlag) != 0) == zero then distance else 0) next

/-- A call; `target` is the address to which it goes. -/
def call (target : UInt64 → Registers → UInt64) : Effect := fun next => do
  setRegister .rip next
  push next
  setRegister .rip (target next (← get).regs)
  return .trap .singleStep

/-- Counts a register down and sets the zero flag. -/
def countDown : Action Machine Unit := do
  let v := (← register .rcx) - 1
  setRegister .rcx v
  let flags ← register .eflags
  setRegister .eflags (if v = 0 then flags ||| zeroFlag else flags &&& ~~~zeroFlag)

/-- Adds to a register. -/
def addTo (r : Register) (n : UInt64) : Action Machine Unit := do
  setRegister r ((← register r) + n)

/-- The length and the effect of the instruction at the start of some bytes. -/
def decode? (bytes : List UInt8) : Option (Nat × Effect) :=
  match bytes with
  | 0xcc :: _ => some (1, fun next => do setRegister .rip next; return .trap .breakpoint)
  | 0xf1 :: _ => some (1, fun next => do setRegister .rip next; return .trap .other)
  | 0xf4 :: _ => some (1, fun _ => do die; return .exited (← get).image.exitCode)
  | 0x90 :: _ => some (1, plain (pure ()))
  | 0x55 :: _ => some (1, plain do push (← register .rbp))
  | 0x5d :: _ => some (1, plain do setRegister .rbp (← pop))
  | 0xc9 :: _ => some (1, plain do setRegister .rsp (← register .rbp); setRegister .rbp (← pop))
  | 0xc3 :: _ => some (1, fun _ => do setRegister .rip (← pop); return .trap .singleStep)
  | 0xe8 :: a :: b :: c :: d :: _ =>
    some (5, call fun next _ => next + signed32 [a, b, c, d])
  | 0xff :: 0xd0 :: _ => some (2, call fun _ regs => regs.get .rax)
  | 0xeb :: b :: _ => some (2, jump (signed8 b))
  | 0xe9 :: a :: b :: c :: d :: _ => some (5, jump (signed32 [a, b, c, d]))
  | 0x74 :: b :: _ => some (2, jumpIf true (signed8 b))
  | 0x75 :: b :: _ => some (2, jumpIf false (signed8 b))
  | 0x48 :: 0x89 :: 0xe5 :: _ => some (3, plain do setRegister .rbp (← register .rsp))
  | 0x48 :: 0xff :: 0xc9 :: _ => some (3, plain countDown)
  | 0x48 :: 0x83 :: 0xec :: b :: _ => some (4, plain (addTo .rsp (0 - signed8 b)))
  | 0x48 :: 0x83 :: 0xc4 :: b :: _ => some (4, plain (addTo .rsp (signed8 b)))
  | 0x48 :: 0xc7 :: 0xc0 :: a :: b :: c :: d :: _ =>
    some (7, plain (setRegister .rax (signed32 [a, b, c, d])))
  | 0x48 :: 0xc7 :: 0xc1 :: a :: b :: c :: d :: _ =>
    some (7, plain (setRegister .rcx (signed32 [a, b, c, d])))
  | 0xc7 :: 0x45 :: o :: a :: b :: c :: d :: _ =>
    some (7, plain do write true ⟨(← register .rbp) + signed8 o⟩ [a, b, c, d])
  | _ => none

/-- The longest instruction. -/
def fetchLength : Nat := 15

/-- Executes the instruction at the program counter. -/
def execute : Action Machine Stop := do
  let rip ← register .rip
  match (← get).memoryFrom? ⟨rip⟩ with
  | none => return .signal .segv
  | some bytes =>
    match decode? (bytes.take fetchLength) with
    | none => return .signal .ill
    | some (length, effect) => effect (rip + UInt64.ofNat length)

/-- What an event does. -/
def happen : MachineEvent → Action Machine Stop
  | .signal s => return .signal s
  | .kill s => do die; return .killed s
  | .exit code => do die; return .exited code
  | .gone => do die; throw (.ofErrno .esrch)
  | .refused => throw (.ofErrno ⟨1⟩)
  | .trap => return .trap .other

/-- Executes one instruction, or what happens at its time instead of it. -/
def step : Action Machine Stop := do
  ensureAlive
  modify fun m => { m with started := m.started + 1 }
  let m ← get
  -- the budget is for the life of the machine, so that every run ends
  if m.started > budget then throw (.unexpectedStop "step budget exhausted")
  match m.image.events.find? (·.1 = m.started) with
  | some (_, event) => happen event
  | none => execute

/-- Executes instructions until one of them does not end like a single step; more than the budget
are never executed. -/
def run : Nat → Action Machine Stop
  | 0 => throw (.unexpectedStop "step budget exhausted")
  | left + 1 => do
    let stop ← step
    if stop = .trap .singleStep then run left else return stop

/-- Delivers a signal: the stop it causes, if it ends the machine. -/
def deliver (s : Signal) : Action Machine (Option Stop) := do
  modify fun m => { m with delivered := m.delivered ++ [s] }
  let image := (← get).image
  if image.deadly.contains s then
    die
    return some (.killed s)
  -- a handler is entered by moving the program counter
  if let some (_, distance) := image.handlers.find? (·.1 = s) then addTo .rip distance.toUInt64
  return none

/-- Lets the machine run, with a signal if there is one to deliver. -/
def resume (signal : Option Signal) : Action Machine Stop := do
  ensureAlive
  match signal with
  | none => run (budget + 1)
  | some s =>
    match ← deliver s with
    | some stop => return stop
    | none => run (budget + 1)

/-- Starts the machine again. -/
def restart : Action Machine Unit := do
  let m ← get
  if m.image.noRestart then
    die
    throw (.ofErrno ⟨11⟩)
  let (image, successors) := match m.successors with
    | image :: rest => (image, rest)
    | [] => (m.image, [])
  -- what was counted and delivered stays across restarts
  set { ofImage image successors with
    restarts := m.restarts + 1
    started := m.started
    delivered := m.delivered }

/-- What can be seen of a machine that was not ended. -/
def whileAlive {α : Type} (m : Machine) (x : Except DebugError α) : Except DebugError α :=
  if m.alive then x else .error .processGone

instance : Tracee Machine where
  pid m := firstPid + m.restarts
  isAlive m := m.alive
  readMemory m addr count := m.whileAlive (m.read addr count)
  writeMemory addr data := do ensureAlive; write false addr data
  registers m := m.whileAlive (.ok m.regs)
  setRegisters regs := do
    ensureAlive
    modify fun m => { m with regs }
  singleStep := step
  resume signal m := some (resume signal m)
  restart := restart
  kill := do ensureAlive; die

end SourceDebugger.Machine
