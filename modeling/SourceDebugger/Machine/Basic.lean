import SourceDebugger.Tracee

/-!
# Scripted machines

A small processor with its memory, on which sessions can be rehearsed: it knows a handful of
instructions, and what a real process would only do now and then happens at set times.
-/

namespace SourceDebugger

/-- A piece of memory. -/
structure Region where
  /-- Where it starts. -/
  start : Addr
  /-- Its bytes. -/
  bytes : List UInt8
  /-- Whether the debugger cannot write to it. -/
  readOnly : Bool
deriving DecidableEq, Inhabited

namespace Region

/-- The place of an address in a piece of memory, if the address lies in it. -/
def offsetOf? (r : Region) (addr : Addr) : Option Nat :=
  match addr.distanceFrom? r.start with
  | some n => if n.toNat < r.bytes.length then some n.toNat else none
  | none => none

/-- The piece of memory with other bytes from a place on. -/
def write (r : Region) (offset : Nat) (data : List UInt8) : Region :=
  { r with bytes := r.bytes.take offset ++ data ++ r.bytes.drop (offset + data.length) }

end Region

/-- What happens at a set time instead of an instruction. -/
inductive MachineEvent where
  /-- A signal stops the machine. -/
  | signal (s : Signal)
  /-- A signal ends the machine. -/
  | kill (s : Signal)
  /-- The machine ends. -/
  | exit (code : Int)
  /-- The machine turns out to be gone. -/
  | gone
  /-- The machine cannot be let go. -/
  | refused
  /-- The machine traps for another reason. -/
  | trap
deriving DecidableEq, Inhabited

namespace MachineEvent

/-- The event that a script names: a word, which may be followed by a colon and a signal or a
status. -/
def ofScript? (script : String) : Option MachineEvent :=
  match script.splitOn ":" with
  | ["signal", name] => (Signal.ofName? name).map .signal
  | ["kill", name] => (Signal.ofName? name).map .kill
  | ["exit", code] => code.toInt?.map .exit
  | ["gone"] => some .gone
  | ["eperm"] => some .refused
  | ["other"] => some .trap
  | _ => none

end MachineEvent

/-- What a machine starts with. -/
structure MachineImage where
  /-- The memory. -/
  regions : List Region
  /-- The registers. -/
  regs : Registers
  /-- The status with which the machine ends by itself. -/
  exitCode : Int
  /-- The signals that end the machine. -/
  deadly : List Signal
  /-- The signals that move the program counter, and how far. -/
  handlers : List (Signal × Int64)
  /-- What happens at set times: by the number of instructions that were started. -/
  events : List (Nat × MachineEvent)
  /-- Whether the machine cannot be started again. -/
  noRestart : Bool
deriving Inhabited

/-- A scripted machine. -/
structure Machine where
  /-- What it started with. -/
  image : MachineImage
  /-- What it starts with the next times it is started; afterwards it starts with the same again. -/
  successors : List MachineImage
  /-- Its memory. -/
  regions : List Region
  /-- Its registers. -/
  regs : Registers
  /-- Whether it was not ended. -/
  alive : Bool
  /-- How often it was started again. -/
  restarts : Nat
  /-- How many instructions were started, also before the machine was started again. -/
  started : Nat
  /-- The signals that were delivered, in order. -/
  delivered : List Signal
deriving Inhabited

namespace Machine

/-- The number of the process before it was ever started again. -/
def firstPid : Nat := 4242

/-- How many instructions a machine executes. -/
def budget : Nat := 5000

/-- A machine that stands before its first instruction. -/
def ofImage (image : MachineImage) (successors : List MachineImage) : Machine :=
  ⟨image, successors, image.regions, image.regs, true, 0, 0, []⟩

/-- The failure for an address without memory. -/
def notMapped (addr : Addr) : DebugError := .io (addr.text ++ " is not mapped")

/-- The memory from an address on, up to the end of its piece. -/
def memoryFrom? (m : Machine) (addr : Addr) : Option (List UInt8) :=
  m.regions.findSome? fun r => (r.offsetOf? addr).map r.bytes.drop

/-- Reads memory: as many of the wanted bytes as its piece has. -/
def read (m : Machine) (addr : Addr) (count : Nat) : Except DebugError (List UInt8) :=
  match m.memoryFrom? addr with
  | some bytes => .ok (bytes.take count)
  | none => .error (notMapped addr)

/-- Stores bytes in the first piece of memory that has the address. -/
def store (forced : Bool) (addr : Addr) (data : List UInt8) :
    List Region → Except DebugError (List Region)
  | [] => .error (notMapped addr)
  | r :: rest =>
    match r.offsetOf? addr with
    | none => (store forced addr data rest).map (r :: ·)
    | some offset =>
      if r.readOnly ∧ !forced then .error (.os ⟨5⟩)
      else if r.bytes.length < offset + data.length then .error (notMapped addr)
      else .ok (r.write offset data :: rest)

/-- Stores bytes; the machine itself can also write where the debugger cannot. -/
def write (forced : Bool) (addr : Addr) (data : List UInt8) : Action Machine Unit := fun m =>
  match store forced addr data m.regions with
  | .ok regions => (.ok (), { m with regions })
  | .error e => (.error e, m)

/-- Reads a word of the stack. -/
def wordAt (m : Machine) (addr : Addr) : Except DebugError UInt64 :=
  match m.memoryFrom? addr with
  | some bytes =>
    if bytes.length < wordBytes then .error (notMapped addr)
    else .ok (UInt64.ofNat (littleEndian (bytes.take wordBytes)))
  | none => .error (notMapped addr)

/-- Changes a register. -/
def setRegister (r : Register) (v : UInt64) : Action Machine Unit :=
  modify fun m => { m with regs := m.regs.set r v }

/-- The value of a register. -/
def register (r : Register) : Action Machine UInt64 := do return (← get).regs.get r

/-- Ends the machine. -/
def die : Action Machine Unit := modify fun m => { m with alive := false }

/-- Fails if the machine was ended. -/
def ensureAlive : Action Machine Unit := do
  if !(← get).alive then throw .processGone

end Machine

end SourceDebugger
