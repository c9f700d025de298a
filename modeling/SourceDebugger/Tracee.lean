import SourceDebugger.Registers
import SourceDebugger.Bytes.Reader
import SourceDebugger.System.Signal

/-!
# Traced processes

What the debugger can do with the process it debugs: read and write its memory and its registers,
let it execute one instruction or run on, and start it again. Between two such operations the
process stands still.
-/

namespace SourceDebugger

/-- Why a process trapped. -/
inductive TrapKind where
  /-- It executed the trap instruction. -/
  | breakpoint
  /-- It completed a single step. -/
  | singleStep
  /-- Something else, for instance the start of a program. -/
  | other
deriving DecidableEq, Inhabited

/-- How a process came to a stop after it was let go. -/
inductive Stop where
  /-- It trapped. -/
  | trap (kind : TrapKind)
  /-- It is about to receive a signal. -/
  | signal (s : Signal)
  /-- It ended by itself. -/
  | exited (code : Int)
  /-- A signal ended it. -/
  | killed (s : Signal)
deriving DecidableEq, Inhabited

/-- Whether the process is gone after the stop. -/
def Stop.isTerminal : Stop → Bool
  | exited _ | killed _ => true
  | trap _ | signal _ => false

/-- An operation that changes a state and can fail. A failure can leave the state changed. -/
abbrev Action (σ α : Type) := ExceptT DebugError (StateM σ) α

/-- The number of bytes of a machine word. -/
def wordBytes : Nat := 8

/-- The control over a process whose state is described by `σ`. -/
class Tracee (σ : Type) where
  /-- The number of the process. -/
  pid : σ → Nat
  /-- Whether the process was not seen to end. -/
  isAlive : σ → Bool
  /-- The bytes from an address on: as many of the wanted ones as there are. -/
  readMemory : σ → Addr → Nat → Except DebugError (List UInt8)
  /-- Stores bytes from an address on. -/
  writeMemory : Addr → List UInt8 → Action σ Unit
  /-- The registers. -/
  registers : σ → Except DebugError Registers
  /-- Replaces the registers. -/
  setRegisters : Registers → Action σ Unit
  /-- Lets the process execute one instruction. -/
  singleStep : Action σ Stop
  /-- Lets the process run until it stops, with a signal if there is one to deliver. There is no
  result if it never stops. -/
  resume : Option Signal → σ → Option (Except DebugError Stop × σ)
  /-- Ends the process and starts a fresh one, which stands before its first instruction. -/
  restart : Action σ Unit
  /-- Ends the process. -/
  kill : Action σ Unit

namespace Tracee

variable {σ : Type} [Tracee σ]

/-- The address of the next instruction. -/
def pc (p : σ) : Except DebugError Addr := do
  return (← registers p).pc

/-- Changes the address of the next instruction. -/
def setPc (pc : Addr) : Action σ Unit := do
  let regs ← (registers (← get) : Except DebugError Registers)
  setRegisters (regs.setPc pc)

/-- Exactly the wanted bytes from an address on. -/
def readExact (p : σ) (addr : Addr) (count : Nat) : Except DebugError (List UInt8) := do
  let bytes ← readMemory p addr count
  if bytes.length = count then return bytes
  else throw (.io s!"read {bytes.length} of {count} bytes at {addr.text}")

/-- The machine word at an address. -/
def readWord (p : σ) (addr : Addr) : Except DebugError UInt64 := do
  return UInt64.ofNat (littleEndian (← readExact p addr wordBytes))

end Tracee

end SourceDebugger
