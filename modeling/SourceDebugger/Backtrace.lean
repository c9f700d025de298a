import SourceDebugger.Index.Lookup
import SourceDebugger.Tracee

/-!
# Backtraces

The chain of calls that led to the current instruction. A function that keeps a frame pointer
stores that of its caller where its own points to, and the return address right above.
-/

namespace SourceDebugger

/-- An activation of a function. -/
structure BacktraceFrame where
  /-- The address at which it goes on. -/
  addr : Addr
  /-- The readable name of the function. -/
  function : Option String
  /-- The source line. -/
  location : Option SourceLocation
deriving DecidableEq, Inhabited

/-- The activations, the innermost first. -/
structure Backtrace where
  /-- The activations. -/
  frames : List BacktraceFrame
deriving DecidableEq, Inhabited

namespace BacktraceFrame

/-- The activation that goes on at `addr`, with what is known of the address `lookup`. -/
def at_ (index : DebugIndex) (addr lookup : Addr) : BacktraceFrame :=
  { addr
    function := (index.functionContaining? lookup).map (·.displayName)
    location := (index.resolveAddress lookup).toOption }

/-- The activation of a caller. The call stands before the address to which it returns. -/
def ofReturn (index : DebugIndex) (addr : Addr) : BacktraceFrame :=
  at_ index addr ((addr.sub? 1).getD addr)

/-- The line of an activation. -/
def text (number : Nat) (f : BacktraceFrame) : String :=
  s!"#{number} {f.addr.text} in " ++ f.function.getD "??" ++
    (match f.location with
      | some l => " at " ++ l.text
      | none => "") ++ "\n"

end BacktraceFrame

namespace Backtrace

/-- The most activations of a backtrace. -/
def maxFrames : Nat := 1024

variable {σ : Type} [Tracee σ]

/-- What the frame at an address holds: the frame pointer of the caller and the return address. -/
def savedPair? (p : σ) (framePointer : Addr) : Option (Addr × Addr) :=
  match Tracee.readExact p framePointer (2 * wordBytes) with
  | .ok bytes =>
    some (.ofNat (littleEndian (bytes.take wordBytes)), .ofNat (littleEndian (bytes.drop wordBytes)))
  | .error _ => none

/-- The return addresses along the chain of frame pointers, at most as many as are left. The chain
ends at a null pointer, where memory cannot be read, at a null return address, and behind a frame
whose caller does not lie above it. -/
def returnAddresses (p : σ) : Nat → Addr → List Addr
  | 0, _ => []
  | left + 1, framePointer =>
    if framePointer.isNull then []
    else
      match savedPair? p framePointer with
      | none => []
      | some (saved, ret) =>
        if ret.isNull then []
        else if !saved.isNull && saved ≤ framePointer then [ret]
        else ret :: returnAddresses p left saved

/-- The backtrace of a process. -/
def walk (p : σ) (index : DebugIndex) : Except DebugError Backtrace := do
  let regs ← Tracee.registers p
  return ⟨.at_ index regs.pc regs.pc ::
    (returnAddresses p (maxFrames - 1) regs.framePointer).map (.ofReturn index)⟩

/-- One line for each activation. -/
def text (b : Backtrace) : String :=
  String.join (b.frames.zipIdx.map fun (f, n) => f.text n)

end Backtrace

end SourceDebugger
