import SourceDebugger.Kernel.Image
import SourceDebugger.System.Request
import SourceDebugger.X86.Execute

/-!
# Processes

A traced process: it runs until something stops it, and then stands still until its tracer lets it
go on. Traps of the processor and signals that are sent to it stop it; the tracer decides which
signal it gets to see.
-/

namespace SourceDebugger.Kernel

open X86 (Processor Completion)

/-- Why the trap signal was sent, as the system tells it. -/
def sentByProcess : Int := 0
def trapInstruction : Int := 0x80
def trapBreakpoint : Int := 1
def trapStep : Int := 2

/-- Where a process stands. -/
inductive ProcessState where
  /-- Its tracer can look into it. -/
  | stopped
  /-- It runs. -/
  | running
  /-- It has ended. -/
  | ended
deriving DecidableEq, Inhabited

/-- A traced process. -/
structure Process where
  /-- Its number. -/
  pid : Nat
  /-- Its registers and its memory. -/
  processor : Processor
  /-- Where it stands. -/
  state : ProcessState
  /-- The change that its tracer has not been told yet. -/
  report : Option WaitStatus
  /-- Why the trap signal was sent that stopped it. -/
  trapCode : Int
  /-- The signals that were sent to it and have not stopped it yet. -/
  pending : List Nat
  /-- Whether it was stopped like a job, in which case it takes no signal from its tracer. -/
  isSuspended : Bool
  /-- What it has written to the standard output. -/
  output : ByteArray
  /-- What it has written to the standard error output. -/
  errorOutput : ByteArray
deriving Inhabited

namespace Process

/-- A process that stands before the first instruction of a program. -/
def ofImage (pid : Nat) (image : Image) : Process :=
  ⟨pid, ⟨image.registers, image.memory⟩, .stopped, some (.stopped .trap), sentByProcess, [], false,
    .empty, .empty⟩

/-- A process that has ended before its first instruction. -/
def ofEnd (pid : Nat) (status : WaitStatus) : Process :=
  ⟨pid, default, .ended, some status, sentByProcess, [], false, .empty, .empty⟩

/-- The process once it has stopped. -/
def stop (p : Process) (s : Nat) (code : Int) : Process :=
  { p with state := .stopped, report := some (.stopped ⟨s⟩), trapCode := code, isSuspended := false }

/-- The process once it has ended. -/
def finish (p : Process) (status : WaitStatus) : Process :=
  { p with state := .ended, report := some status, processor := default, pending := [] }

/-- The value of a register. -/
def register (p : Process) (r : Register) : UInt64 := p.processor.registers.get r

/-- Changes a register. -/
def setRegister (p : Process) (r : Register) (v : UInt64) : Process :=
  { p with processor := { p.processor with registers := p.processor.registers.set r v } }

/-- The signals that the processor raises come before all others. -/
def synchronous : List Nat := [4, 5, 7, 8, 11, 31]

/-- The signals that do nothing by default. -/
def ignored : List Nat := [13, 17, 18, 23, 28]

/-- The signals that suspend a process by default. -/
def suspending : List Nat := [19, 20, 21, 22]

/-- The signal that a process takes next of those that were sent to it. -/
def nextPending? (p : Process) : Option Nat :=
  -- of several signals, the one with the lowest number
  let urgent := p.pending.filter synchronous.contains
  (if urgent.isEmpty then p.pending else urgent).min?

/-- Sends a signal to the process. -/
def send (p : Process) (s : Nat) : Process :=
  if s = Signal.kill.number then p.finish (.ended .kill)
  else if p.pending.contains s then p
  -- a signal that waits already is not sent twice
  else { p with pending := p.pending ++ [s] }

/-- Lets the signals stop the process that were sent to it. -/
def takePending (p : Process) : Option Process :=
  match p.nextPending? with
  | some s => some { p.stop s sentByProcess with pending := p.pending.filter (· ≠ s) }
  | none => none

/-- Does to the process what a signal does by default: it goes on unless the signal stops or ends
it. -/
def deliver (p : Process) (s : Nat) : Option Process :=
  if ignored.contains s then none
  else if suspending.contains s then some { p.stop s sentByProcess with isSuspended := true }
  else some (p.finish (.ended ⟨s⟩))

/-- The number of an error as a system call answers it. -/
def failure (number : Nat) : UInt64 := 0 - UInt64.ofNat number

/-- Writes to an open file; only the output files are open. -/
def write (p : Process) (file addr count : UInt64) : Process × UInt64 :=
  let bytes := p.processor.memory.peek addr.toNat (min count.toNat 0x7ffff000)
  if file ≠ 1 ∧ file ≠ 2 then (p, failure 9)
  else if bytes.isEmpty ∧ count ≠ 0 then (p, failure 14)
  else
    let data : ByteArray := ⟨bytes.toArray⟩
    let answer := UInt64.ofNat bytes.length
    if file = 1 then ({ p with output := p.output ++ data }, answer)
    else ({ p with errorOutput := p.errorOutput ++ data }, answer)

/-- Sends a signal to a process by its number; a process sees only itself and its group. -/
def sendTo (p : Process) (target signal : UInt64) : Process × UInt64 :=
  let pid := (target.toUInt32.toInt32).toInt
  let isSelf : Bool := pid = p.pid || pid = 0 || pid = -(p.pid : Int)
  let s := signal.toUInt32.toNat
  if !isSelf then (p, failure 3)
  else if s > 64 then (p, failure 22)
  else if s = 0 then (p, 0)
  else (p.send s, 0)

/-- A system call of the process. -/
def systemCall (p : Process) : Process :=
  let number := p.register .rax
  let first := p.register .rdi
  let p := p.setRegister .origRax number
  let answer (r : Process × UInt64) : Process := r.1.setRegister .rax r.2
  match number.toUInt32 with
  | 1 => answer (p.write first (p.register .rsi) (p.register .rdx))
  | 39 => answer (p, UInt64.ofNat p.pid)
  | 60 | 231 => p.finish (.exited (first &&& 0xff).toNat)
  | 62 =>
    let (q, v) := p.sendTo first (p.register .rsi)
    if q.state = .ended then q else q.setRegister .rax v
  | _ => answer (p, failure 38)

/-- Executes one instruction. The process is stopped or ended afterwards if that is what the
instruction does. While it is stepped, the trap flag is set. -/
def execute (stepping : Bool) (p : Process) : Process :=
  let flags := p.register .eflags
  let start := if stepping then p.setRegister .eflags (flags ||| X86.Flag.trap) else p
  match (Processor.step.run start.processor : Except Signal _) with
  | .error s =>
    -- a fault leaves the process before the instruction, with the resume flag set
    (((p.setRegister .eflags (flags ||| X86.Flag.resume)).setRegister .origRax (0 - 1)).stop s.number
      trapInstruction)
  | .ok (completion, processor) =>
    let done := { p with processor }
    let clear (q : Process) : Process :=
      q.setRegister .eflags (q.register .eflags &&& ~~~X86.Flag.trap)
    match completion with
    | .plain =>
      let done := (clear done).setRegister .origRax (0 - 1)
      if stepping then done.stop Signal.trap.number trapStep else done
    | .breakpoint => ((clear done).setRegister .origRax (0 - 1)).stop Signal.trap.number trapInstruction
    | .systemCall =>
      -- a system call changes these two registers, as the instruction does
      let done := (done.setRegister .rcx (done.register .rip)).setRegister .r11 (done.register .eflags)
      let done := (clear done).systemCall
      if done.state = .ended then done
      else if stepping then done.stop Signal.trap.number trapBreakpoint
      else done.takePending.getD done

/-- Executes instructions until the process stops or ends; after too many of them it still runs. -/
def run : Nat → Process → Process
  | 0, p => { p with state := .running }
  | left + 1, p =>
    let p := p.execute false
    if p.state = .running then run left p else p

/-- More instructions than anyone waits for. -/
def patience : Nat := 20000000

/-- Lets the process go on, for one instruction or until it stops, with a signal if there is one. A
process that is stopped like a job ignores the signal. -/
def continue_ (p : Process) (stepping : Bool) (signal : Option Nat) : Process :=
  let delivered : Option Process :=
    if p.isSuspended then none else signal.bind p.deliver
  -- the signal itself stops or ends the process before anything is executed
  match delivered with
  | some p => p
  | none =>
    let p := { p with isSuspended := false, state := .running }
    match p.takePending with
    | some p => p
    | none => if stepping then p.execute true else run patience p

end Process

end SourceDebugger.Kernel
