import SourceDebugger.Kernel.Process

/-!
# The system of a debugger

A system that runs traced processes: it holds their files, starts them, tells their tracer of their
changes, and lets it look into those that stand still.
-/

namespace SourceDebugger

/-- A system with its files and the children of the debugger. -/
structure Kernel where
  /-- The files. -/
  files : FileSystem
  /-- The children that were not reported as gone. -/
  children : List Kernel.Process
  /-- The number of the next process. -/
  nextPid : Nat
  /-- The thread of the debugger that asks. -/
  thread : Nat
  /-- What has been written to the standard output. -/
  output : ByteArray
  /-- What has been written to the standard error output. -/
  errorOutput : ByteArray
deriving Inhabited

namespace Kernel

/-- The number of the first process. -/
def firstPid : Nat := 4243

/-- A system without processes. -/
def ofFiles (files : FileSystem) : Kernel := ⟨files, [], firstPid, 0, .empty, .empty⟩

/-- The child with a number. -/
def child? (k : Kernel) (pid : Nat) : Option Process := k.children.find? (·.pid = pid)

/-- The child with a number, if it stands still. -/
def stopped (k : Kernel) (pid : Nat) : Except Errno Process :=
  match k.child? pid with
  | some p => if p.state = .stopped then .ok p else .error .esrch
  | none => .error .esrch

/-- The system with another state of a child, the output of which is passed on. -/
def put (k : Kernel) (p : Process) : Kernel :=
  { k with
    children := k.children.map fun q =>
      if q.pid = p.pid then { p with output := .empty, errorOutput := .empty } else q
    output := k.output ++ p.output
    errorOutput := k.errorOutput ++ p.errorOutput }

/-- Starts a child. If its program cannot be laid out, the child ends by itself. -/
def start (k : Kernel) (arguments : List String) : Nat × Kernel :=
  let pid := k.nextPid
  let p :=
    match Image.ofFile k.files (arguments.headD "") arguments with
    | .ok image => Process.ofImage pid image
    | .error (.refused _) => Process.ofEnd pid (.exited 127)
    | .error (.ended s) => Process.ofEnd pid (.ended s)
  (pid, { k with children := k.children ++ [p], nextPid := pid + 1 })

/-- Reports a change of a child. One that has ended is gone afterwards. -/
def wait (k : Kernel) (pid : Nat) : Except Errno WaitStatus × Kernel :=
  match k.child? pid with
  | none => (.error .echild, k)
  | some p =>
    match p.report with
    | none => (.error .eintr, k)
    | some status =>
      let k :=
        if status.isTerminal then { k with children := k.children.filter (·.pid ≠ pid) }
        else k.put { p with report := none }
      let known : Bool :=
        match status with
        | .ended s | .stopped s => (Signal.ofNumber? s.number).isSome
        | _ => true
      (if known then .ok status else .error .einval, k)

/-- Ends a child; one that has ended already stays as it is. -/
def endChild (k : Kernel) (pid : Nat) : Except Errno Unit × Kernel :=
  match k.child? pid with
  | none => (.error .esrch, k)
  | some p =>
    if p.state = .ended then (.ok (), k) else (.ok (), k.put (p.finish (.ended .kill)))

/-- The order in which the system takes over registers. -/
def registerOrder : List Register :=
  [.r15, .r14, .r13, .r12, .rbp, .rbx, .r11, .r10, .r9, .r8, .rax, .rcx, .rdx, .rsi, .rdi,
    .origRax, .rip, .cs, .eflags, .rsp, .ss, .fsBase, .gsBase, .ds, .es, .fs, .gs]

/-- The flags that a tracer can change. -/
def tracerFlags : UInt64 := 0x54cd5

/-- Takes over one register, if its value is one that a process can have. -/
def takeOver (old : Registers) (r : Register) (v : UInt64) : Except Errno Registers :=
  let selector := v &&& 0xffff
  let foreign : Bool := selector ≠ 0 && selector &&& 3 ≠ 3
  match r with
  | .cs | .ss => if selector = 0 ∨ foreign then .error .eio else .ok (old.set r selector)
  | .ds | .es | .fs | .gs => if foreign then .error .eio else .ok (old.set r selector)
  | .fsBase | .gsBase => if v ≥ 0x7ffffffff000 then .error .eio else .ok (old.set r v)
  | .eflags => .ok (old.set r (X86.Flag.replace tracerFlags v (old.get r)))
  | _ => .ok (old.set r v)

/-- Takes over registers up to the first one that is refused. -/
def takeOverAll (values : Registers) : List Register → Registers → Except Errno Unit × Registers
  | [], old => (.ok (), old)
  | r :: rest, old =>
    match takeOver old r (values.get r) with
    | .ok new => takeOverAll values rest new
    | .error e => (.error e, old)

/-- Changes the registers of a child. -/
def setRegisters (k : Kernel) (pid : Nat) (values : Registers) : Except Errno Unit × Kernel :=
  match k.stopped pid with
  | .error e => (.error e, k)
  | .ok p =>
    let (answer, registers) := takeOverAll values registerOrder p.processor.registers
    (answer, k.put { p with processor := { p.processor with registers } })

/-- Changes a word of the memory of a child. -/
def writeWord (k : Kernel) (pid : Nat) (addr : Addr) (v : UInt64) : Except Errno Unit × Kernel :=
  match k.stopped pid with
  | .error e => (.error e, k)
  | .ok p =>
    let memory := p.processor.memory
    if (memory.peek addr.toNat 8).length < 8 then (.error .eio, k)
    else
      let memory := memory.poke addr.toNat (toLittleEndian 8 v.toNat)
      (.ok (), k.put { p with processor := { p.processor with memory } })

/-- Lets a child go on. -/
def continue_ (k : Kernel) (pid : Nat) (stepping : Bool) (s : Option Nat) :
    Except Errno Unit × Kernel :=
  match k.stopped pid with
  | .error e => (.error e, k)
  | .ok p => (.ok (), k.put (p.continue_ stepping s))

/-- The lowest address that the memory of a process, taken as a file, does not let be sought: from
there on, addresses are taken for numbers of errors. -/
def firstUnseekable : Nat := UInt64.size - 4095

/-- Reads the memory of a process as a file. -/
def readMemory (k : Kernel) (pid : Nat) (addr : Addr) (count : Nat) :
    Except String (List UInt8) :=
  match k.child? pid with
  | none => .error Errno.enoent.reason
  | some p =>
    if addr.toNat ≥ firstUnseekable then .error (Errno.reason ⟨UInt64.size - addr.toNat⟩)
    else if p.state = .ended then .ok []
    else
      let bytes := p.processor.memory.peek addr.toNat count
      if bytes.isEmpty ∧ count ≠ 0 then .error Errno.eio.reason else .ok bytes

/-- The parts of the memory of a process. -/
def memoryRanges (k : Kernel) (pid : Nat) : Except String (List MemoryRange) :=
  match k.child? pid with
  | none => .error Errno.enoent.reason
  | some p =>
    .ok (p.processor.memory.mappings.map fun m =>
      ⟨.ofNat m.start, (m.source.map (·.2)).getD 0, m.source.map (·.1)⟩)

/-- The absolute path of a file. -/
def canonicalPath (k : Kernel) (path : String) : Except String String :=
  match k.files.lookup path with
  | .ok (steps, _) => .ok ("/" ++ "/".intercalate steps)
  | .error e => .error e.reason

/-- Answers a request. -/
def perform (r : Request) (k : Kernel) : r.Answer × Kernel :=
  match r with
  | .currentThread => (k.thread, k)
  | .start arguments =>
    let (pid, k) := k.start arguments
    (.ok pid, k)
  | .wait pid => k.wait pid
  | .trapCode pid => ((k.stopped pid).map (·.trapCode), k)
  | .readWord pid addr =>
    (do
      let bytes := (← k.stopped pid).processor.memory.peek addr.toNat 8
      if bytes.length < 8 then throw Errno.eio
      return UInt64.ofNat (littleEndian bytes), k)
  | .writeWord pid addr v => k.writeWord pid addr v
  | .registers pid => ((k.stopped pid).map (·.processor.registers), k)
  | .setRegisters pid values => k.setRegisters pid values
  | .step pid => k.continue_ pid true none
  | .resume pid s => k.continue_ pid false (s.map (·.number))
  | .kill pid => k.endChild pid
  | .killGroup pid => k.endChild pid
  | .readMemory pid addr count => (k.readMemory pid addr count, k)
  | .memoryRanges pid => (k.memoryRanges pid, k)
  | .canonicalPath path => (k.canonicalPath path, k)
  | .fileAt path => ((k.files.node? path).map fun n => n matches .file _ _, k)

instance : System Kernel := ⟨perform⟩

end Kernel

end SourceDebugger
