import SourceDebugger.System.Request
import SourceDebugger.Tracee

/-!
# Traced children

A child process that the debugger starts and traces with requests to the system. Only the thread
that started the child can trace it, and once the system has reported that the child is gone, no
request names its number any more.
-/

namespace SourceDebugger

/-- A child process in a system. -/
structure TracedChild (ω : Type) where
  /-- The system. -/
  system : ω
  /-- The path of the executable. -/
  executable : String
  /-- The arguments with which the child is started, the path first. -/
  arguments : List String
  /-- The number of the process. -/
  pid : Nat
  /-- Whether the child was not reported as gone. -/
  alive : Bool
  /-- The thread that started the child. -/
  tracer : Nat
deriving Inhabited

namespace TracedChild

variable {ω : Type} [System ω]

/-- Makes a request to the system. -/
def ask (r : Request) : Action (TracedChild ω) r.Answer := fun c =>
  let (a, system) := System.perform r c.system
  (.ok a, { c with system })

/-- The answer to a request that can fail with an error number. -/
def accept {α : Type} (answer : Except Errno α) : Action (TracedChild ω) α :=
  match answer with
  | .ok a => return a
  | .error e => throw (.ofErrno e)

/-- The answer to a request on files. -/
def acceptFile {α : Type} (answer : Except String α) : Action (TracedChild ω) α :=
  match answer with
  | .ok a => return a
  | .error text => throw (.io text)

/-- Records whether the child is there. -/
def setAlive (alive : Bool) : Action (TracedChild ω) Unit := modify fun c => { c with alive }

/-- Fails if another thread asks. -/
def checkThread : Action (TracedChild ω) Unit := do
  let thread : Nat ← ask .currentThread
  if thread ≠ (← get).tracer then throw .wrongTracerThread

/-- Fails if another thread asks or if the child is gone. -/
def checkAccess : Action (TracedChild ω) Unit := do
  checkThread
  if !(← get).alive then throw .processGone

/-- The cause of a trap, by the number that the system gives for it. -/
def trapKind (code : Int) : TrapKind :=
  if code = 0x80 ∨ code = 1 then .breakpoint
  else if code = 2 then .singleStep
  else .other

/-- Waits until the child stops or ends. -/
def waitStop : Action (TracedChild ω) Stop := do
  let pid := (← get).pid
  match ← accept (← ask (.wait pid)) with
  | .exited code =>
    setAlive false
    return .exited code
  | .ended s =>
    setAlive false
    return .killed s
  | .stopped s =>
    if s = .trap then return .trap (trapKind (← accept (← ask (.trapCode pid))))
    else return .signal s
  | .unusual description => throw (.unexpectedStop description)

/-- Starts a child and waits until it stands before its first instruction. -/
def spawn : Action (TracedChild ω) Nat := do
  let pid ← accept (← ask (.start (← get).arguments))
  let status ← accept (← ask (.wait pid))
  if status = .stopped .trap then return pid
  else throw (.unexpectedStop ("debuggee did not stop after exec: " ++ status.describe pid))

/-- Reads memory: as many of the wanted bytes as there are. -/
def readMemory (addr : Addr) (count : Nat) : Action (TracedChild ω) (List UInt8) := do
  checkAccess
  acceptFile (← ask (.readMemory (← get).pid addr count))

/-- The start of the word that a byte lies in. -/
def wordStart (addr : Addr) : Addr := .ofNat (addr.toNat / wordBytes * wordBytes)

/-- The place of a byte in its word. -/
def placeInWord (addr : Addr) : Nat := addr.toNat % wordBytes

theorem placeInWord_lt (addr : Addr) : placeInWord addr < wordBytes :=
  Nat.mod_lt _ (by decide)

/-- The bytes of a word with other ones from a place on. -/
def patchWord (word : UInt64) (place : Nat) (data : List UInt8) : UInt64 :=
  let old := toLittleEndian wordBytes word.toNat
  UInt64.ofNat (littleEndian (old.take place ++ data ++ old.drop (place + data.length)))

/-- Writes memory word by word: each word that is touched is read, patched and written back. -/
def writeWords (addr : Addr) : List UInt8 → Action (TracedChild ω) Unit
  | [] => return
  | b :: rest => do
    let data := b :: rest
    let pid := (← get).pid
    let start := wordStart addr
    let place := placeInWord addr
    -- only the bytes up to the end of the word are patched, the others are written as they were
    -- read
    let count := min (wordBytes - place) data.length
    let word ← accept (← ask (.readWord pid start))
    let _ ← accept (← ask (.writeWord pid start (patchWord word place (data.take count))))
    writeWords (addr + UInt64.ofNat count) (data.drop count)
termination_by data => data.length
decreasing_by
  have := placeInWord_lt addr
  simp only [List.length_drop, List.length_cons]
  omega

/-- Writes memory. -/
def writeMemory (addr : Addr) (data : List UInt8) : Action (TracedChild ω) Unit := do
  checkAccess
  writeWords addr data

/-- Reads the registers. -/
def registers : Action (TracedChild ω) Registers := do
  checkAccess
  accept (← ask (.registers (← get).pid))

/-- Replaces the registers. -/
def setRegisters (values : Registers) : Action (TracedChild ω) Unit := do
  checkAccess
  accept (← ask (.setRegisters (← get).pid values))

/-- Lets the child execute one instruction. -/
def singleStep : Action (TracedChild ω) Stop := do
  checkAccess
  let _ ← accept (← ask (.step (← get).pid))
  waitStop

/-- Lets the child run until it stops. -/
def resume (signal : Option Signal) : Action (TracedChild ω) Stop := do
  checkAccess
  let _ ← accept (← ask (.resume (← get).pid signal))
  waitStop

/-- Ends the child, if it is there, and starts a fresh one. -/
def restart : Action (TracedChild ω) Unit := do
  checkThread
  let c ← get
  -- a child that is gone was waited for already, and its number may be another process
  if c.alive then
    -- the answers do not matter: the child is given up in any case
    let _ ← ask (.killGroup c.pid)
    let _ ← ask (.wait c.pid)
  setAlive false
  let pid ← spawn
  modify fun c => { c with pid, alive := true }

/-- Ends the child. -/
def kill : Action (TracedChild ω) Unit := do
  checkAccess
  let pid := (← get).pid
  -- a child that could not be ended is still there
  let _ ← accept (← ask (.kill pid))
  let _ ← ask (.wait pid)
  setAlive false

/-- Leaves the child: it is ended if it is still there. -/
def release (c : TracedChild ω) : ω :=
  if c.alive then (kill c).2.system else c.system

/-- Where the executable lies in memory: the start of the first part that comes from its start. -/
def loadBias : Action (TracedChild ω) Addr := do
  checkAccess
  let c ← get
  let path ← acceptFile (← ask (.canonicalPath c.executable))
  let ranges ← acceptFile (← ask (.memoryRanges c.pid))
  match ranges.find? fun r => r.offset = 0 ∧ r.path = some path with
  | some r => return r.start
  | none => return .null

/-- Fails at the first argument that holds a NUL byte, with its place. -/
def checkArguments : List String → Except DebugError Unit
  | [] => .ok ()
  | a :: rest =>
    match a.toUTF8.toList.findIdx? (· == 0) with
    | some place => .error (.embeddedNul place)
    | none => checkArguments rest

/-- Starts the executable at a path as a traced child. The system is left as it then is, also where
that fails. -/
def launch (path : String) (arguments : List String) (system : ω) :
    Except DebugError (TracedChild ω) × ω :=
  let (thread, system) := System.perform .currentThread system
  let (file, system) := System.perform (.fileAt path) system
  match file with
  | none => (.error (.executableDoesNotExist path), system)
  | some false => (.error (.executableIsNotAFile path), system)
  | some true =>
    match checkArguments (path :: arguments) with
    | .error e => (.error e, system)
    | .ok () =>
      match spawn (⟨system, path, path :: arguments, 0, false, thread⟩ : TracedChild ω) with
      | (.ok pid, c) => (.ok { c with pid, alive := true }, c.system)
      | (.error e, c) => (.error e, c.system)

instance : Tracee (TracedChild ω) where
  pid c := c.pid
  isAlive c := c.alive
  readMemory c addr count := (readMemory addr count c).1
  writeMemory := writeMemory
  registers c := (registers c).1
  setRegisters := setRegisters
  singleStep := singleStep
  resume signal c := some (resume signal c)
  restart := restart
  kill := kill

end TracedChild

end SourceDebugger
