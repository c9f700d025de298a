import SourceDebugger.Addr
import SourceDebugger.System.Signal

/-!
# Memory of a process

The address space of a process is a list of mappings: runs of whole pages with their rights, filled
from a file or with zeros. The process itself is held to the rights; the debugger is not.
-/

namespace SourceDebugger.Kernel

/-- The number of bytes of a page. -/
def pageSize : Nat := 4096

/-- The start of the page of an address. -/
def pageStart (n : Nat) : Nat := n / pageSize * pageSize

/-- The end of the pages up to an address. -/
def pageEnd (n : Nat) : Nat := (n + pageSize - 1) / pageSize * pageSize

/-- How a process uses memory. -/
inductive Access where
  /-- It reads data. -/
  | read
  /-- It writes data. -/
  | write
  /-- It fetches instructions. -/
  | execute
deriving DecidableEq, Inhabited

/-- A run of pages with the same rights. -/
structure Mapping where
  /-- Where it starts. -/
  start : Nat
  /-- How long it is. -/
  size : Nat
  /-- The bytes that are there. Behind them, the mapping lies beyond the end of its file. -/
  bytes : ByteArray
  /-- Whether the process may write to it. -/
  writable : Bool
  /-- Whether the process may execute it. -/
  executable : Bool
  /-- The file it was filled from, and the place in it where the mapping starts. -/
  source : Option (String × Nat)
deriving Inhabited

namespace Mapping

/-- Whether an address lies in a mapping. -/
def contains (m : Mapping) (addr : Nat) : Bool := m.start ≤ addr && addr < m.start + m.size

/-- Whether the process may use the mapping in this way. What can be written or executed can also
be read. -/
def allows (m : Mapping) : Access → Bool
  | .read => true
  | .write => m.writable
  | .execute => m.executable

/-- The byte at an address, if it is there. -/
def byte? (m : Mapping) (addr : Nat) : Option UInt8 := m.bytes[addr - m.start]?

end Mapping

/-- The address space of a process, in the order of addresses. -/
structure Memory where
  /-- The mappings. -/
  mappings : List Mapping
deriving Inhabited

namespace Memory

/-- The mapping in which an address lies. -/
def mappingAt? (mem : Memory) (addr : Nat) : Option Mapping :=
  mem.mappings.find? (·.contains addr)

/-- The byte at an address, whatever the process may do there. -/
def byte? (mem : Memory) (addr : Nat) : Option UInt8 := do
  (← mem.mappingAt? addr).byte? addr

/-- The bytes from an address on, up to the first one that is not there. -/
def peek (mem : Memory) (addr count : Nat) : List UInt8 :=
  match count with
  | 0 => []
  | count + 1 =>
    match mem.byte? addr with
    | some b => b :: peek mem (addr + 1) count
    | none => []

/-- Changes a byte that is there. -/
def pokeByte (mem : Memory) (addr : Nat) (b : UInt8) : Memory :=
  ⟨mem.mappings.map fun m =>
    if m.contains addr then { m with bytes := m.bytes.set! (addr - m.start) b } else m⟩

/-- Changes bytes that are there. -/
def poke (mem : Memory) (addr : Nat) : List UInt8 → Memory
  | [] => mem
  | b :: rest => poke (mem.pokeByte addr b) (addr + 1) rest

/-- Whether the process may use a byte: otherwise, the signal that the attempt raises. -/
def check (mem : Memory) (access : Access) (addr : Nat) : Except Signal Unit :=
  match mem.mappingAt? addr with
  | none => .error .segv
  | some m =>
    if !m.allows access then .error .segv
    else if (m.byte? addr).isNone then .error .bus
    else .ok ()

/-- The bytes from an address on, as the process reads them. -/
def load (mem : Memory) (addr count : Nat) : Except Signal (List UInt8) := do
  for i in List.range count do
    mem.check .read (addr + i)
  return mem.peek addr count

/-- Stores bytes from an address on, as the process does: all of them or none. -/
def store (mem : Memory) (addr : Nat) (data : List UInt8) : Except Signal Memory := do
  for i in List.range data.length do
    mem.check .write (addr + i)
  return mem.poke addr data

/-- The bytes from an address on that can be fetched as instructions, up to the given number. -/
def fetch (mem : Memory) (addr count : Nat) : List UInt8 :=
  match count with
  | 0 => []
  | count + 1 =>
    match mem.check .execute addr, mem.byte? addr with
    | .ok (), some b => b :: fetch mem (addr + 1) count
    | _, _ => []

/-- The address space with one more mapping in place of what was there. Mappings that it cuts lose
the pages that it covers. -/
def map (mem : Memory) (m : Mapping) : Memory :=
  let stop := m.start + m.size
  let pieces := mem.mappings.flatMap fun old =>
    let oldStop := old.start + old.size
    if oldStop ≤ m.start ∨ stop ≤ old.start then [old]
    else
      let below :=
        if old.start < m.start then
          [{ old with
              size := m.start - old.start
              bytes := old.bytes.extract 0 (m.start - old.start) }]
        else []
      let above :=
        if stop < oldStop then
          [{ old with
              start := stop
              size := oldStop - stop
              bytes := old.bytes.extract (stop - old.start) old.bytes.size
              source := old.source.map fun (path, offset) => (path, offset + (stop - old.start)) }]
        else []
      below ++ above
  if m.size = 0 then mem
  else ⟨(m :: pieces).mergeSort fun a b => a.start ≤ b.start⟩

end Memory

end SourceDebugger.Kernel
