import SourceDebugger.Bytes.Reader
import SourceDebugger.Kernel.Memory
import SourceDebugger.ObjectFile.Basic
import SourceDebugger.Registers
import SourceDebugger.System.FileSystem

/-!
# Program images

How the system lays out a program in memory before its first instruction: the segments of the
executable file, and a stack that holds the arguments. Programs that ask for an interpreter are
refused, since there is none.
-/

namespace SourceDebugger.Kernel

/-- Why a program cannot be started. -/
inductive ImageFailure where
  /-- The system refuses to start it, and its starter goes on. -/
  | refused (errno : Errno)
  /-- It is ended while it is laid out. -/
  | ended (s : Signal)
deriving DecidableEq, Inhabited

/-- A program before its first instruction. -/
structure Image where
  /-- Its memory. -/
  memory : Memory
  /-- Its registers. -/
  registers : Registers
deriving Inhabited

namespace Image

/-- The layout of the executables that the system starts. -/
def layout : ObjectLayout := ⟨true, false⟩

/-- The types of segments that are looked at. -/
def loadedSegment : Nat := 1
def interpreterSegment : Nat := 3
def stackSegment : Nat := 0x6474e551

/-- Whether the flags of a segment let it be executed or written. -/
def isExecutable (s : Segment) : Bool := s.flags % 2 = 1
def isWritable (s : Segment) : Bool := s.flags / 2 % 2 = 1

/-- The longest table of segments that the system reads. -/
def maxSegmentTable : Nat := 65536

/-- The end of the memory of a process, below which the stack starts. -/
def memoryEnd : Nat := 0x7ffffffff000

/-- The size of a stack at the start. -/
def stackSize : Nat := 0x21000

/-- Below this address, programs are put that can be loaded anywhere. -/
def movableEnd : Nat := 0x7ffff7fff000

/-- What the header of an executable says: whether it can be loaded anywhere, where it starts, and
its segments. -/
def header? (data : ByteArray) : Option (Bool × Nat × List Segment) := do
  let magic := (data.extract 0 4).toList
  let f ← ObjectFile.fields? layout data 16 [2, 2, 4, 8, 8, 8, 4, 2, 2, 2]
  let type := f.getD 0 0
  let size := f.getD 8 0
  let count := f.getD 9 0
  if magic ≠ [0x7f, 0x45, 0x4c, 0x46] ∨ ¬ (type = 2 ∨ type = 3) ∨ f.getD 1 0 ≠ 62 ∨ size ≠ 56 ∨
      count = 0 ∨ count * size > maxSegmentTable then none
  else
    let segments ← ObjectFile.table? data (f.getD 4 0) count size (ObjectFile.segment? layout data)
    return (type = ObjectFile.dynamicType, f.getD 3 0, segments)

/-- The pages of a file from a page on: what is behind the end of the file in its last page is
zero. -/
def filePages (data : ByteArray) (offset size : Nat) : ByteArray :=
  let there := data.extract offset (offset + size)
  let filled := min size (pageEnd there.size)
  there ++ ⟨(List.replicate (filled - there.size) 0).toArray⟩

/-- Makes the bytes from a place on zero. -/
def zeroFrom (bytes : ByteArray) (place : Nat) : ByteArray :=
  bytes.extract 0 place ++ ⟨(List.replicate (bytes.size - place) 0).toArray⟩

/-- Pages that are filled with zeros. -/
def zeroPages (start size : Nat) (executable : Bool) : Mapping :=
  ⟨start, size, ⟨(List.replicate size 0).toArray⟩, true, executable, none⟩

/-- Lays out a segment: its contents come from the file, and the rest up to its length in memory is
zero. Behind the contents of a segment that cannot be written, the file goes on up to the end of the
page. -/
def loadSegment (path : String) (data : ByteArray) (base : Nat) (mem : Memory) (s : Segment) :
    Except ImageFailure Memory :=
  let addr := base + s.address
  let lead := addr % pageSize
  if s.fileSize > s.memorySize ∨ s.memorySize > memoryEnd ∨ memoryEnd < addr + s.memorySize then
    .error (.ended .segv)
  else if s.fileSize ≠ 0 ∧ (s.offset < lead ∨ (s.offset - lead) % pageSize ≠ 0) then
    .error (.ended .segv)
  else
    let start := addr - lead
    let fileEnd := addr + s.fileSize
    let size := pageEnd (lead + s.fileSize)
    let bytes := filePages data (s.offset - lead) size
    let bytes :=
      if s.fileSize < s.memorySize ∧ isWritable s then zeroFrom bytes (lead + s.fileSize) else bytes
    let mem :=
      if s.fileSize = 0 then mem
      else mem.map ⟨start, size, bytes, isWritable s, isExecutable s, some (path, s.offset - lead)⟩
    let zeroStart := if s.fileSize = 0 then start else pageEnd fileEnd
    let zeroEnd := pageEnd (addr + s.memorySize)
    if s.fileSize < s.memorySize ∧ zeroStart < zeroEnd then
      .ok (mem.map (zeroPages zeroStart (zeroEnd - zeroStart) (isExecutable s)))
    else .ok mem

/-- The stack of a program: the number of arguments, where they are, and the arguments. Answers
where the stack starts. -/
def loadStack (mem : Memory) (arguments : List String) (executable : Bool) : Memory × Nat :=
  let texts := arguments.map fun a => a.toUTF8.toList ++ [0]
  let lengths := texts.map (·.length)
  let top := memoryEnd - 8 - lengths.foldl (· + ·) 0
  let places := (List.range texts.length).map fun i => top + (lengths.take i).foldl (· + ·) 0
  let words := [texts.length] ++ places ++ [0, 0, 6, pageSize, 0, 0]
  let rsp := (top - 8 * words.length) / 16 * 16
  let size := max stackSize (pageEnd (memoryEnd - rsp))
  let start := memoryEnd - size
  let below := List.replicate (rsp - start) 0
  let pointers := words.flatMap (toLittleEndian 8)
  let gap := List.replicate (top - rsp - pointers.length) 0
  let bytes := below ++ pointers ++ gap ++ texts.flatten ++ List.replicate 8 0
  (mem.map ⟨start, size, ⟨bytes.toArray⟩, true, executable, none⟩, rsp)

/-- The address to which a program is moved that can be loaded anywhere: its segments have to fit
below the limit. -/
def movableBase (segments : List Segment) : Nat :=
  let first := segments.foldl (fun n s => min n (pageStart s.address)) memoryEnd
  let stop := segments.foldl (fun n s => max n (pageEnd (s.address + s.memorySize))) 0
  pageStart (movableEnd - 4 * pageSize - (stop - first)) - first

/-- The registers before the first instruction. -/
def startRegisters (entry rsp : Nat) : Registers :=
  [(Register.rip, UInt64.ofNat entry), (.rsp, UInt64.ofNat rsp), (.eflags, 0x202), (.cs, 0x33),
    (.ss, 0x2b), (.origRax, 59)].foldl (fun regs (r, v) => regs.set r v) Registers.zero

/-- Lays out the program in a file. -/
def load (path : String) (data : ByteArray) (arguments : List String) :
    Except ImageFailure Image := do
  let some (movable, entry, segments) := header? data | throw (.refused ⟨8⟩)
  if segments.any (·.type = interpreterSegment) then throw (.refused .enoent)
  let loaded := segments.filter (·.type = loadedSegment)
  let base := if movable then movableBase loaded else 0
  let memory ← loaded.foldlM (loadSegment path data base) default
  let executableStack := segments.any fun s => s.type = stackSegment && isExecutable s
  let (memory, rsp) := loadStack memory arguments executableStack
  return ⟨memory, startRegisters (base + entry) rsp⟩

/-- Lays out the program at a path of a file system. -/
def ofFile (fs : FileSystem) (path : String) (arguments : List String) : Except ImageFailure Image :=
  match fs.lookup path with
  | .error e => .error (.refused e)
  | .ok (steps, .file content true) =>
    load ("/" ++ "/".intercalate steps) ⟨content.toArray⟩ arguments
  | .ok _ => .error (.refused ⟨13⟩)

end Image

end SourceDebugger.Kernel
