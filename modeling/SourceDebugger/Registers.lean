import SourceDebugger.Addr

/-!
# Registers

A snapshot of the general purpose registers of the debugged program, together with the numbers
that debug information uses for them.
-/

namespace SourceDebugger

/-- A register of which a snapshot holds the value. -/
inductive Register where
  | rax | rbx | rcx | rdx | rsi | rdi | rbp | rsp
  | r8 | r9 | r10 | r11 | r12 | r13 | r14 | r15
  | rip | eflags | origRax
  | cs | ss | ds | es | fs | gs | fsBase | gsBase
deriving DecidableEq, Inhabited

namespace Register

/-- All registers, in the order of a snapshot. -/
def all : List Register :=
  [rax, rbx, rcx, rdx, rsi, rdi, rbp, rsp, r8, r9, r10, r11, r12, r13, r14, r15,
   rip, eflags, origRax, cs, ss, ds, es, fs, gs, fsBase, gsBase]

/-- The place of a register in a snapshot. -/
def index (r : Register) : Nat := r.ctorIdx

theorem index_lt (r : Register) : r.index < 27 := by
  cases r <;> decide

theorem index_injective {r s : Register} (h : r.index = s.index) : r = s := by
  cases r <;> cases s <;> first | rfl | (exact absurd h (by decide))

/-- The name of a register. -/
def name : Register → String
  | rax => "rax" | rbx => "rbx" | rcx => "rcx" | rdx => "rdx"
  | rsi => "rsi" | rdi => "rdi" | rbp => "rbp" | rsp => "rsp"
  | r8 => "r8" | r9 => "r9" | r10 => "r10" | r11 => "r11"
  | r12 => "r12" | r13 => "r13" | r14 => "r14" | r15 => "r15"
  | rip => "rip" | eflags => "eflags" | origRax => "orig_rax"
  | cs => "cs" | ss => "ss" | ds => "ds" | es => "es" | fs => "fs" | gs => "gs"
  | fsBase => "fs_base" | gsBase => "gs_base"

/-- The register with a name. -/
def ofName? (s : String) : Option Register :=
  all.find? (·.name == s)

/-- The register that debug information for x86-64 means by a number. -/
def ofDebugNumber? : Nat → Option Register
  | 0 => some rax | 1 => some rdx | 2 => some rcx | 3 => some rbx
  | 4 => some rsi | 5 => some rdi | 6 => some rbp | 7 => some rsp
  | 8 => some r8 | 9 => some r9 | 10 => some r10 | 11 => some r11
  | 12 => some r12 | 13 => some r13 | 14 => some r14 | 15 => some r15
  | 16 => some rip | 49 => some eflags
  | 50 => some es | 51 => some cs | 52 => some ss | 53 => some ds | 54 => some fs | 55 => some gs
  | 58 => some fsBase | 59 => some gsBase
  | _ => none

end Register

/-- A snapshot of the registers. -/
structure Registers where
  /-- The values, in the order of `Register.all`. -/
  values : Vector UInt64 27
deriving DecidableEq

namespace Registers

/-- The snapshot in which every register is zero. -/
def zero : Registers := ⟨Vector.replicate 27 0⟩

instance : Inhabited Registers := ⟨zero⟩

/-- The value of a register. -/
def get (regs : Registers) (r : Register) : UInt64 :=
  have := r.index_lt
  regs.values[r.index]

/-- The snapshot with another value in one register. -/
def set (regs : Registers) (r : Register) (v : UInt64) : Registers :=
  ⟨regs.values.set r.index v r.index_lt⟩

@[simp] theorem get_set_self (regs : Registers) (r : Register) (v : UInt64) :
    (regs.set r v).get r = v := by
  simp [get, set]

theorem get_set_of_ne (regs : Registers) {r s : Register} (v : UInt64) (h : r ≠ s) :
    (regs.set r v).get s = regs.get s := by
  have : r.index ≠ s.index := fun e => h (Register.index_injective e)
  simp [get, set, this]

/-- The address of the next instruction. -/
def pc (regs : Registers) : Addr := ⟨regs.get .rip⟩

/-- The snapshot with another address of the next instruction. -/
def setPc (regs : Registers) (pc : Addr) : Registers := regs.set .rip pc.val

@[simp] theorem pc_setPc (regs : Registers) (a : Addr) : (regs.setPc a).pc = a := by
  simp [pc, setPc]

/-- The address in the frame pointer register. -/
def framePointer (regs : Registers) : Addr := ⟨regs.get .rbp⟩

/-- The address in the stack pointer register. -/
def stackPointer (regs : Registers) : Addr := ⟨regs.get .rsp⟩

/-- The value of the register that debug information means by a number. -/
def getDebug? (regs : Registers) (number : Nat) : Option UInt64 :=
  (Register.ofDebugNumber? number).map regs.get

/-- How many registers take part in unwinding: the numbers 0 to 16. -/
def debugTableSize : Nat := 17

/-- The values of the registers that take part in unwinding, by their number. -/
def debugTable (regs : Registers) : List UInt64 :=
  (List.range debugTableSize).map fun n => (regs.getDebug? n).getD 0

/-- The registers that the operator is shown. -/
def shown : List Register := Register.all.take 18

/-- One line for each register that the operator is shown. -/
def text (regs : Registers) : String :=
  String.join (shown.map fun r =>
    Text.padRight 8 r.name ++ Text.Hex.padded 16 (regs.get r).toNat ++ "\n")

end Registers

end SourceDebugger
