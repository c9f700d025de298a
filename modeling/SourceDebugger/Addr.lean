import SourceDebugger.Text.Hex

/-!
# Addresses

An address in the address space of the debugged program. Plain arithmetic wraps, as that of the
processor does; a sum of values that come from a file is formed with `Addr.add?`, which fails
instead.
-/

namespace SourceDebugger

/-- An address in the address space of the debugged program. -/
structure Addr where
  /-- The address as a machine word. -/
  val : UInt64
deriving DecidableEq, Hashable, Inhabited

namespace Addr

/-- The null address. -/
def null : Addr := ⟨0⟩

/-- The address with the number `n`, taken modulo 2^64. -/
def ofNat (n : Nat) : Addr := ⟨UInt64.ofNat n⟩

/-- The number of an address. -/
def toNat (a : Addr) : Nat := a.val.toNat

instance : LE Addr := ⟨fun a b => a.val ≤ b.val⟩
instance : LT Addr := ⟨fun a b => a.val < b.val⟩
instance (a b : Addr) : Decidable (a ≤ b) := inferInstanceAs (Decidable (a.val ≤ b.val))
instance (a b : Addr) : Decidable (a < b) := inferInstanceAs (Decidable (a.val < b.val))
instance : Ord Addr := ⟨fun a b => compare a.val b.val⟩

instance : HAdd Addr UInt64 Addr := ⟨fun a n => ⟨a.val + n⟩⟩
instance : HSub Addr UInt64 Addr := ⟨fun a n => ⟨a.val - n⟩⟩

@[simp] theorem val_add (a : Addr) (n : UInt64) : (a + n).val = a.val + n := rfl

@[simp] theorem val_sub (a : Addr) (n : UInt64) : (a - n).val = a.val - n := rfl

theorem ext_iff_val {a b : Addr} : a = b ↔ a.val = b.val :=
  ⟨fun h => h ▸ rfl, fun h => by cases a; cases b; simpa using h⟩

/-- Whether this is the null address. -/
def isNull (a : Addr) : Bool := a.val == 0

/-- The address `delta` bytes away, wrapping around at either end of the address space. -/
def offset (a : Addr) (delta : Int64) : Addr := ⟨a.val + delta.toUInt64⟩

/-- The sum, or `none` if it does not fit into 64 bits. -/
def add? (a : Addr) (n : UInt64) : Option Addr :=
  if a.val.toNat + n.toNat < UInt64.size then some (a + n) else none

/-- The difference, or `none` if it would be negative. -/
def sub? (a : Addr) (n : UInt64) : Option Addr :=
  if n ≤ a.val then some (a - n) else none

/-- The number of bytes from `base` up to `a`, if `a` does not lie below `base`. -/
def distanceFrom? (a base : Addr) : Option UInt64 :=
  if base.val ≤ a.val then some (a.val - base.val) else none

/-- The usual form of an address: all sixteen digits behind the mark. -/
def text (a : Addr) : String := Text.Hex.padded 16 a.toNat

/-- The short form of an address: no leading zeros. -/
def shortText (a : Addr) : String := Text.Hex.marked a.toNat

instance : ToString Addr := ⟨text⟩

theorem toNat_inj {a b : Addr} : a.toNat = b.toNat ↔ a = b :=
  UInt64.toNat_inj.trans ext_iff_val.symm

theorem toNat_add?_of_eq_some {a b : Addr} {n : UInt64} (h : a.add? n = some b) :
    b.toNat = a.toNat + n.toNat := by
  unfold add? at h
  split at h
  · rename_i hlt
    cases h
    simp only [toNat, val_add, UInt64.toNat_add]
    exact Nat.mod_eq_of_lt hlt
  · cases h

end Addr

end SourceDebugger
