import SourceDebugger.X86.Form

/-!
# Flags

The flags register and the results of arithmetic together with the flags that they leave.
-/

namespace SourceDebugger.X86

namespace Flag

/-- An addition carried out of the highest bit, or a subtraction borrowed. -/
def carry : UInt64 := 0x1
/-- The low byte of the result has an even number of ones. -/
def parity : UInt64 := 0x4
/-- There was a carry out of the lowest four bits. -/
def adjust : UInt64 := 0x10
/-- The result is zero. -/
def zero : UInt64 := 0x40
/-- The highest bit of the result is set. -/
def sign : UInt64 := 0x80
/-- The processor traps after the next instruction. -/
def trap : UInt64 := 0x100
/-- String instructions go downwards. -/
def direction : UInt64 := 0x400
/-- The result as a signed number is out of range. -/
def overflow : UInt64 := 0x800
/-- The processor does not trap at the next instruction. -/
def resume : UInt64 := 0x10000

/-- The flags that arithmetic changes. -/
def arithmetic : UInt64 := 0x8d5

/-- The flags that a program can change by loading the flags register, apart from the trap flag. -/
def loadable : UInt64 := 0x244cd5

/-- A flag if a condition holds. -/
def when (p : Bool) (flag : UInt64) : UInt64 := if p then flag else 0

/-- The flags that depend on nothing but the result. -/
def ofResult (w : Width) (r : UInt64) : UInt64 :=
  let ones := ((List.range 8).filter fun i => (r >>> UInt64.ofNat i) &&& 1 = 1).length
  when (ones % 2 = 0) parity ||| when (w.truncate r = 0) zero |||
    when (w.signExtend (w.truncate r) ≥ 0x8000000000000000) sign

/-- Replaces the flags of a mask. -/
def replace (mask new old : UInt64) : UInt64 := (old &&& ~~~mask) ||| (new &&& mask)

end Flag

/-- A result of arithmetic and the flags that it leaves. -/
structure Arithmetic where
  /-- The result. -/
  value : UInt64
  /-- The flags. -/
  flags : UInt64

namespace Width

/-- Whether the highest bit of a value of this width is set. -/
def signBit (w : Width) (v : UInt64) : Bool :=
  (v >>> UInt64.ofNat (w.bits - 1)) &&& 1 = 1

/-- A value of this width as a signed number. -/
def toInt (w : Width) (v : UInt64) : Int := (w.signExtend v).toInt64.toInt

/-- The word that a signed number leaves in this width. -/
def ofInt (w : Width) (n : Int) : UInt64 := w.truncate (UInt64.ofNat (n % (UInt64.size : Int)).toNat)

end Width

namespace Arithmetic

/-- The sum of two values and a carry. -/
def add (w : Width) (a b : UInt64) (carry : Bool) : Arithmetic :=
  let c : Nat := if carry then 1 else 0
  let r := w.truncate (a + b + UInt64.ofNat c)
  ⟨r, Flag.ofResult w r ||| Flag.when (a.toNat + b.toNat + c ≥ w.size) Flag.carry |||
    Flag.when (w.signBit ((a ^^^ r) &&& (b ^^^ r))) Flag.overflow |||
    Flag.when ((a ^^^ b ^^^ r) &&& 0x10 ≠ 0) Flag.adjust⟩

/-- The difference of two values, less a borrow. -/
def sub (w : Width) (a b : UInt64) (borrow : Bool) : Arithmetic :=
  let c : Nat := if borrow then 1 else 0
  let r := w.truncate (a - b - UInt64.ofNat c)
  ⟨r, Flag.ofResult w r ||| Flag.when (a.toNat < b.toNat + c) Flag.carry |||
    Flag.when (w.signBit ((a ^^^ b) &&& (a ^^^ r))) Flag.overflow |||
    Flag.when ((a ^^^ b ^^^ r) &&& 0x10 ≠ 0) Flag.adjust⟩

/-- The result of an operation on the bits. -/
def logic (w : Width) (r : UInt64) : Arithmetic := ⟨w.truncate r, Flag.ofResult w r⟩

/-- A product, of which only the low half is kept; `exact` says whether that is all of it. -/
def product (w : Width) (r : UInt64) (exact : Bool) : Arithmetic :=
  ⟨r, (Flag.ofResult w r &&& ~~~Flag.zero) |||
    Flag.when (!exact) (Flag.carry ||| Flag.overflow)⟩

end Arithmetic

/-- The shifts and rotations. -/
inductive Shift where
  | rol | ror | rcl | rcr | shl | shr | sar
deriving DecidableEq, Inhabited

namespace Shift

/-- The shift with this name. -/
def ofName? (name : String) : Option Shift :=
  match name with
  | "rol" => some rol | "ror" => some ror | "rcl" => some rcl | "rcr" => some rcr
  | "shl" => some shl | "sal" => some shl | "shr" => some shr | "sar" => some sar
  | _ => none

/-- Shifts by one place: the result, and the bit that falls out. -/
def one (s : Shift) (w : Width) (v : UInt64) (carry : Bool) : UInt64 × Bool :=
  let top := w.signBit v
  let bottom : Bool := v &&& 1 = 1
  let high (p : Bool) : UInt64 := if p then (1 : UInt64) <<< UInt64.ofNat (w.bits - 1) else 0
  let low (p : Bool) : UInt64 := if p then 1 else 0
  match s with
  | rol => (w.truncate (v <<< 1) ||| low top, top)
  | ror => ((v >>> 1) ||| high bottom, bottom)
  | rcl => (w.truncate (v <<< 1) ||| low carry, top)
  | rcr => ((v >>> 1) ||| high carry, bottom)
  | shl => (w.truncate (v <<< 1), top)
  | shr => (v >>> 1, bottom)
  | sar => ((v >>> 1) ||| high top, bottom)

/-- Shifts by a number of places. -/
def many (s : Shift) (w : Width) : Nat → UInt64 → Bool → UInt64 × Bool
  | 0, v, carry => (v, carry)
  | n + 1, v, carry =>
    let (v, carry) := s.one w v carry
    many s w n v carry

/-- Whether only the carry and the overflow are left by the shift. -/
def isRotation : Shift → Bool
  | rol | ror | rcl | rcr => true
  | shl | shr | sar => false

/-- Whether a shift turns round the bits of a value alone. -/
def isPlainRotation : Shift → Bool
  | rol | ror => true
  | rcl | rcr | shl | shr | sar => false

/-- The number of places that a shift uses. -/
def places (w : Width) (count : UInt64) : Nat :=
  (count &&& (if w = .qword then 0x3f else 0x1f)).toNat

/-- Shifts by a number of places that is not zero. Whether there is an overflow is decided by the
first place: it is there if the sign changes. -/
def apply (s : Shift) (w : Width) (v : UInt64) (count : Nat) (flags : UInt64) : Arithmetic :=
  let carry : Bool := flags &&& Flag.carry ≠ 0
  let first := (s.one w v carry).1
  let (r, out) := s.many w count v carry
  let new := Flag.when out Flag.carry ||| Flag.when (w.signBit v != w.signBit first) Flag.overflow
  if s.isRotation then ⟨r, Flag.replace (Flag.carry ||| Flag.overflow) new flags⟩
  else ⟨r, Flag.replace Flag.arithmetic (new ||| Flag.ofResult w r) flags⟩

/-- Shifts by a number of places that is not zero, and fills up from another value. -/
def double (left : Bool) (w : Width) (v filler : UInt64) (count : Nat) (flags : UInt64) :
    Arithmetic :=
  let bits := UInt64.ofNat w.bits
  let n := UInt64.ofNat count
  let move (n : UInt64) : UInt64 :=
    if left then w.truncate ((v <<< n) ||| (filler >>> (bits - n)))
    else w.truncate ((v >>> n) ||| (filler <<< (bits - n)))
  let out : Bool := if left then (v >>> (bits - n)) &&& 1 = 1 else (v >>> (n - 1)) &&& 1 = 1
  let r := move n
  ⟨r, Flag.replace Flag.arithmetic
    (Flag.ofResult w r ||| Flag.when out Flag.carry |||
      Flag.when (w.signBit v != w.signBit (move 1)) Flag.overflow) flags⟩

end Shift

/-- Whether a condition, given by its place among the conditions, holds under some flags. Every
second condition is the opposite of the one before it. -/
def conditionHolds (number : Nat) (flags : UInt64) : Bool :=
  let has (flag : UInt64) : Bool := flags &&& flag ≠ 0
  let less := has Flag.sign != has Flag.overflow
  let even : Bool :=
    match number / 2 with
    | 0 => has Flag.overflow
    | 1 => has Flag.carry
    | 2 => has Flag.zero
    | 3 => has Flag.carry || has Flag.zero
    | 4 => has Flag.sign
    | 5 => has Flag.parity
    | 6 => less
    | _ => has Flag.zero || less
  even != (number % 2 = 1)

end SourceDebugger.X86
