import SourceDebugger.Error

/-!
# Reading bytes

A cursor over a list of bytes: fixed width little endian words, NUL terminated strings and LEB128
numbers. Each operation consumes bytes from the left and leaves the others untouched; the fixed
width reads and the string leave the cursor where it is when they fail.
-/

namespace SourceDebugger

/-- The value of bytes in little endian order. -/
def littleEndian : List UInt8 → Nat
  | [] => 0
  | b :: rest => b.toNat + 256 * littleEndian rest

/-- The `count` lowest bytes of a number, in little endian order. -/
def toLittleEndian : Nat → Nat → List UInt8
  | 0, _ => []
  | count + 1, n => UInt8.ofNat n :: toLittleEndian count (n / 256)

theorem length_toLittleEndian (count n : Nat) : (toLittleEndian count n).length = count := by
  induction count generalizing n with
  | zero => rfl
  | succ count ih => simp [toLittleEndian, ih]

/-- A cursor over bytes. -/
structure ByteReader where
  /-- How many bytes were consumed so far. -/
  position : Nat
  /-- The bytes that were not read yet. -/
  rest : List UInt8
deriving DecidableEq, Inhabited

/-- What is read with a cursor: a value or an error, and the cursor behind it. -/
abbrev Read (α : Type) := ExceptT DebugError (StateM ByteReader) α

namespace ByteReader

/-- A cursor at the start of `data`. -/
def ofList (data : List UInt8) : ByteReader := ⟨0, data⟩

/-- Whether all bytes were read. -/
def isEmpty (r : ByteReader) : Bool := r.rest.isEmpty

/-- How many bytes were not read yet. -/
def remaining (r : ByteReader) : Nat := r.rest.length

/-- Moves the cursor over the next `count` bytes. -/
def skip (r : ByteReader) (count : Nat) : ByteReader := ⟨r.position + count, r.rest.drop count⟩

/-- Takes the next `count` bytes, and fails without moving if there are fewer. -/
def bytes (count : Nat) : Read (List UInt8) := fun r =>
  if r.remaining < count then (.error (.unexpectedEnd "byte block"), r)
  else (.ok (r.rest.take count), r.skip count)

/-- Takes `count` bytes as a little endian number. -/
def word (count : Nat) : Read Nat := do
  return littleEndian (← bytes count)

/-- Takes one byte. -/
def uint8 : Read UInt8 := do
  return UInt8.ofNat (← word 1)

/-- Takes a little endian word of two bytes. -/
def uint16 : Read UInt16 := do
  return UInt16.ofNat (← word 2)

/-- Takes a little endian word of four bytes. -/
def uint32 : Read UInt32 := do
  return UInt32.ofNat (← word 4)

/-- Takes a little endian word of eight bytes. -/
def uint64 : Read UInt64 := do
  return UInt64.ofNat (← word 8)

/-- Takes the bytes up to the first NUL and the NUL itself, which is not part of the result. -/
def string : Read (List UInt8) := fun r =>
  match r.rest.findIdx? (· == 0) with
  | some len => (.ok (r.rest.take len), r.skip (len + 1))
  | none => (.error (.unexpectedEnd "NUL terminated string"), r)

/-- Reads the groups of an unsigned LEB128 number from `bytes`, which start at `position`; `acc`
is the value of the groups before and `shift` their number of bits. -/
def unsignedFrom (acc : UInt64) (shift position : Nat) :
    List UInt8 → Except DebugError UInt64 × ByteReader
  | [] => (.error (.unexpectedEnd "ULEB128"), ⟨position, []⟩)
  | b :: rest =>
    let low := (b &&& 0x7f).toUInt64
    if shift ≥ 64 ∨ (shift = 63 ∧ low > 1) then (.error .leb128Overflow, ⟨position + 1, rest⟩)
    else
      let acc := acc ||| (low <<< UInt64.ofNat shift)
      if b &&& 0x80 = 0 then (.ok acc, ⟨position + 1, rest⟩)
      else unsignedFrom acc (shift + 7) (position + 1) rest

/-- Reads the groups of a signed LEB128 number from `bytes`; `acc` is the word of the groups
before and `shift` their number of bits. The second highest bit of the last group is the sign. -/
def signedFrom (acc : UInt64) (shift position : Nat) :
    List UInt8 → Except DebugError Int64 × ByteReader
  | [] => (.error (.unexpectedEnd "SLEB128"), ⟨position, []⟩)
  | b :: rest =>
    if shift ≥ 64 then (.error .leb128Overflow, ⟨position + 1, rest⟩)
    else
      let acc := acc ||| ((b &&& 0x7f).toUInt64 <<< UInt64.ofNat shift)
      let shift := shift + 7
      if b &&& 0x80 = 0 then
        let acc :=
          if shift < 64 ∧ b &&& 0x40 ≠ 0 then acc ||| (0xffffffffffffffff <<< UInt64.ofNat shift)
          else acc
        (.ok acc.toInt64, ⟨position + 1, rest⟩)
      else signedFrom acc shift (position + 1) rest

/-- Takes an unsigned LEB128 number. -/
def uleb128 : Read UInt64 := fun r => unsignedFrom 0 0 r.position r.rest

/-- Takes a signed LEB128 number. -/
def sleb128 : Read Int64 := fun r => signedFrom 0 0 r.position r.rest

end ByteReader

end SourceDebugger
