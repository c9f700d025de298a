import SourceDebugger.Bytes.Reader

/-!
# LEB128 numbers

Numbers in groups of seven bits, the lowest group first; every byte but the last has its highest
bit set. Encoding takes as few bytes as possible. Decoding accepts every number that fits into 64
bits, also one with more groups than it needs.
-/

namespace SourceDebugger.Leb128

/-- The groups of a natural number. -/
def encodeNat (n : Nat) : List UInt8 :=
  if n < 128 then [UInt8.ofNat n]
  else UInt8.ofNat (n % 128 + 128) :: encodeNat (n / 128)
termination_by n
decreasing_by omega

/-- The groups of an integer, in two's complement. -/
def encodeInt (n : Int) : List UInt8 :=
  if -64 ≤ n ∧ n < 64 then [UInt8.ofNat (n % 128).toNat]
  else UInt8.ofNat ((n % 128).toNat + 128) :: encodeInt (n / 128)
termination_by n.natAbs
decreasing_by omega

/-- The shortest encoding of an unsigned word. -/
def encodeUnsigned (n : UInt64) : List UInt8 := encodeNat n.toNat

/-- The shortest encoding of a signed word. -/
def encodeSigned (n : Int64) : List UInt8 := encodeInt n.toInt

/-- Decodes the unsigned number at the start of `data`, with the number of bytes it takes. -/
def decodeUnsigned (data : List UInt8) : Except DebugError (UInt64 × Nat) :=
  let (result, reader) := ByteReader.uleb128 (ByteReader.ofList data)
  result.map ((·, reader.position))

/-- Decodes the signed number at the start of `data`, with the number of bytes it takes. -/
def decodeSigned (data : List UInt8) : Except DebugError (Int64 × Nat) :=
  let (result, reader) := ByteReader.sleb128 (ByteReader.ofList data)
  result.map ((·, reader.position))

end SourceDebugger.Leb128
