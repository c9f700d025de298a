/-!
# Hexadecimal text

Numbers and bytes as lower case hexadecimal digits, and the padding that the views of the
debugger use to line up their columns.
-/

namespace SourceDebugger.Text

/-- `digits n` is `n` in lower case hexadecimal, without leading zeros and without a mark. -/
def Hex.digits (n : Nat) : String :=
  String.ofList (Nat.toDigits 16 n)

/-- `marked n` is `n` in hexadecimal behind the mark `0x`. -/
def Hex.marked (n : Nat) : String :=
  "0x" ++ Hex.digits n

/-- `padLeft width fill s` puts copies of `fill` before `s` until it has `width` characters. -/
def padLeft (width : Nat) (fill : Char) (s : String) : String :=
  String.ofList (List.replicate (width - s.length) fill) ++ s

/-- `padRight width s` puts blanks behind `s` until it has `width` characters. -/
def padRight (width : Nat) (s : String) : String :=
  s ++ String.ofList (List.replicate (width - s.length) ' ')

/-- `padded width n` is `n` in at least `width` hexadecimal digits behind the mark `0x`. -/
def Hex.padded (width n : Nat) : String :=
  "0x" ++ padLeft width '0' (Hex.digits n)

/-- `Hex.byte b` is a byte as exactly two digits. -/
def Hex.byte (b : UInt8) : String :=
  padLeft 2 '0' (Hex.digits b.toNat)

/-- `Hex.bytes bs` is the bytes in order, two digits each, with nothing between them. -/
def Hex.bytes (bs : List UInt8) : String :=
  String.join (bs.map Hex.byte)

/-- The value of a hexadecimal digit of either case. -/
def Hex.digit? (c : Char) : Option Nat :=
  if '0' ≤ c ∧ c ≤ '9' then some (c.toNat - '0'.toNat)
  else if 'a' ≤ c ∧ c ≤ 'f' then some (c.toNat - 'a'.toNat + 10)
  else if 'A' ≤ c ∧ c ≤ 'F' then some (c.toNat - 'A'.toNat + 10)
  else none

/-- `Hex.value? cs` reads a non-empty list of hexadecimal digits. -/
def Hex.value? (cs : List Char) : Option Nat :=
  if cs.isEmpty then none
  else cs.foldlM (fun acc c => (Hex.digit? c).map (acc * 16 + ·)) 0

/-- `Hex.toBytes? cs` reads two digits per byte, and fails on a single digit at the end. -/
def Hex.toBytes? : List Char → Option (List UInt8)
  | [] => some []
  | [_] => none
  | a :: b :: rest => do
    let hi ← Hex.digit? a
    let lo ← Hex.digit? b
    return UInt8.ofNat (hi * 16 + lo) :: (← Hex.toBytes? rest)

end SourceDebugger.Text
