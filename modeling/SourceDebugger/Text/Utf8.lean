/-!
# Text from bytes

Bytes as text. Where bytes are not valid UTF-8, each longest run that could begin a character is
replaced by the replacement character.
-/

namespace SourceDebugger.Text.Utf8

/-- The replacement character. -/
def replacement : Char := Char.ofNat 0xfffd

/-- How many bytes a character takes by its first byte, and the range of its second byte. -/
def shape? (b : UInt8) : Option (Nat × UInt8 × UInt8) :=
  if 0xc2 ≤ b && b ≤ 0xdf then some (2, 0x80, 0xbf)
  else if b = 0xe0 then some (3, 0xa0, 0xbf)
  else if b = 0xed then some (3, 0x80, 0x9f)
  else if 0xe1 ≤ b && b ≤ 0xef then some (3, 0x80, 0xbf)
  else if b = 0xf0 then some (4, 0x90, 0xbf)
  else if 0xf1 ≤ b && b ≤ 0xf3 then some (4, 0x80, 0xbf)
  else if b = 0xf4 then some (4, 0x80, 0x8f)
  else none

/-- The bytes behind the first one that can belong to its character: at most `count`. -/
def continuations : Nat → UInt8 → UInt8 → List UInt8 → List UInt8
  | 0, _, _, _ => []
  | _, _, _, [] => []
  | count + 1, lo, hi, b :: rest =>
    if lo ≤ b && b ≤ hi then b :: continuations count 0x80 0xbf rest else []

/-- The character at the start of bytes, and how many bytes it takes. -/
def firstChar (b : UInt8) (rest : List UInt8) : Char × Nat :=
  if b < 0x80 then (Char.ofNat b.toNat, 1)
  else
    match shape? b with
    | none => (replacement, 1)
    | some (len, lo, hi) =>
      let tail := continuations (len - 1) lo hi rest
      if tail.length + 1 < len then (replacement, tail.length + 1)
      else
        let first := b.toNat % (1 <<< (7 - len))
        (Char.ofNat (tail.foldl (fun n c => 64 * n + c.toNat % 64) first), len)

/-- The characters of bytes, with replacements; `fuel` bounds their number. -/
def lossyChars : Nat → List UInt8 → List Char
  | 0, _ => []
  | _, [] => []
  | fuel + 1, b :: rest =>
    let (c, len) := firstChar b rest
    c :: lossyChars fuel (rest.drop (len - 1))

/-- The text of bytes: as it is if they are valid, and otherwise with replacements. -/
def decode (bytes : List UInt8) : String :=
  match String.fromUTF8? ⟨bytes.toArray⟩ with
  | some text => text
  | none => String.ofList (lossyChars bytes.length bytes)

end SourceDebugger.Text.Utf8
