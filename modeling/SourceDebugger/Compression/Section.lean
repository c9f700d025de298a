import SourceDebugger.Compression.Inflate
import SourceDebugger.Error

/-!
# Compressed sections

The contents of a compressed section: a mark, the length of the plain contents and a compressed
stream. Data without the mark is plain.
-/

namespace SourceDebugger.Compression

/-- The mark of a compressed section. -/
def sectionMark : List UInt8 := [0x5a, 0x4c, 0x49, 0x42]

/-- The length of mark and announced length. -/
def sectionHeaderLength : Nat := 12

/-- The value of bytes in big endian order. -/
def bigEndian (bytes : List UInt8) : Nat := bytes.foldl (fun n b => 256 * n + b.toNat) 0

/-- The name under which the compressed form of a section is stored. -/
def compressedName? (name : String) : Option String :=
  let mark := ".debug_".toList
  if mark.isPrefixOf name.toList then
    some (".zdebug_" ++ String.ofList (name.toList.drop mark.length))
  else none

/-- How much output a decoder produces at once before any of it is handed out. -/
def windowSize : Nat := 32768

/-- The failure to decode a stream. -/
def badStream (text : String) : DebugError := .malformedDebugInfo s!"bad zlib stream: {text}"

/-- The first `length` bytes that a stream holds, or all of them. Output is produced in windows, and
a fault is only met in a window of which a byte is asked for; an early end of the input only when
more is asked for than was produced. -/
def inflatePrefix (stream : List UInt8) (length : Nat) : Except DebugError (List UInt8) :=
  if length = 0 then .ok []
  else
    let (output, ending) := inflate stream none .zeros
    match ending with
    | .finished | .full => .ok (output.take length)
    | .truncated =>
      if length ≤ output.length then .ok (output.take length)
      else .error (badStream "incomplete deflate stream")
    | .corrupt =>
      if windowSize * (output.length / windowSize) < length then
        .error (badStream "corrupt deflate stream")
      else .ok (output.take length)

/-- The plain contents of a section that may be compressed. The output has to have exactly the
announced length; a stream that holds more is cut there. -/
def inflateSection (data : List UInt8) : Except DebugError (List UInt8) :=
  if data.length < sectionHeaderLength ∨ data.take 4 ≠ sectionMark then .ok data
  else
    let length := bigEndian ((data.drop 4).take 8)
    match inflatePrefix (data.drop sectionHeaderLength) length with
    | .error e => .error e
    | .ok output =>
      if output.length ≠ length then
        .error (.malformedDebugInfo <|
          s!"zlib stream inflates to {output.length} bytes, the header announces {length}")
      else .ok output

end SourceDebugger.Compression
