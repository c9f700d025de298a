/-!
# Inflating

The decoder for compressed data: blocks of literal bytes and of references to earlier output, with
codes of variable length that each block can describe itself.
-/

namespace SourceDebugger.Compression

/-- Why decoding ends. -/
inductive End where
  /-- At the end of the stream. -/
  | finished
  /-- The input ends before the stream does. -/
  | truncated
  /-- The stream does not follow its format. -/
  | corrupt
  /-- The output is as long as it may be. -/
  | full
deriving DecidableEq, Inhabited

/-- How references to output that does not exist are treated. -/
inductive History where
  /-- There are zeros before the output. -/
  | zeros
  /-- There is nothing before the output. -/
  | nothing
deriving DecidableEq, Inhabited

/-- The state of a decoder. -/
structure Decoder where
  /-- The input. -/
  input : ByteArray
  /-- The number of the next bit of the input. -/
  position : Nat
  /-- The output so far. -/
  output : ByteArray
  /-- How long the output may become. -/
  capacity : Option Nat
  /-- What lies before the output. -/
  history : History

/-- Decoding, which can end at any point. -/
abbrev Decode := ExceptT End (StateM Decoder)

namespace Decode

/-- Takes one bit. -/
def bit : Decode Nat := do
  let d ← get
  match d.input.data[d.position / 8]? with
  | none => throw .truncated
  | some b =>
    set { d with position := d.position + 1 }
    -- the lowest bit of a byte comes first
    return (b.toNat >>> (d.position % 8)) % 2

/-- Takes some bits, the lowest first. -/
def bits : Nat → Decode Nat
  | 0 => return 0
  | n + 1 => do
    let low ← bit
    return low + 2 * (← bits n)

/-- Moves to the next whole byte. -/
def align : Decode Unit := modify fun d => { d with position := (d.position + 7) / 8 * 8 }

/-- Writes one byte. -/
def emit (b : UInt8) : Decode Unit := do
  let d ← get
  if d.capacity = some d.output.size then throw .full
  set { d with output := d.output.push b }

end Decode

/-- A code of variable length: the number of codes of each length, and the symbols in the order of
their codes. -/
structure Code where
  /-- The number of codes of each length. -/
  counts : Array Nat
  /-- The symbols in the order of their codes. -/
  symbols : Array Nat

namespace Code

/-- The longest code. -/
def maxLength : Nat := 15

/-- The code in which each symbol has a length; zero means that it has no code. Only a code with at
most one symbol may leave bit patterns unused. -/
def ofLengths? (lengths : List Nat) : Option Code :=
  let counts := (List.range (maxLength + 1)).map fun n => (lengths.filter (· == n)).length
  let used := (lengths.filter (· != 0)).length
  let patterns := (counts.zipIdx).map fun (c, n) => if n = 0 then 0 else c <<< (maxLength - n)
  -- with their unused ends, the codes have to make up all patterns of the greatest length
  if used > 1 ∧ patterns.foldl (· + ·) 0 ≠ 1 <<< maxLength then none
  else
    let symbols := (List.range maxLength).flatMap fun n =>
      ((lengths.zipIdx).filter (·.1 == n + 1)).map (·.2)
    some ⟨counts.toArray, symbols.toArray⟩

/-- Takes the rest of a code of which `code` are the bits so far, `first` is the first code of that
length and `index` the place of its symbol. -/
def takeFrom (c : Code) : Nat → Nat → Nat → Nat → Nat → Decode Nat
  | 0, _, _, _, _ => throw .corrupt
  | fuel + 1, length, code, first, index => do
    let code := code + (← Decode.bit)
    let count := c.counts.getD length 0
    -- the codes of one length are consecutive, and follow the shorter ones doubled
    if code < first + count then return c.symbols.getD (index + (code - first)) 0
    else takeFrom c fuel (length + 1) (2 * code) (2 * (first + count)) (index + count)

/-- Takes one symbol. -/
def take (c : Code) : Decode Nat := takeFrom c maxLength 1 0 0 0

end Code

/-- The lengths that reference symbols stand for, with the number of further bits. -/
def lengthTable : List (Nat × Nat) :=
  [(3, 0), (4, 0), (5, 0), (6, 0), (7, 0), (8, 0), (9, 0), (10, 0), (11, 1), (13, 1), (15, 1), (17, 1),
   (19, 2), (23, 2), (27, 2), (31, 2), (35, 3), (43, 3), (51, 3), (59, 3), (67, 4), (83, 4), (99, 4),
   (115, 4), (131, 5), (163, 5), (195, 5), (227, 5), (258, 0)]

/-- The distances that distance symbols stand for, with the number of further bits. -/
def distanceTable : List (Nat × Nat) :=
  [(1, 0), (2, 0), (3, 0), (4, 0), (5, 1), (7, 1), (9, 2), (13, 2), (17, 3), (25, 3), (33, 4), (49, 4),
   (65, 5), (97, 5), (129, 6), (193, 6), (257, 7), (385, 7), (513, 8), (769, 8), (1025, 9), (1537, 9),
   (2049, 10), (3073, 10), (4097, 11), (6145, 11), (8193, 12), (12289, 12), (16385, 13), (24577, 13)]

namespace Decode

/-- Copies output from some distance back. -/
def copy (distance : Nat) : Nat → Decode Unit
  | 0 => return
  | count + 1 => do
    let d ← get
    let size := d.output.size
    -- what was copied can be copied again, so the distance may be shorter than the length
    emit (if size < distance then 0 else d.output.get! (size - distance))
    copy distance count

/-- Takes the symbols of a block up to its end. Every symbol takes a bit. -/
def symbols (literal distance : Code) : Nat → Decode Unit
  | 0 => throw .truncated
  | fuel + 1 => do
    let symbol ← literal.take
    if symbol < 256 then
      emit (UInt8.ofNat symbol)
      symbols literal distance fuel
    else if symbol = 256 then return
    else
      let some (base, extra) := lengthTable[symbol - 257]? | throw .corrupt
      let length := base + (← bits extra)
      let some (base, extra) := distanceTable[← distance.take]? | throw .corrupt
      let far := base + (← bits extra)
      let d ← get
      -- a distance beyond the output leads before its start
      if d.history = .nothing ∧ far > d.output.size then throw .corrupt
      copy far length
      symbols literal distance fuel

/-- Copies bytes of the input. -/
def stored : Nat → Decode Unit
  | 0 => return
  | n + 1 => do
    emit (UInt8.ofNat (← bits 8))
    stored n

/-- The code for literals and lengths of blocks that describe none. -/
def fixedLiteral : List Nat :=
  List.replicate 144 8 ++ List.replicate 112 9 ++ List.replicate 24 7 ++ List.replicate 8 8

/-- The code for distances of blocks that describe none. -/
def fixedDistance : List Nat := List.replicate 32 5

/-- The order in which the lengths of the code for lengths stand. -/
def lengthOrder : List Nat := [16, 17, 18, 0, 8, 7, 9, 6, 10, 5, 11, 4, 12, 3, 13, 2, 14, 1, 15]

/-- Takes the lengths of codes until there are `count`; some symbols repeat. -/
def codeLengths (code : Code) (count : Nat) : Nat → Array Nat → Decode (Array Nat)
  | 0, _ => throw .corrupt
  | fuel + 1, lengths => do
    if lengths.size = count then return lengths
    if lengths.size > count then throw .corrupt
    let symbol ← code.take
    if symbol < 16 then codeLengths code count fuel (lengths.push symbol)
    else
      let value ←
        if symbol = 16 then
          match lengths.back? with
          | some v => pure v
          | none => throw .corrupt
        else pure 0
      let times ←
        if symbol = 16 then do pure (3 + (← bits 2))
        else if symbol = 17 then do pure (3 + (← bits 3))
        else do pure (11 + (← bits 7))
      codeLengths code count fuel (lengths ++ Array.replicate times value)

/-- The code with these lengths, which has to be one. -/
def codeOf (lengths : List Nat) : Decode Code :=
  match Code.ofLengths? lengths with
  | some c => return c
  | none => throw .corrupt

/-- Takes the codes that a block describes. -/
def describedCodes : Decode (Code × Code) := do
  let literals := 257 + (← bits 5)
  let distances := 1 + (← bits 5)
  let count := 4 + (← bits 4)
  if literals > 286 ∨ distances > 30 then throw .corrupt
  let given ← (List.range count).mapM fun _ => bits 3
  -- the lengths come in another order, and those that are not given are zero
  let lengths := (List.range 19).map fun symbol =>
    match lengthOrder.findIdx? (· == symbol) with
    | some i => given.getD i 0
    | none => 0
  let code ← codeOf lengths
  let all ← codeLengths code (literals + distances) (literals + distances + 1) #[]
  return (← codeOf (all.toList.take literals), ← codeOf (all.toList.drop literals))

/-- Takes blocks up to the last one. Every block takes a bit. -/
def blocks : Nat → Decode Unit
  | 0 => throw .truncated
  | fuel + 1 => do
    let last ← bit
    let bitCount := 8 * (← get).input.size
    match ← bits 2 with
    | 0 =>
      align
      let length ← bits 16
      let complement ← bits 16
      -- the complement of the length shows that the block is stored
      if length + complement ≠ 0xffff then throw .corrupt
      stored length
    | 1 => symbols (← codeOf fixedLiteral) (← codeOf fixedDistance) (bitCount + 1)
    | 2 =>
      let (literal, distance) ← describedCodes
      symbols literal distance (bitCount + 1)
    | _ => throw .corrupt
    if last = 0 then blocks fuel

end Decode

/-- The checksum at the end of a stream. -/
def checksum (bytes : ByteArray) : Nat :=
  let (a, b) := bytes.foldl (fun (a, b) byte =>
    let a := (a + byte.toNat) % 65521
    (a, (b + a) % 65521)) (1, 0)
  b * 65536 + a

/-- Takes a whole stream: its header, the blocks, and the checksum of the output. -/
def Decode.stream : Decode Unit := do
  let method ← bits 8
  let flags ← bits 8
  if (256 * method + flags) % 31 ≠ 0 ∨ flags / 32 % 2 = 1 ∨ method % 16 ≠ 8 ∨ method / 16 > 7 then
    throw .corrupt
  blocks (8 * (← get).input.size + 1)
  align
  let check ← (List.range 4).foldlM (fun acc _ => do return 256 * acc + (← bits 8)) 0
  if check ≠ checksum (← get).output then throw .corrupt

/-- Decodes a stream; gives the output up to the end and why it ended. -/
def inflate (input : List UInt8) (capacity : Option Nat) (history : History) :
    List UInt8 × End :=
  match Decode.stream ⟨⟨input.toArray⟩, 0, ByteArray.empty, capacity, history⟩ with
  | (.ok (), d) => (d.output.toList, .finished)
  | (.error e, d) => (d.output.toList, e)

end SourceDebugger.Compression
