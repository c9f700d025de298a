import SourceDebugger.Bytes.Reader

/-!
# Attributes of debugging entries

The values that entries of the debug information carry, and the forms in which they are stored.
-/

namespace SourceDebugger.DebugInfo

/-- How the numbers of a unit are stored. -/
structure Encoding where
  /-- Whether offsets have eight bytes instead of four. -/
  wide : Bool
  /-- The version of the format. -/
  version : Nat
  /-- The number of bytes of an address. -/
  addressSize : Nat
deriving DecidableEq, Inhabited

/-- The value of an attribute. -/
inductive AttributeValue where
  /-- An address. -/
  | address (a : UInt64)
  /-- A block of bytes. -/
  | block (bytes : List UInt8)
  /-- A number that is not negative by its form. -/
  | unsigned (n : UInt64)
  /-- A number with a sign. -/
  | signed (n : Int64)
  /-- An expression. -/
  | expression (bytes : List UInt8)
  /-- A flag. -/
  | flag (b : Bool)
  /-- An offset into another section. -/
  | sectionOffset (offset : Nat)
  /-- An entry of the same unit. -/
  | unitReference (offset : UInt64)
  /-- An entry of any unit. -/
  | infoReference (offset : UInt64)
  /-- A text. -/
  | text (bytes : List UInt8)
  /-- A text in the section of strings. -/
  | stringReference (offset : Nat)
  /-- A text in the section of strings for the line table. -/
  | lineStringReference (offset : Nat)
  /-- A text by its number. -/
  | stringIndex (index : Nat)
  /-- An address by its number. -/
  | addressIndex (index : Nat)
  /-- A value that means nothing here. -/
  | other
deriving DecidableEq, Inhabited

/-- An attribute that is looked at. Others are kept by their number. -/
abbrev AttributeName := Nat

namespace AttributeName

def location : AttributeName := 0x02
def name : AttributeName := 0x03
def byteSize : AttributeName := 0x0b
def lineTable : AttributeName := 0x10
def lowPc : AttributeName := 0x11
def highPc : AttributeName := 0x12
def compDir : AttributeName := 0x1b
def declFile : AttributeName := 0x3a
def external : AttributeName := 0x3f
def frameBase : AttributeName := 0x40
def type : AttributeName := 0x49
def stringOffsetsBase : AttributeName := 0x72
def addressBase : AttributeName := 0x73
def earlyAddressBase : AttributeName := 0x2133

/-- Attributes whose offsets into other sections may be stored as plain numbers. -/
def offsetAttributes : List AttributeName :=
  [0x02, 0x10, 0x19, 0x2a, 0x2c, 0x40, 0x43, 0x46, 0x48, 0x4a, 0x4d, 0x55, 0x79]

/-- Whether a plain number is meant as an offset into another section. -/
def isOffset (name : AttributeName) (version : Nat) : Bool :=
  offsetAttributes.contains name || (name = 0x38 && (version = 2 || version = 3))

end AttributeName

/-- The description of an attribute: its name, its form, and its value if that is part of the
description. -/
structure AttributeSpec where
  /-- The name. -/
  name : AttributeName
  /-- The form. -/
  form : Nat
  /-- The value of a constant that is part of the description. -/
  constant : Option Int64
deriving DecidableEq, Inhabited

/-- The failure to read the debug information. -/
def malformed {α : Type} (what : String) : Read α := throw (.debugFormat what)

/-- A failure of the reader becomes one of the debug information. -/
def asDebugFormat : DebugError → DebugError
  | .unexpectedEnd item => .debugFormat s!"unexpected end of {item}"
  | .leb128Overflow => .debugFormat "number out of range"
  | e => e

/-- Takes a number of at most sixteen bits in groups of seven: at most three groups. -/
def takeShort : Read Nat := do
  let a ← ByteReader.uint8
  if a < 0x80 then return a.toNat
  let b ← ByteReader.uint8
  if b < 0x80 then return a.toNat - 128 + 128 * b.toNat
  let c ← ByteReader.uint8
  if c > 3 then malformed "number out of range"
  return a.toNat - 128 + 128 * (b.toNat - 128) + 16384 * c.toNat

/-- Takes a signed number in groups of seven bits. A tenth group may only repeat the sign. -/
def takeSigned : Read Int64 := do
  let before ← get
  let n ← ByteReader.sleb128
  let tenth := before.rest.drop 9
  -- the tenth group has one bit that counts; the others can only repeat it
  if (← get).position - before.position ≥ 10 ∧ tenth.head? ≠ some 0 ∧ tenth.head? ≠ some 0x7f then
    malformed "number out of range"
  return n

/-- Takes an unsigned number in groups of seven bits. -/
def takeUnsigned : Read Nat := do return (← ByteReader.uleb128).toNat

/-- Takes an address of some size. -/
def takeAddress (size : Nat) : Read UInt64 := do
  if size ∈ [1, 2, 4, 8] then return UInt64.ofNat (← ByteReader.word size)
  else malformed "address size"

/-- Takes the size of addresses. -/
def takeAddressSize : Read Nat := do
  let size := (← ByteReader.uint8).toNat
  if size ∈ [1, 2, 4, 8] then return size else malformed "address size"

/-- Takes an offset into a section. -/
def takeOffset (wide : Bool) : Read Nat := ByteReader.word (if wide then 8 else 4)

/-- Takes the length of a unit, which also tells how offsets are stored. -/
def takeLength : Read (Nat × Bool) := do
  let n ← ByteReader.word 4
  -- the greatest lengths announce other layouts, of which only the last one is known
  if n < 0xfffffff0 then return (n, false)
  else if n = 0xffffffff then return (← ByteReader.word 8, true)
  else malformed "reserved length"

namespace AttributeValue

/-- The value as a number that is not negative. -/
def unsigned? : AttributeValue → Option UInt64
  | unsigned n => some n
  | signed n => if n < 0 then none else some n.toUInt64
  | _ => none

/-- The value as an expression; a block of bytes is one as well. -/
def expression? : AttributeValue → Option (List UInt8)
  | expression bytes => some bytes
  | block bytes => some bytes
  | _ => none

/-- The value as an offset into another section. -/
def sectionOffset? : AttributeValue → Option Nat
  | sectionOffset n => some n
  | _ => none

/-- Takes a value of one of the forms that the line table shares. -/
def takeShared (e : Encoding) (form : Nat) : Read (Option AttributeValue) := do
  let number (size : Nat) : Read (Option AttributeValue) := do
    return some (unsigned (UInt64.ofNat (← ByteReader.word size)))
  match form with
  -- a form tells how many bytes hold the length of a block
  | 0x03 => return some (block (← ByteReader.bytes (← ByteReader.word 2)))
  | 0x04 => return some (block (← ByteReader.bytes (← ByteReader.word 4)))
  | 0x05 => number 2
  | 0x06 => number 4
  | 0x07 => number 8
  | 0x08 => return some (text (← ByteReader.string))
  | 0x09 => return some (block (← ByteReader.bytes (← takeUnsigned)))
  | 0x0a => return some (block (← ByteReader.bytes (← ByteReader.word 1)))
  | 0x0b => number 1
  | 0x0c => return some (flag ((← ByteReader.uint8) != 0))
  | 0x0d => return some (signed (← takeSigned))
  | 0x0e => return some (stringReference (← takeOffset e.wide))
  | 0x0f => return some (unsigned (← ByteReader.uleb128))
  | 0x17 => return some (sectionOffset (← takeOffset e.wide))
  | 0x1a | 0x1f02 => return some (stringIndex (← takeUnsigned))
  | 0x1d | 0x1f21 =>
    let _ ← takeOffset e.wide
    return some other
  | 0x1e => return some (block (← ByteReader.bytes 16))
  | 0x1f => return some (lineStringReference (← takeOffset e.wide))
  | 0x25 => return some (stringIndex (← ByteReader.word 1))
  | 0x26 => return some (stringIndex (← ByteReader.word 2))
  | 0x27 => return some (stringIndex (← ByteReader.word 3))
  | 0x28 => return some (stringIndex (← ByteReader.word 4))
  | _ => return none

/-- Takes a value of one of the other forms. -/
def takeOther (e : Encoding) (spec : AttributeSpec) (form : Nat) : Read AttributeValue := do
  let reference (size : Nat) : Read AttributeValue := do
    return unitReference (UInt64.ofNat (← ByteReader.word size))
  let skip (size : Nat) : Read AttributeValue := do
    let _ ← ByteReader.bytes size
    return other
  match form with
  | 0x01 => return address (← takeAddress e.addressSize)
  | 0x10 =>
    if e.version = 2 then return infoReference (← takeAddress e.addressSize)
    else return infoReference (UInt64.ofNat (← takeOffset e.wide))
  | 0x11 => reference 1
  | 0x12 => reference 2
  | 0x13 => reference 4
  | 0x14 => reference 8
  | 0x15 => return unitReference (← ByteReader.uleb128)
  | 0x18 => return expression (← ByteReader.bytes (← takeUnsigned))
  | 0x19 => return flag true
  | 0x1b | 0x1f01 => return addressIndex (← takeUnsigned)
  | 0x1c => skip 4
  | 0x20 => skip 8
  | 0x21 =>
    match spec.constant with
    | some n => return signed n
    | none => malformed "constant without a value"
  | 0x22 | 0x23 =>
    let _ ← takeUnsigned
    return other
  | 0x24 => skip 8
  | 0x29 => return addressIndex (← ByteReader.word 1)
  | 0x2a => return addressIndex (← ByteReader.word 2)
  | 0x2b => return addressIndex (← ByteReader.word 3)
  | 0x2c => return addressIndex (← ByteReader.word 4)
  | 0x1f20 =>
    let _ ← takeOffset e.wide
    return other
  | _ => malformed "unknown form"

/-- Takes the value of an attribute. Some forms say that the form follows, at most as many as there
are bytes. -/
def takeForm (e : Encoding) (spec : AttributeSpec) : Nat → Nat → Read AttributeValue
  | 0, _ => malformed "unknown form"
  | fuel + 1, form => do
    if form = 0x16 then takeForm e spec fuel (← takeShort)
    -- where an offset belongs, a plain number of its size is one
    else if (form = 0x06 ∧ !e.wide ∨ form = 0x07 ∧ e.wide) ∧ AttributeName.isOffset spec.name e.version then
      return sectionOffset (← takeOffset e.wide)
    else
      match ← takeShared e form with
      | some v => return v
      | none => takeOther e spec form

/-- Takes the value of an attribute. -/
def take (e : Encoding) (spec : AttributeSpec) : Read AttributeValue := do
  takeForm e spec ((← get).remaining + 2) spec.form

end AttributeValue

/-- An attribute of an entry. -/
structure Attribute where
  /-- Its name. -/
  name : AttributeName
  /-- Its value. -/
  value : AttributeValue
deriving DecidableEq, Inhabited

/-- The attributes of an entry, and the failure to read more of them, if there was one. -/
structure Attributes where
  /-- The attributes that could be read, in order. -/
  known : List Attribute
  /-- Why there are no more. -/
  failure : Option DebugError
deriving DecidableEq, Inhabited

namespace Attributes

/-- Takes the attributes that a list describes. -/
def take (e : Encoding) : List AttributeSpec → ByteReader → Attributes × ByteReader
  | [], r => (⟨[], none⟩, r)
  | spec :: specs, r =>
    match AttributeValue.take e spec r with
    | (.error err, r) => (⟨[], some (asDebugFormat err)⟩, r)
    | (.ok v, r) =>
      let (rest, r) := take e specs r
      (⟨⟨spec.name, v⟩ :: rest.known, rest.failure⟩, r)

/-- The value of the first attribute with a name. -/
def find? (as : Attributes) (name : AttributeName) : Except DebugError (Option AttributeValue) :=
  match as.known.find? (·.name == name) with
  | some a => .ok (some a.value)
  -- an attribute may stand behind the one that could not be read
  | none =>
    match as.failure with
    | some e => .error e
    | none => .ok none

end Attributes

end SourceDebugger.DebugInfo
