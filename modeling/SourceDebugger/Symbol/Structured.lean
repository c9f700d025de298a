import SourceDebugger.Symbol.Hashed
import SourceDebugger.Text.Hex

/-!
# Structured symbols

The newer form of a mangled symbol, a small language of paths, types and constants behind the mark
`_R`. A symbol is read twice: once without output, to see whether it is well formed, and once to
write its text. References into the symbol are only followed while writing, and a fault found
there is written at its place.
-/

namespace SourceDebugger.Symbol.Structured

/-- Why a symbol cannot be read on. -/
inductive Fault where
  /-- It does not follow the grammar. -/
  | invalid
  /-- It is nested too deeply. -/
  | tooDeep
deriving DecidableEq, Inhabited

/-- The text written in place of what cannot be read. -/
def Fault.text : Fault → String
  | invalid => "\x7binvalid syntax\x7d"
  | tooDeep => "\x7brecursion limit reached\x7d"

/-- How deeply paths, types and constants may be nested. -/
def maxDepth : Nat := 500

/-- The state while a symbol is read. -/
structure State where
  /-- The characters of the symbol. -/
  symbol : Array Char
  /-- The position of the next character. -/
  next : Nat
  /-- How deeply the current item is nested. -/
  depth : Nat
  /-- Why reading has stopped, if it has. -/
  fault : Option Fault
  /-- Whether text is written. -/
  writing : Bool
  /-- How many lifetimes are bound around the current item. -/
  bound : Nat
  /-- The text so far. -/
  out : String

/-- Reading one item. An early end leaves only this item. -/
abbrev Item := ExceptT Unit (StateM State)

/-- An operation on the characters of a symbol. -/
abbrev Parse (α : Type) := ExceptT Fault (StateM State) α

/-- Runs an item to its end, which may be early. -/
def item (x : Item Unit) : StateM State Unit := do
  let _ ← x.run

/-- Writes text. -/
def write (s : String) : StateM State Unit :=
  modify fun st => if st.writing then { st with out := st.out ++ s } else st

/-- Stops reading because of a fault. -/
def stop {α : Type} (f : Fault) : Item α := do
  write f.text
  modify fun st => { st with fault := some f }
  throw ()

/-- Takes something from the symbol. Once reading has stopped, a question mark is written. -/
def parse {α : Type} (p : Parse α) : Item α := do
  match (← get).fault with
  | some _ => do write "?"; throw ()
  | none =>
    match ← p.run with
    | .ok a => return a
    | .error f => stop f

namespace Parse

/-- The next character, which stays. -/
def peek? : Parse (Option Char) := do
  let st ← get
  return st.symbol[st.next]?

/-- Moves over one character. -/
def advance : Parse Unit := modify fun st => { st with next := st.next + 1 }

/-- Takes a character if it is the next one. -/
def eat (c : Char) : Parse Bool := do
  if (← peek?) = some c then advance; return true
  else return false

/-- Takes the next character. -/
def char : Parse Char := do
  match ← peek? with
  | some c => advance; return c
  | none => throw .invalid

/-- Enters a nested item. -/
def pushDepth : Parse Unit := do
  modify fun st => { st with depth := st.depth + 1 }
  if (← get).depth > maxDepth then throw .tooDeep

/-- Takes hexadecimal digits up to an underscore, which is taken as well. -/
def hexDigits : Parse (List Char) := do
  let st ← get
  let digits := (st.symbol.toList.drop st.next).takeWhile fun c => c.isDigit || ('a' ≤ c && c ≤ 'f')
  set { st with next := st.next + digits.length }
  if (← char) = '_' then return digits else throw .invalid

/-- The value of a digit to the base 62. -/
def digit62? (c : Char) : Option Nat :=
  if c.isDigit then some (c.toNat - '0'.toNat)
  else if 'a' ≤ c ∧ c ≤ 'z' then some (10 + (c.toNat - 'a'.toNat))
  else if 'A' ≤ c ∧ c ≤ 'Z' then some (36 + (c.toNat - 'A'.toNat))
  else none

/-- Takes a number to the base 62 up to an underscore. The underscore alone is zero, and any
digits stand for one more than their value. -/
def number62 : Parse Nat := do
  if ← eat '_' then return 0
  let st ← get
  let digits := (st.symbol.toList.drop st.next).takeWhile fun c => (digit62? c).isSome
  set { st with next := st.next + digits.length }
  let value := digits.foldl (fun n c => 62 * n + (digit62? c).getD 0) 0
  if value ≥ UInt64.size - 1 then throw .invalid
  if (← char) = '_' then return value + 1 else throw .invalid

/-- Takes a number behind a mark; without the mark it is zero. -/
def optionalNumber62 (mark : Char) : Parse Nat := do
  if ← eat mark then
    let n ← number62
    if n + 1 < UInt64.size then return n + 1 else throw .invalid
  else return 0

/-- Takes the number that tells items of one name apart. -/
def disambiguator : Parse Nat := optionalNumber62 's'

/-- Takes the kind of a name: an upper case letter stands for a special one. -/
def nameKind : Parse (Option Char) := do
  let c ← char
  if 'A' ≤ c ∧ c ≤ 'Z' then return some c
  else if 'a' ≤ c ∧ c ≤ 'z' then return none
  else throw .invalid

/-- Takes the position that a reference leads to, which lies before the reference. -/
def reference : Parse Nat := do
  let start := (← get).next - 1
  let i ← number62
  if i < start then
    if (← get).depth + 1 > maxDepth then throw .tooDeep
    return i
  else throw .invalid

end Parse

/-- A name: its ASCII part, and the insertions that make up the others characters. -/
structure Name where
  /-- The ASCII part. -/
  ascii : List Char
  /-- The encoded insertions. -/
  insertions : List Char

namespace Name

/-- Whether there is nothing to write. -/
def isEmpty (n : Name) : Bool := n.ascii.isEmpty && n.insertions.isEmpty

/-- Takes a name: its length, an optional underscore, and its characters. -/
def take : Parse Name := do
  let encoded ← Parse.eat 'u'
  let st ← get
  let digits := (st.symbol.toList.drop st.next).takeWhile Char.isDigit
  let digits := if digits.head? = some '0' then ['0'] else digits
  if digits.isEmpty then throw .invalid
  let some len := Hashed.decimal? digits | throw .invalid
  set { st with next := st.next + digits.length }
  let _ ← Parse.eat '_'
  let st ← get
  if st.next + len > st.symbol.size then throw .invalid
  set { st with next := st.next + len }
  let cs := (st.symbol.extract st.next (st.next + len)).toList
  if encoded then
    let insertions := (cs.reverse.takeWhile (· != '_')).reverse
    if insertions.isEmpty then throw .invalid
    return ⟨(cs.take (cs.length - insertions.length)).dropLast, insertions⟩
  else return ⟨cs, []⟩

/-- How many characters are decoded at most. -/
def maxDecoded : Nat := 128

/-- The value of a digit of the insertions. -/
def digit? (c : Char) : Option Nat :=
  if 'a' ≤ c ∧ c ≤ 'z' then some (c.toNat - 'a'.toNat)
  else if c.isDigit then some (26 + (c.toNat - '0'.toNat))
  else none

/-- Takes one distance; the digits have growing weights, and one below its threshold is the last. -/
def distance? (bias : Nat) : Nat → Nat → Nat → List Char → Option (Nat × List Char)
  | _, _, _, [] => none
  | k, weight, acc, c :: rest => do
    let k := k + 36
    let threshold := min (max (k - bias) 1) 26
    let d ← digit? c
    let acc := acc + d * weight
    if acc ≥ UInt64.size then none
    else if d < threshold then some (acc, rest)
    else
      let weight := weight * (36 - threshold)
      if weight ≥ UInt64.size then none else distance? bias k weight acc rest

/-- Divides a distance down until it is small; gives the divided distance and the steps. -/
def reduce : Nat → Nat → Nat → Nat × Nat
  | 0, delta, k => (delta, k)
  | fuel + 1, delta, k => if delta > 455 then reduce fuel (delta / 35) (k + 36) else (delta, k)

/-- Inserts the encoded characters one after the other. -/
def insertAll : Nat → List Char → Nat → Nat → Nat → Nat → List Char → Option (List Char)
  | 0, _, _, _, _, _, _ => none
  | fuel + 1, out, i, n, bias, damp, code => do
    let (delta, rest) ← distance? bias 0 1 0 code
    let len := out.length + 1
    let i := i + delta
    let n := n + i / len
    let i := i % len
    let valid := n < 0xd800 ∨ (0xe000 ≤ n ∧ n < 0x110000)
    if ¬ valid ∨ out.length ≥ maxDecoded then none
    else
      let out := out.take i ++ Char.ofNat n :: out.drop i
      if rest.isEmpty then some out
      else
        let delta := delta / damp
        let delta := delta + delta / len
        let (delta, k) := reduce 64 delta 0
        insertAll fuel out (i + 1) n (k + 36 * delta / (delta + 38)) 2 rest

/-- The decoded characters of a name with insertions. -/
def decoded? (n : Name) : Option (List Char) :=
  if n.insertions.isEmpty ∨ n.ascii.length > maxDecoded then none
  else insertAll (n.insertions.length + 1) n.ascii 0 0x80 72 700 n.insertions

/-- The text of a name; one that cannot be decoded is written in its encoded form. -/
def text (n : Name) : String :=
  match n.decoded? with
  | some cs => String.ofList cs
  | none =>
    if n.insertions.isEmpty then String.ofList n.ascii
    else
      "punycode\x7b" ++ (if n.ascii.isEmpty then "" else String.ofList n.ascii ++ "-") ++
        String.ofList n.insertions ++ "\x7d"

end Name

/-- The types with a letter of their own. -/
def basicTypes : List (Char × String) :=
  [('b', "bool"), ('c', "char"), ('e', "str"), ('u', "()"), ('a', "i8"), ('s', "i16"), ('l', "i32"),
   ('x', "i64"), ('n', "i128"), ('i', "isize"), ('h', "u8"), ('t', "u16"), ('m', "u32"), ('y', "u64"),
   ('o', "u128"), ('j', "usize"), ('f', "f32"), ('d', "f64"), ('z', "!"), ('p', "_"), ('v', "...")]

/-- The type that a letter stands for. -/
def basicType? (c : Char) : Option String := (basicTypes.find? (·.1 == c)).map (·.2)

/-- Takes a character if it is the next one; nothing is taken once reading has stopped. -/
def eat (c : Char) : StateM State Bool := do
  let st ← get
  if st.fault.isNone ∧ st.symbol[st.next]? = some c then
    set { st with next := st.next + 1 }
    return true
  else return false

/-- Leaves a nested item. -/
def popDepth : StateM State Unit :=
  modify fun st => if st.fault.isNone then { st with depth := st.depth - 1 } else st

/-- Writes the lifetime that is bound by the `index`th binder outwards. -/
def lifetime (index : Nat) : StateM State Unit := item do
  if (← get).writing then
    write "'"
    if index = 0 then write "_"
    else
      let bound := (← get).bound
      if bound < index then stop .invalid
      else
        let depth := bound - index
        if depth < 26 then write (Char.ofNat ('a'.toNat + depth)).toString
        else write s!"_{depth}"

/-- Writes the binders of new lifetimes. -/
def binders : Nat → Bool → StateM State Unit
  | 0, _ => return
  | n + 1, first => do
    if !first then write ", "
    modify fun st => { st with bound := st.bound + 1 }
    lifetime 1
    binders n false

/-- Reads an item inside of a binder of lifetimes. -/
def inBinder (body : StateM State Unit) : StateM State Unit := item do
  let count ← parse (Parse.optionalNumber62 'G')
  if !(← get).writing then body
  else
    if count > 0 then
      write "for<"
      binders (min count 100000) true
      write "> "
    body
    modify fun st => { st with bound := st.bound - count }

/-- Reads the items of a list up to its end mark, and counts them. -/
def separated (body : StateM State Unit) (separator : String) : Nat → Nat → StateM State Nat
  | 0, count => return count
  | fuel + 1, count => do
    if (← get).fault.isSome then return count
    if ← eat 'E' then return count
    if count > 0 then write separator
    body
    separated body separator fuel (count + 1)

/-- Reads a list; no list has more items than the symbol has characters. -/
def list (body : StateM State Unit) (separator : String) : StateM State Nat := do
  separated body separator ((← get).symbol.size + 1) 0

/-- Reads an item at the position that a reference leads to, if text is written. -/
def follow (body : StateM State Unit) : StateM State Unit := item do
  let position ← parse Parse.reference
  let st ← get
  if st.writing then
    set { st with next := position, depth := st.depth + 1 }
    body
    modify fun after => { after with next := st.next, depth := st.depth, fault := st.fault }

/-- Reads an item without writing it. -/
def silently (body : StateM State Unit) : StateM State Unit := do
  let writing := (← get).writing
  modify fun st => { st with writing := false }
  body
  modify fun st => { st with writing := writing }

/-- The number of hexadecimal digits, if it fits into 64 bits. -/
def hexValue? (digits : List Char) : Option Nat :=
  let significant := digits.dropWhile (· == '0')
  if significant.length > 16 then none
  else some (significant.foldl (fun n c => 16 * n + (Text.Hex.digit? c).getD 0) 0)

/-- A character inside of quotes. -/
def escaped (quote c : Char) : String :=
  if c = quote then "\\" ++ c.toString
  else match c with
    | '\x00' => "\\0"
    | '\t' => "\\t"
    | '\n' => "\\n"
    | '\x0d' => "\\r"
    | '\\' => "\\\\"
    | c =>
      if c.toNat < 0x20 ∨ (0x7f ≤ c.toNat ∧ c.toNat < 0xa0) then
        "\\u\x7b" ++ Text.Hex.digits c.toNat ++ "\x7d"
      else c.toString

/-- Writes characters between quotes. -/
def quoted (quote : Char) (cs : List Char) : StateM State Unit :=
  write (quote.toString ++ String.join (cs.map (escaped quote)) ++ quote.toString)

/-- Reads a constant number. -/
def constNumber : StateM State Unit := item do
  let digits ← parse Parse.hexDigits
  match hexValue? digits with
  | some n => write (toString n)
  | none => write ("0x" ++ String.ofList digits)

/-- Reads a constant string. -/
def constString : StateM State Unit := item do
  let digits ← parse Parse.hexDigits
  match (Text.Hex.toBytes? digits).bind fun bs => String.fromUTF8? ⟨bs.toArray⟩ with
  | some s => quoted '"' s.toList
  | none => stop .invalid

mutual

/-- Reads a path; inside of an expression the arguments of a path are set off by colons. -/
def path (fuel : Nat) (inValue : Bool) : StateM State Unit :=
  match fuel with
  | 0 => return
  | fuel + 1 => item do
    parse Parse.pushDepth
    let tag ← parse Parse.char
    match tag with
    | 'C' =>
      let _ ← parse Parse.disambiguator
      write (← parse Name.take).text
    | 'N' =>
      let kind ← parse Parse.nameKind
      path fuel inValue
      if (← get).fault.isSome then write "::"
      let number ← parse Parse.disambiguator
      let name ← parse Name.take
      match kind with
      | some k =>
        write "::\x7b"
        write (match k with
          | 'C' => "closure"
          | 'S' => "shim"
          | k => k.toString)
        if !name.isEmpty then write (":" ++ name.text)
        write s!"#{number}"
        write "\x7d"
      | none => if !name.isEmpty then write ("::" ++ name.text)
    | 'M' | 'X' | 'Y' =>
      if tag != 'Y' then
        let _ ← parse Parse.disambiguator
        silently (path fuel false)
      write "<"
      type fuel
      if tag != 'M' then
        write " as "
        path fuel false
      write ">"
    | 'I' =>
      path fuel inValue
      if inValue then write "::"
      write "<"
      let _ ← list (argument fuel) ", "
      write ">"
    | 'B' => follow (path fuel inValue)
    | _ => stop .invalid
    popDepth

/-- Reads an argument of a path: a lifetime, a constant or a type. -/
def argument (fuel : Nat) : StateM State Unit :=
  match fuel with
  | 0 => return
  | fuel + 1 => item do
    if ← eat 'L' then lifetime (← parse Parse.number62)
    else if ← eat 'K' then constant fuel false
    else type fuel

/-- Reads a type. -/
def type (fuel : Nat) : StateM State Unit :=
  match fuel with
  | 0 => return
  | fuel + 1 => item do
    let tag ← parse Parse.char
    if let some name := basicType? tag then
      write name
      throw ()
    parse Parse.pushDepth
    match tag with
    | 'R' | 'Q' =>
      write "&"
      if ← eat 'L' then
        let index ← parse Parse.number62
        if index ≠ 0 then
          lifetime index
          write " "
      if tag != 'R' then write "mut "
      type fuel
    | 'P' | 'O' =>
      write (if tag = 'P' then "*const " else "*mut ")
      type fuel
    | 'A' | 'S' =>
      write "["
      type fuel
      if tag = 'A' then
        write "; "
        constant fuel true
      write "]"
    | 'T' =>
      write "("
      if (← list (type fuel) ", ") = 1 then write ","
      write ")"
    | 'F' => inBinder (function fuel)
    | 'D' =>
      write "dyn "
      inBinder (do let _ ← list (bound fuel) " + ")
      if !(← eat 'L') then stop .invalid
      let index ← parse Parse.number62
      if index ≠ 0 then
        write " + "
        lifetime index
    | 'B' => follow (type fuel)
    | _ =>
      modify fun st => if st.fault.isNone then { st with next := st.next - 1 } else st
      path fuel false
    popDepth

/-- Reads the type of a function. -/
def function (fuel : Nat) : StateM State Unit :=
  match fuel with
  | 0 => return
  | fuel + 1 => item do
    let unchecked ← eat 'U'
    let mut convention : Option (List Char) := none
    if ← eat 'K' then
      if ← eat 'C' then convention := some ['C']
      else
        let name ← parse Name.take
        if name.ascii.isEmpty || !name.insertions.isEmpty then stop .invalid
        convention := some name.ascii
    if unchecked then write "unsafe "
    if let some cs := convention then
      write ("extern \"" ++ String.ofList (cs.map fun c => if c = '_' then '-' else c) ++ "\" ")
    write "fn("
    let _ ← list (type fuel) ", "
    write ")"
    if !(← eat 'u') then
      write " -> "
      type fuel

/-- Reads a path whose arguments are left open for more; whether they are is kept in the result. -/
def openPath (fuel : Nat) : StateM State Bool :=
  match fuel with
  | 0 => return false
  | fuel + 1 => do
    if ← eat 'B' then
      let before := (← get).out
      let st ← get
      match ← (parse Parse.reference).run with
      | .error _ => return false
      | .ok position =>
        let st := { st with next := (← get).next }
        if st.writing then
          set { st with next := position, depth := st.depth + 1, out := before }
          let isOpen ← openPath fuel
          modify fun after => { after with next := st.next, depth := st.depth, fault := st.fault }
          return isOpen
        else return false
    else if ← eat 'I' then
      path fuel false
      write "<"
      let _ ← list (argument fuel) ", "
      return true
    else
      path fuel false
      return false

/-- Reads a bound of an object type: a path and the types it fixes. -/
def bound (fuel : Nat) : StateM State Unit :=
  match fuel with
  | 0 => return
  | fuel + 1 => item do
    let isOpen ← openPath fuel
    let isOpen ← fixedTypes fuel isOpen ((← get).symbol.size + 1)
    if isOpen then write ">"

/-- Reads the types that a bound fixes, each behind its name. -/
def fixedTypes (fuel : Nat) (isOpen : Bool) (count : Nat) : Item Bool :=
  match fuel, count with
  | fuel + 1, count + 1 => do
    if ← eat 'p' then
      write (if isOpen then ", " else "<")
      write (← parse Name.take).text
      write " = "
      type fuel
      fixedTypes fuel true count
    else return isOpen
  | _, _ => return isOpen

/-- Reads a constant; outside of an expression a compound one stands in braces. -/
def constant (fuel : Nat) (inValue : Bool) : StateM State Unit :=
  match fuel with
  | 0 => return
  | fuel + 1 => item do
    let tag ← parse Parse.char
    parse Parse.pushDepth
    let openBrace : StateM State Bool := do
      if !inValue then write "\x7b"
      return !inValue
    let mut braced := false
    match tag with
    | 'p' => write "_"
    | 'h' | 't' | 'm' | 'y' | 'o' | 'j' => constNumber
    | 'a' | 's' | 'l' | 'x' | 'n' | 'i' =>
      if ← eat 'n' then write "-"
      constNumber
    | 'b' =>
      match hexValue? (← parse Parse.hexDigits) with
      | some 0 => write "false"
      | some 1 => write "true"
      | _ => stop .invalid
    | 'c' =>
      match hexValue? (← parse Parse.hexDigits) with
      | some n =>
        if n < 0xd800 ∨ (0xe000 ≤ n ∧ n < 0x110000) then quoted '\'' [Char.ofNat n]
        else stop .invalid
      | none => stop .invalid
    | 'e' =>
      braced ← openBrace
      write "*"
      constString
    | 'R' | 'Q' =>
      if ← (if tag = 'R' then eat 'e' else pure false) then constString
      else
        braced ← openBrace
        write (if tag = 'R' then "&" else "&mut ")
        constant fuel true
    | 'A' =>
      braced ← openBrace
      write "["
      let _ ← list (constant fuel true) ", "
      write "]"
    | 'T' =>
      braced ← openBrace
      write "("
      if (← list (constant fuel true) ", ") = 1 then write ","
      write ")"
    | 'V' =>
      braced ← openBrace
      path fuel true
      match ← parse Parse.char with
      | 'U' => pure ()
      | 'T' =>
        write "("
        let _ ← list (constant fuel true) ", "
        write ")"
      | 'S' =>
        write " \x7b "
        let _ ← list (field fuel) ", "
        write " \x7d"
      | _ => stop .invalid
    | 'B' => follow (constant fuel inValue)
    | _ => stop .invalid
    if braced then write "\x7d"
    popDepth

/-- Reads a named field of a constant. -/
def field (fuel : Nat) : StateM State Unit :=
  match fuel with
  | 0 => return
  | fuel + 1 => item do
    let _ ← parse Parse.disambiguator
    write ((← parse Name.take).text ++ ": ")
    constant fuel true

end

/-- Enough steps for every nesting that the depth limit admits. -/
def nestingFuel : Nat := 4 * maxDepth + 16

/-- The longest text that is written. -/
def maxText : Nat := 1000000

/-- The path that a symbol of this form stands for, and what follows it. -/
def demangle? (symbol : String) : Option (String × List Char) := do
  let cs := symbol.toList
  let inner ← Hashed.stripMark? ["_R", "R", "__R"] cs
  let first ← inner.head?
  if ¬ ('A' ≤ first ∧ first ≤ 'Z') ∨ inner.any (fun c => c.toNat ≥ 0x80) then none
  else
    let start : State := ⟨inner.toArray, 0, 0, none, false, 0, ""⟩
    let checked := ((path nestingFuel false).run start).2
    if checked.fault.isSome then none
    else
      let checked :=
        match checked.symbol[checked.next]? with
        | some c =>
          if 'A' ≤ c ∧ c ≤ 'Z' then
            ((path nestingFuel false).run checked).2
          else checked
        | none => checked
      if checked.fault.isSome then none
      else
        let written := ((path nestingFuel true).run { start with writing := true }).2.out
        some (if written.length ≤ maxText then written else "\x7bsize limit reached\x7d", inner.drop checked.next)

end SourceDebugger.Symbol.Structured
