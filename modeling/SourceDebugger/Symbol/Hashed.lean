/-!
# Symbols with a hash

The older form of a mangled symbol: the mark `_ZN`, the parts of a path each behind its length,
and the mark `E`. The last part usually is a hash, which is left out. Characters that a symbol
cannot hold are written as escapes between dollar signs.
-/

namespace SourceDebugger.Symbol.Hashed

/-- What follows one of the marks that begin a symbol. -/
def stripMark? (marks : List String) (cs : List Char) : Option (List Char) :=
  marks.findSome? fun mark =>
    if mark.toList.isPrefixOf cs then some (cs.drop mark.length) else none

/-- The value of decimal digits, if it fits into 64 bits. -/
def decimal? (ds : List Char) : Option Nat := do
  let n := ds.foldl (fun n d => 10 * n + (d.toNat - '0'.toNat)) 0
  if n < UInt64.size then some n else none

/-- The parts of the path and the characters behind the mark of its end. Every part needs its
length, all its characters and one more behind it. -/
def parts? (fuel : Nat) (cs : List Char) : Option (List (List Char) × List Char) :=
  match fuel, cs with
  | _, [] => none
  | _, 'E' :: rest => some ([], rest)
  | 0, _ => none
  | fuel + 1, cs => do
    let digits := cs.takeWhile Char.isDigit
    if digits.isEmpty then none
    else
      let len ← decimal? digits
      let rest := cs.drop digits.length
      if rest.length ≤ len then none
      else
        let (parts, rest') ← parts? fuel (rest.drop len)
        return (rest.take len :: parts, rest')

/-- Whether a part is a hash: the letter `h` and hexadecimal digits. -/
def isHash : List Char → Bool
  | 'h' :: rest => rest.all fun c => c.isDigit || ('a' ≤ c && c ≤ 'f') || ('A' ≤ c && c ≤ 'F')
  | _ => false

/-- The escapes with a name. -/
def namedEscapes : List (String × String) :=
  [("SP", "@"), ("BP", "*"), ("RF", "&"), ("LT", "<"), ("GT", ">"), ("LP", "("), ("RP", ")"),
   ("C", ",")]

/-- The character that an escape gives by its number, unless it is a control character. -/
def numberedEscape? : List Char → Option String
  | 'u' :: digits =>
    if digits.isEmpty || !digits.all (fun c => c.isDigit || ('a' ≤ c && c ≤ 'f')) then none
    else
      let n := digits.foldl (fun n d =>
        16 * n + (if d.isDigit then d.toNat - '0'.toNat else d.toNat - 'a'.toNat + 10)) 0
      if n < 0x20 || (0x7f ≤ n && n < 0xa0) then none
      else if n < 0xd800 || (0xe000 ≤ n && n < 0x110000) then some (Char.ofNat n).toString
      else none
  | _ => none

/-- The text of a part: two dots separate like colons, and escapes are replaced. What follows an
escape that is not known is kept as it is. -/
def partText (fuel : Nat) (cs : List Char) : String :=
  match fuel, cs with
  | 0, cs => String.ofList cs
  | _, [] => ""
  | fuel + 1, '.' :: '.' :: rest => "::" ++ partText fuel rest
  | fuel + 1, '.' :: rest => "." ++ partText fuel rest
  | fuel + 1, '$' :: rest =>
    match rest.findIdx? (· == '$') with
    | none => String.ofList cs
    | some len =>
      let escape := rest.take len
      let known := ((namedEscapes.find? (·.1 == String.ofList escape)).map (·.2)) <|> numberedEscape? escape
      match known with
      | some s => s ++ partText fuel (rest.drop (len + 1))
      | none => String.ofList cs
  | fuel + 1, cs =>
    let plain := cs.takeWhile fun c => c != '$' && c != '.'
    if plain.isEmpty then String.ofList cs
    else String.ofList plain ++ partText fuel (cs.drop plain.length)

/-- The text of a part; an underscore that protects an escape at the start is left out. -/
def renderPart (cs : List Char) : String :=
  match cs with
  | '_' :: '$' :: rest => partText (cs.length + 1) ('$' :: rest)
  | cs => partText (cs.length + 1) cs

/-- The path that a symbol of this form stands for, and what follows it. -/
def demangle? (symbol : String) : Option (String × List Char) := do
  let inner ← stripMark? ["_ZN", "ZN", "__ZN"] symbol.toList
  if inner.any (fun c => c.toNat ≥ 0x80) then none
  else
    let (parts, rest) ← parts? inner.length inner
    let shown :=
      match parts.getLast? with
      | some last => if isHash last then parts.dropLast else parts
      | none => parts
    return (String.intercalate "::" (shown.map renderPart), rest)

end SourceDebugger.Symbol.Hashed
