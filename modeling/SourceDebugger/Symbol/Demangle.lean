import SourceDebugger.Symbol.Structured

/-!
# Readable names of symbols

A compiler writes the path of a function into the name of its symbol. This module gives back the
path; a name that is no such symbol stands for itself.
-/

namespace SourceDebugger.Symbol

/-- Cuts off a suffix of the link step: the mark `.llvm.` and upper case hexadecimal digits or
at signs up to the end. -/
def withoutLinkSuffix (symbol : String) : String :=
  let mark := ".llvm.".toList
  let rec split (before : List Char) : List Char → Option (List Char × List Char)
    | [] => none
    | c :: rest =>
      if mark.isPrefixOf (c :: rest) then some (before.reverse, (c :: rest).drop mark.length)
      else split (c :: before) rest
  match split [] symbol.toList with
  | some (before, suffix) =>
    if suffix.all (fun c => c.isDigit || ('A' ≤ c && c ≤ 'F') || c = '@') then String.ofList before
    else symbol
  | none => symbol

/-- Whether characters can stand behind a symbol: a dot first, and only visible ASCII. -/
def isSuffix (cs : List Char) : Bool :=
  match cs with
  | [] => true
  | c :: _ => c = '.' && cs.all fun c => 0x21 ≤ c.toNat && c.toNat ≤ 0x7e

/-- The readable name of a symbol. -/
def displayName (symbol : String) : String :=
  let symbol := withoutLinkSuffix symbol
  match (Hashed.demangle? symbol) <|> (Structured.demangle? symbol) with
  | some (path, suffix) => if isSuffix suffix then path ++ String.ofList suffix else symbol
  | none => symbol

end SourceDebugger.Symbol
