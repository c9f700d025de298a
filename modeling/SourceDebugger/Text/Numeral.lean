/-!
# Decimal numerals

Numbers as an operator types them: decimal digits, which a plus sign may precede.
-/

namespace SourceDebugger.Text.Numeral

/-- The value of a decimal digit. -/
def digit? (c : Char) : Option Nat :=
  if '0' ≤ c ∧ c ≤ '9' then some (c.toNat - '0'.toNat) else none

/-- The value of a row of digits behind a number. -/
def valueFrom (n : Nat) : List Char → Option Nat
  | [] => some n
  | c :: cs => do valueFrom (10 * n + (← digit? c)) cs

/-- The word that a numeral stands for; none if the text is no numeral or its value does not fit. -/
def word? (cs : List Char) : Option UInt64 := do
  let digits := match cs with
    | '+' :: rest => rest
    | cs => cs
  if digits.isEmpty then none
  let n ← valueFrom 0 digits
  if n < UInt64.size then some (UInt64.ofNat n) else none

end SourceDebugger.Text.Numeral
