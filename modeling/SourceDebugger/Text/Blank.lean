/-!
# Blanks

The characters that count as white space, and texts without those at their ends.
-/

namespace SourceDebugger.Text

/-- Whether a character is white space: the ASCII blanks and line ends, and the spaces and
separators of Unicode. -/
def isBlank (c : Char) : Bool :=
  let n := c.toNat
  (9 ≤ n && n ≤ 13) || n == 0x20 || n == 0x85 || n == 0xa0 || n == 0x1680 ||
    (0x2000 ≤ n && n ≤ 0x200a) || n == 0x2028 || n == 0x2029 || n == 0x202f || n == 0x205f ||
    n == 0x3000

/-- Characters without the white space at their start. -/
def trimStart (cs : List Char) : List Char := cs.dropWhile isBlank

/-- Characters without the white space at either end. -/
def trim (cs : List Char) : List Char := (trimStart (trimStart cs).reverse).reverse

end SourceDebugger.Text
