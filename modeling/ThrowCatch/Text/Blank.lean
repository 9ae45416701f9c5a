/-!
Blank characters and trimming. Names and type texts are cut out of source
files with whatever spacing stood around them, so every reader of such a text
trims it here.
-/

namespace ThrowCatch.Text

/-- Characters that count as blank: the ASCII controls tab to carriage return
and the four separators before the space, and the spaces, line and paragraph
separators of Unicode. -/
def isBlank (c : Char) : Bool :=
  let n := c.toNat
  (9 ≤ n && n ≤ 13) || (28 ≤ n && n ≤ 32) || n == 0x85 || n == 0xa0 ||
    n == 0x1680 || (0x2000 ≤ n && n ≤ 0x200a) || n == 0x2028 || n == 0x2029 ||
    n == 0x202f || n == 0x205f || n == 0x3000

def trimLeft (cs : List Char) : List Char :=
  cs.dropWhile isBlank

def trimRight (cs : List Char) : List Char :=
  (cs.reverse.dropWhile isBlank).reverse

/-- The text without the blanks at its two ends. -/
def trim (s : String) : String :=
  String.ofList (trimRight (trimLeft s.toList))

end ThrowCatch.Text
