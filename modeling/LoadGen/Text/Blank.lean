/-!
# Blank space around names

Names in a configuration may carry blank space around them and may be written in either case.
Blank characters are those with the Unicode property White_Space; letter case is folded for the
ASCII letters only. `trim` removes the blanks at both ends of a text and `foldCase` lowers its
ASCII letters.
-/

namespace LoadGen.Text

/-- The code points with the property White_Space, as closed ranges in ascending order. -/
def blankRanges : List (Nat × Nat) :=
  [(0x09, 0x0d), (0x20, 0x20), (0x85, 0x85), (0xa0, 0xa0), (0x1680, 0x1680), (0x2000, 0x200a),
    (0x2028, 0x2029), (0x202f, 0x202f), (0x205f, 0x205f), (0x3000, 0x3000)]

/-- Whether a character has the property White_Space. -/
def isBlank (c : Char) : Bool :=
  blankRanges.any fun r => r.1 ≤ c.toNat && c.toNat ≤ r.2

/-- The characters left when the blanks at both ends are removed. -/
def trimChars (s : List Char) : List Char :=
  ((s.dropWhile isBlank).reverse.dropWhile isBlank).reverse

/-- The text without the blanks at its two ends. -/
def trim (s : String) : String :=
  String.ofList (trimChars s.toList)

/-- The text with its ASCII letters lowered. -/
def foldCase (s : String) : String :=
  s.map Char.toLower

end LoadGen.Text
