/-! White space. A character is blank when Unicode gives it a white-space role, the four
information separators U+001C to U+001F included; zero-width characters are not blank. -/

namespace InfraPins.Text

/-- Membership in a table of inclusive code point ranges. -/
def inRanges (ranges : List (Nat × Nat)) (code : Nat) : Bool :=
  ranges.any fun range => range.1 ≤ code && code ≤ range.2

/-- The code points of white space. -/
def blankRanges : List (Nat × Nat) :=
  [(0x9, 0xD), (0x1C, 0x20), (0x85, 0x85), (0xA0, 0xA0), (0x1680, 0x1680), (0x2000, 0x200A),
    (0x2028, 0x2029), (0x202F, 0x202F), (0x205F, 0x205F), (0x3000, 0x3000)]

/-- A white-space character. -/
def isBlank (c : Char) : Bool :=
  inRanges blankRanges c.toNat

/-- Text without the white space at its start. -/
def trimStart (text : List Char) : List Char :=
  text.dropWhile isBlank

/-- Text without the white space at its end. -/
def trimEnd (text : List Char) : List Char :=
  (text.reverse.dropWhile isBlank).reverse

/-- Text without the white space at either end. -/
def trim (text : List Char) : List Char :=
  trimEnd (trimStart text)

end InfraPins.Text
