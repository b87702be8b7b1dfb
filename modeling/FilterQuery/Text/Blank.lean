import FilterQuery.Text.Ranges

/-!
# FilterQuery.Text.Blank

Blank characters are those with the Unicode property White_Space.  They
separate the tokens of a query and are trimmed from the names of a whitelist
and from the end of a quoted source line.
-/

namespace FilterQuery.Text

/-! ## the property -/

/-- The ranges of White_Space: 25 characters.  The information separators
U+001C to U+001F, the Mongolian vowel separator, and the zero-width spaces are
not among them. -/
def blanks : List (Nat × Nat) :=
  [(0x9, 0xD), (0x20, 0x20), (0x85, 0x85), (0xA0, 0xA0), (0x1680, 0x1680), (0x2000, 0x200A),
   (0x2028, 0x2029), (0x202F, 0x202F), (0x205F, 0x205F), (0x3000, 0x3000)]

/-- Does the character separate tokens? -/
def isBlank (c : Char) : Bool := inRanges blanks c

/-! ## trimming -/

/-- Drop the blanks at the end. -/
def trimRight (cs : List Char) : List Char :=
  (cs.reverse.dropWhile isBlank).reverse

/-- Drop the blanks at both ends. -/
def trim (cs : List Char) : List Char :=
  trimRight (cs.dropWhile isBlank)

end FilterQuery.Text
