/-!
# Blank characters and trimming

The blank characters of a text are those with the Unicode property
`White_Space`. A text is trimmed by dropping the longest blank stretch at each
end; `trim` keeps everything between the first and the last character that is
not blank.
-/

namespace Tabular.Text

/-- The ranges of code points with the property `White_Space`, ascending. -/
def blankRanges : List (Nat × Nat) :=
  [(0x09, 0x0D), (0x20, 0x20), (0x85, 0x85), (0xA0, 0xA0), (0x1680, 0x1680),
   (0x2000, 0x200A), (0x2028, 0x2029), (0x202F, 0x202F), (0x205F, 0x205F),
   (0x3000, 0x3000)]

/-- A character is blank when its code point lies in one of the ranges. -/
def isBlank (c : Char) : Bool :=
  blankRanges.any fun r => r.1 ≤ c.toNat && c.toNat ≤ r.2

/-- Drops what is blank at the end. -/
def trimRight (s : List Char) : List Char :=
  (s.reverse.dropWhile isBlank).reverse

/-- Drops what is blank at either end. -/
def trimChars (s : List Char) : List Char :=
  trimRight (s.dropWhile isBlank)

/-- The text without the blank characters at its ends. -/
def trim (s : String) : String :=
  String.ofList (trimChars s.toList)

/-- A text is blank when it has no character but blank ones. -/
def isBlankText (s : String) : Bool :=
  s.toList.all isBlank

/-! ## What trimming leaves -/

end Tabular.Text
