/-!
# Blank characters

The characters of the Unicode property White_Space, and texts without them at their ends.
-/

namespace Pipework.Text

/-- The ranges of White_Space. -/
def blankRanges : List (Nat × Nat) :=
  [(0x09, 0x0D), (0x20, 0x20), (0x85, 0x85), (0xA0, 0xA0), (0x1680, 0x1680), (0x2000, 0x200A),
    (0x2028, 0x2029), (0x202F, 0x202F), (0x205F, 0x205F), (0x3000, 0x3000)]

/-- Whether a code point lies in one of the ranges. -/
def inRanges (ranges : List (Nat × Nat)) (code : Nat) : Bool :=
  ranges.any fun range => range.1 ≤ code && code ≤ range.2

/-- Whether a character is white space. -/
def isBlank (c : Char) : Bool :=
  inRanges blankRanges c.toNat

/-- The characters after the leading blanks. -/
def trimStart (chars : List Char) : List Char :=
  chars.dropWhile isBlank

/-- The characters without the blanks at both ends. -/
def trimChars (chars : List Char) : List Char :=
  (trimStart (trimStart chars).reverse).reverse

/-- A text without the blanks at its ends. -/
def trim (text : String) : String :=
  String.ofList (trimChars text.toList)

/-- Whether a text has no other characters than blanks. -/
def allBlank (text : String) : Bool :=
  text.toList.all isBlank

end Pipework.Text
