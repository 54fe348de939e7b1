/-
This file lists the blank characters: those of the Unicode categories for
spaces and separators together with the control characters that move the
print position. The zero-width space U+200B and the byte order mark U+FEFF
are not among them.
-/

import Octet.Character.Range

namespace Octet.Character

/-- The code points of the blanks. -/
def blankRanges : Ranges :=
  [(0x09, 0x0D), (0x1C, 0x20), (0x85, 0x85), (0xA0, 0xA0), (0x1680, 0x1680),
   (0x2000, 0x200A), (0x2028, 0x2029), (0x202F, 0x202F), (0x205F, 0x205F),
   (0x3000, 0x3000)]

/-- Whether the character is blank. -/
def isBlank (c : Char) : Bool :=
  blankRanges.holds c.toNat

/-- Cuts the blanks off both ends. -/
def trimBlanks (text : List Char) : List Char :=
  ((text.dropWhile isBlank).reverse.dropWhile isBlank).reverse

/-- The characters between blanks, in order; a run of blanks parts two fields once. -/
def fields (text : List Char) : List (List Char) :=
  (text.splitOnP isBlank).filter (!·.isEmpty)

end Octet.Character
