/-
This file writes numbers the way every listing, dump and message of the
toolchain shows them: capital hexadecimal, at least two characters wide. A
number above 255 simply gets longer, and a negative number is a minus sign
followed by its magnitude. The columns of those texts are made by the two
padding functions, which count code points and never cut.
-/

namespace Octet.Text

/-! ### Columns -/

/-- A run of one character. -/
def repeated (count : Nat) (filler : Char) : String :=
  String.ofList (List.replicate count filler)

/-- Blanks follow the text up to the given width. -/
def padRight (width : Nat) (text : String) : String :=
  text ++ repeated (width - text.length) ' '

/-- The filler precedes the text up to the given width. -/
def padLeft (width : Nat) (filler : Char) (text : String) : String :=
  repeated (width - text.length) filler ++ text

/-! ### Hexadecimal numbers -/

/-- The capital hexadecimal digits of a number, without leading zeros. -/
def hexDigits (number : Nat) : String :=
  String.ofList ((Nat.toDigits 16 number).map Char.toUpper)

/-- A number in hexadecimal, two characters or more; the sign counts as one of them. -/
def hex : Int → String
  | .ofNat magnitude => padLeft 2 '0' (hexDigits magnitude)
  | .negSucc predecessor => "-" ++ hexDigits (predecessor + 1)

/-- A number in hexadecimal behind the dollar sign that marks a literal. -/
def dollarHex (number : Int) : String :=
  "$" ++ hex number

/-- A byte in hexadecimal: always two digits. -/
def hexByte (byte : UInt8) : String :=
  hex byte.toNat

/-- Bytes in hexadecimal, parted by single blanks. -/
def hexRow (bytes : List UInt8) : String :=
  " ".intercalate (bytes.map hexByte)

/-- Whether a byte is a character of printable ASCII. -/
def isGraphic (byte : UInt8) : Bool :=
  0x20 ≤ byte && byte < 0x7F

end Octet.Text
