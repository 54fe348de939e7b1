/-
This file writes down what became of a program: a listing with the address,
the bytes and the line of every statement, and the table of labels, once at
the foot of the listing and once as a file of its own. Labels are sorted by
name.
-/

import Octet.Assembly.Image

namespace Octet

namespace Row

/-- The row of a listing. -/
def text (row : Row) : String :=
  Text.dollarHex row.address ++ "   " ++ Text.padRight 9 (Text.hexRow row.bytes) ++ "  " ++
    Text.padLeft 4 ' ' (toString (row.line.number + 1)) ++ "  " ++ row.line.text

end Row

namespace Label

/-- The label in the table at the foot of a listing. -/
def listed (label : Label) : String :=
  Text.padRight 20 label.name ++ " = " ++ Text.dollarHex label.address

/-- The label in a symbol file. -/
def filed (label : Label) : String :=
  label.name ++ " " ++ Text.dollarHex label.address

end Label

namespace Image

/-- The lines above the rows of a listing. -/
def listingHead : List String :=
  ["tiny8 Assembler Listing", Text.repeated 60 '=', "", "Addr  Code       Line  Source",
    Text.repeated 60 '-']

/-- The lines between the rows of a listing and its labels. -/
def labelHead : List String :=
  ["", "Symbol Table", Text.repeated 30 '-']

/-- The listing; it ends without a line feed. -/
def listing (image : Image) : String :=
  "\n".intercalate (listingHead ++ image.rows.map Row.text ++ labelHead ++
    image.labels.sorted.map Label.listed)

/-- The content of a symbol file. -/
def symbolFile (image : Image) : String :=
  let lines := "# Symbol table" :: "# Generated by t8asm" :: image.labels.sorted.map Label.filed
  String.join (lines.map (· ++ "\n"))

end Image

end Octet
