/-
This file knows the two ways in which text falls into lines. Source text is
cut at every line feed, and files are first brought to that form by turning
carriage returns, alone or before a line feed, into line feeds. Symbol files
are cut at every line boundary that Unicode knows, and a boundary at the very
end opens no further line.
-/

namespace Octet.Text

/-- Turns a carriage return, together with a line feed behind it, into a line feed. -/
def unifyChars : List Char → List Char
  | [] => []
  | '\r' :: '\n' :: rest => '\n' :: unifyChars rest
  | '\r' :: rest => '\n' :: unifyChars rest
  | c :: rest => c :: unifyChars rest

/-- The text of a file, in which a line ends with a line feed and nothing else. -/
def unifyNewlines (text : String) : String :=
  String.ofList (unifyChars text.toList)

/-- Characters that end a line. -/
def isBoundary (c : Char) : Bool :=
  [0x0A, 0x0B, 0x0C, 0x0D, 0x1C, 0x1D, 0x1E, 0x85, 0x2028, 0x2029].contains c.toNat

/-- The lines of a text, without their boundaries. -/
def boundedLines : List Char → List (List Char)
  | [] => []
  | '\r' :: '\n' :: rest => [] :: boundedLines rest
  | c :: rest =>
    if isBoundary c then [] :: boundedLines rest
    else
      match boundedLines rest with
      | [] => [[c]]
      | first :: others => (c :: first) :: others

end Octet.Text
