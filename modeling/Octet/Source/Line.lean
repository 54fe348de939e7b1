/-
This file cuts source text into its physical lines. A line knows its number,
counted from zero, the byte at which it begins and its text. One carriage
return at its end belongs to the line break and not to the text, yet it counts
when the next line's beginning is computed.
-/

import Octet.Source.Span
import Octet.Text.Utf8

namespace Octet

/-- One physical line of source text. -/
structure PhysicalLine where
  number : Int
  offset : Nat
  text : String
deriving DecidableEq

/-- The bytes of the line within the whole source. -/
def PhysicalLine.span (line : PhysicalLine) : Span :=
  ⟨line.offset, line.offset + Utf8.width line.text.toList, Nat.le_add_right _ _⟩

/-- Takes one carriage return off the end. -/
def dropReturn (piece : List Char) : List Char :=
  if piece.getLast? = some '\r' then piece.dropLast else piece

/-- Numbers the pieces between line feeds and says where each begins. -/
def numberPieces (number offset : Nat) : List (List Char) → List PhysicalLine
  | [] => []
  | piece :: rest =>
    ⟨number, offset, String.ofList (dropReturn piece)⟩ ::
      numberPieces (number + 1) (offset + Utf8.width piece + 1) rest

/-- The physical lines of a source text. -/
def physicalLines (source : String) : List PhysicalLine :=
  numberPieces 0 0 (source.toList.splitOn '\n')

end Octet
