/-
This file lays a diagnostic out as a report: the message, the line with a row
of carets under the place, and the notes behind a gutter as wide as the line
number. Spans count bytes and the reader sees characters, so a span is turned
into columns by decoding what stands before each of its ends; behind the end
of the line every byte counts as one column.
-/

import Octet.Diagnostic.Basic
import Octet.Text.Hex
import Octet.Text.Style
import Octet.Text.Utf8

namespace Octet

/-! ### Columns -/

/-- The column at which the given byte of a line is shown. A character cut by the offset takes
one column, and bytes past the end of the line take one each. -/
def columnOfByte (line : String) (offset : Nat) : Nat :=
  let bytes := Utf8.encode line
  (Utf8.decodeLossy (bytes.take offset)).length + (offset - bytes.length)

/-- The column and the width of a span; the width is at least one. -/
def caretRange (line : String) (span : Span) : Nat × Nat :=
  let column := columnOfByte line span.lo
  (column, max (columnOfByte line span.hi - column) 1)

/-! ### The report -/

/-- Bold text, or plain text if nothing is to be dressed. -/
def dressedIf (dressed : Bool) (colour : Option Text.Colour) (text : String) : String :=
  if dressed then Text.bold colour text else text

namespace Diagnostic

/-- The line number as shown; nothing if it is not known. -/
def gutter (diagnostic : Diagnostic) : String :=
  match diagnostic.lineNumber with
  | some number => toString (number + 1)
  | none => ""

/-- The line and its carets, if the report has both a line and a place in it. -/
def excerpt (diagnostic : Diagnostic) (dressed : Bool) : List String :=
  match diagnostic.span, diagnostic.lineText with
  | some span, some line =>
    let (column, width) := caretRange line span
    let bar := dressedIf dressed (some .blue) "|"
    [dressedIf dressed (some .blue) diagnostic.gutter ++ " " ++ bar ++ " " ++ line,
      Text.repeated diagnostic.gutter.length ' ' ++ " " ++ bar ++ " " ++ Text.repeated column ' ' ++
        dressedIf dressed (some .red) (Text.repeated width '^')]
  | _, _ => []

/-- A note behind the gutter. -/
def noteLine (diagnostic : Diagnostic) (dressed : Bool) (note : String) : String :=
  Text.repeated diagnostic.gutter.length ' ' ++ " " ++ dressedIf dressed none "= note:" ++ " " ++
    note

/-- The report, which ends with a line feed. -/
def render (diagnostic : Diagnostic) (dressed : Bool) : String :=
  let heading := dressedIf dressed (some .red) "error" ++ ": " ++
    dressedIf dressed none diagnostic.cause.message
  let notes := diagnostic.cause.notes.map (diagnostic.noteLine dressed)
  "\n".intercalate (heading :: diagnostic.excerpt dressed ++ notes ++ [""])

end Diagnostic

/-! ### Emission -/

/-- Whether reports go out in colour. -/
inductive Colouring where
  /-- As the receiving end likes it; nobody but a terminal likes colour. -/
  | automatic
  | always
  | never
deriving DecidableEq, Repr

/-- A line of text as it reaches something that is not a terminal. -/
def echoed (colouring : Colouring) (text : String) : String :=
  match colouring with
  | .always => text ++ "\n"
  | _ => Text.plain (text ++ "\n")

/-- What is written when a diagnostic is emitted. -/
def Diagnostic.emitted (diagnostic : Diagnostic) (colouring : Colouring) : String :=
  echoed colouring (diagnostic.render (colouring ≠ .never))

end Octet
