/-
This file ties a cause to its place: a span within a line, and once it is
known, the line. A line number counts from zero and is shown counting from
one.
-/

import Octet.Diagnostic.Cause
import Octet.Source.Span

namespace Octet

/-- A mistake and where it was found. -/
structure Diagnostic where
  cause : Cause
  span : Option Span
  lineText : Option String
  lineNumber : Option Int
deriving DecidableEq

namespace Diagnostic

/-- A mistake at a place in a line that is not known yet. -/
def atSpan (span : Span) (cause : Cause) : Diagnostic :=
  ⟨cause, some span, none, none⟩

/-- The same mistake, on the given line. -/
def onLine (diagnostic : Diagnostic) (text : String) (number : Int) : Diagnostic :=
  { diagnostic with lineText := some text, lineNumber := some number }

/-- The message behind its line number, if that is known. -/
def title (diagnostic : Diagnostic) : String :=
  match diagnostic.lineNumber with
  | some number => "line " ++ toString (number + 1) ++ ": " ++ diagnostic.cause.message
  | none => diagnostic.cause.message

end Diagnostic

end Octet
