/-
This file reads a whole source text, line by line. A line holds at most one
statement, and a bad line never keeps the others from being read: every
mistake is collected, each with its line, and the program is accepted only if
there is none.
-/

import Octet.Assembly.Grammar
import Octet.Source.Line

namespace Octet

/-- A statement with the physical line it came from. -/
structure Entry where
  statement : Statement
  line : PhysicalLine
deriving DecidableEq

/-- The statements of a source in order; lines without one have no entry. -/
abbrev Program := List Entry

namespace Entry

/-- The entry that a physical line makes. -/
def ofLine (line : PhysicalLine) : Except Diagnostic (Option Entry) :=
  match Statement.ofLine line.text with
  | .ok statement => .ok (statement.map (⟨·, line⟩))
  | .error diagnostic => .error (diagnostic.onLine line.text line.number)

/-- The statement behind the bytes of the source that its line takes. -/
def text (entry : Entry) : String :=
  Located.text Statement.text ⟨entry.statement, entry.line.span⟩

end Entry

namespace Program

/-- The number of bytes that the program encodes to. -/
def size : Program → Nat
  | [] => 0
  | entry :: rest => entry.statement.size + size rest

/-- The entries of a source and the mistakes in it, both in the order of the lines. -/
def survey (source : String) : Program × List Diagnostic :=
  let outcomes := (physicalLines source).map Entry.ofLine
  (outcomes.filterMap fun outcome => outcome.toOption.join,
    outcomes.filterMap fun outcome =>
      match outcome with
      | .ok _ => none
      | .error diagnostic => some diagnostic)

/-- The program that a source holds, or everything that is wrong with its lines. -/
def ofSource (source : String) : Except (List Diagnostic) Program :=
  match survey source with
  | (program, []) => .ok program
  | (_, diagnostics) => .error diagnostics

end Program

end Octet
