/-
This file keeps the diagnostics of a program together, in the order in which
they were found. Each of them can be emitted once: emitting the whole bulletin
stops at the first one that has gone out before, and whatever stood in front
of it has gone out by then.
-/

import Octet.Diagnostic.Render

namespace Octet

/-- A diagnostic, and whether it has been emitted. -/
structure Notice where
  diagnostic : Diagnostic
  emitted : Bool
deriving DecidableEq

/-- Diagnostics in the order in which they were found. -/
abbrev Bulletin := List Notice

namespace Bulletin

/-- A bulletin of which nothing has been emitted. -/
def ofDiagnostics (diagnostics : List Diagnostic) : Bulletin :=
  diagnostics.map (⟨·, false⟩)

/-- The bulletin with one more diagnostic at its end. -/
def add (bulletin : Bulletin) (diagnostic : Diagnostic) : Bulletin :=
  bulletin ++ [⟨diagnostic, false⟩]

/-- The diagnostics, emitted or not. -/
def diagnostics (bulletin : Bulletin) : List Diagnostic :=
  bulletin.map Notice.diagnostic

/-- Emits every diagnostic. The answer is the bulletin afterwards, the text written, and
whether none of them had been emitted before. -/
def emit (colouring : Colouring) : Bulletin → Bulletin × String × Bool
  | [] => ([], "", true)
  | notice :: rest =>
    if notice.emitted then (notice :: rest, "", false)
    else
      let (after, text, complete) := emit colouring rest
      (⟨notice.diagnostic, true⟩ :: after, notice.diagnostic.emitted colouring ++ text, complete)

/-- The complaint about emitting a diagnostic twice. -/
def emittedTwice : String :=
  "diagnostic has already been emitted"

end Bulletin

/-- A number of errors in words. -/
def errorCount (count : Nat) : String :=
  toString count ++ (if count = 1 then " error" else " errors")

/-- The reports of some diagnostics and how many they are. -/
def fullReport (diagnostics : List Diagnostic) (dressed : Bool) : String :=
  "\n".intercalate (diagnostics.map (·.render dressed) ++ [errorCount diagnostics.length])

/-- The outcome of an assembly that failed, in one sentence. -/
def assemblyFailed (diagnostics : List Diagnostic) : String :=
  "assembly failed with " ++ errorCount diagnostics.length

end Octet
