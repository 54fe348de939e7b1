/-
This file keeps what the last assembly left behind, so that listings and
tables can be asked for later. A source that cannot be read changes nothing; a
source that can be read replaces the program, and when it is encoded it
replaces the image, even if encoding finds mistakes. It is the same encoder that
encodes one source after the other.
-/

import Octet.Assembly.Encoder

namespace Octet

/-- The program read last and the image made last. -/
structure Session where
  program : Option Program
  image : Image

namespace Session

/-- The session before anything has been read. -/
def fresh : Session :=
  ⟨none, .empty⟩

/-- Reads a source without encoding it. -/
def read (session : Session) (source : String) : Session × Except (List Diagnostic) Program :=
  match Program.ofSource source with
  | .ok program => ({ session with program := some program }, .ok program)
  | .error diagnostics => (session, .error diagnostics)

/-- Reads a source and encodes it. -/
def assemble (session : Session) (source : String) :
    Session × Except (List Diagnostic) (List UInt8) :=
  match Program.ofSource source with
  | .ok program =>
    let image := session.image.next program
    (⟨some program, image⟩, image.result)
  | .error diagnostics => (session, .error diagnostics)

/-- What assembling a source that can be read leaves behind, and what comes out of it. -/
theorem assemble_of_parsed (session : Session) {source : String} {program : Program}
    (parsed : Program.ofSource source = .ok program) :
    session.assemble source =
      (⟨some program, Image.ofProgram program⟩, (Image.ofProgram program).result) := by
  rw [assemble, parsed]
  simp only [Image.next_eq]

end Session

/-- The code of a source, or everything that is wrong with it. -/
def assemble (source : String) : Except (List Diagnostic) (List UInt8) :=
  (Session.fresh.assemble source).2

/-- A source assembles to some code exactly if it can be read and encoding its program results in
that code. -/
theorem assemble_eq_ok_iff (source : String) (code : List UInt8) :
    assemble source = .ok code ↔
      ∃ program, Program.ofSource source = .ok program ∧
        (Image.ofProgram program).result = .ok code := by
  rw [assemble]
  cases parsed : Program.ofSource source with
  | error diagnostics => simp [Session.assemble, parsed]
  | ok program => simp [Session.fresh.assemble_of_parsed parsed]

end Octet
