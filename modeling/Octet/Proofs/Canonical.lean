/-
This file shows that the canonical text of a program is as good as the source
that the program was read from. The canonical text has one line for each
statement and nothing else: comments, idle lines, other spellings of a literal
and blanks beyond those that are needed are gone.

Every statement of a source could be spelled, so its canonical line scans to the
tokens that spell it and is read as that statement. What then comes out of both
texts depends on what the statements say. Reports name places, and places are
all in which the reports on the two texts may differ.
-/

import Octet.Assembly.Session
import Octet.Proofs.Encoding
import Octet.Proofs.Meaning

namespace Octet

variable {source : String} {program again : Program}

/-! ### The canonical text and its lines -/

/-- The canonical spellings of the statements, one on each line. -/
def Program.canonicalText (program : Program) : String :=
  "\n".intercalate (program.statements.map Statement.text)

theorem Arg.text_unplaced (arg : Arg) : arg.unplaced.text = arg.text := rfl

/-- The canonical spelling of a statement does not tell where it stood. -/
theorem Statement.text_unplaced (statement : Statement) :
    statement.unplaced.text = statement.text := by
  cases statement with
  | label name span => rfl
  | byte value => rfl
  | instruction held =>
    have args : (held.args.map Arg.unplaced).map Arg.text = held.args.map Arg.text := by
      rw [List.map_map]
      exact List.map_congr_left fun arg _ => arg.text_unplaced
    simp only [Statement.unplaced, Instruction.unplaced, Statement.text, Instruction.text, args]

/-- Programs that say the same have the same canonical text. -/
theorem Program.Says.canonicalText (meaning : again.Says program.statements) :
    again.canonicalText = program.canonicalText := by
  have shown : ∀ statements : List Statement,
      statements.map Statement.text = (statements.map Statement.unplaced).map Statement.text := by
    intro statements
    rw [List.map_map]
    exact List.map_congr_left fun statement _ => statement.text_unplaced.symm
  rw [Program.canonicalText, Program.canonicalText, shown, meaning, ← shown]

/-- The lines of the canonical text spell the statements, one each. -/
theorem Program.spells_canonicalText
    (spellable : ∀ statement ∈ program.statements, statement.Spellable) :
    Spells (program.canonicalText.toList.splitOn '\n') program.statements := by
  rw [Program.canonicalText]
  by_cases empty : program.statements = []
  · -- Even an empty text has a line.
    rw [empty]
    exact .idle Scans.nil .nil
  · have whole : ∀ line ∈ program.statements.map Statement.text, '\n' ∉ line.toList := by
      intro line member
      obtain ⟨statement, listed, rfl⟩ := List.mem_map.mp member
      exact Statement.lineFeed_not_mem (spellable statement listed).proper
    rw [splitOn_intercalate _ (mt List.map_eq_nil_iff.mp empty) whole]
    refine Spells.shown program.statements Statement.text fun statement listed => ?_
    exact ⟨(spellable statement listed).bracketed, (spellable statement listed).scans⟩

/-- The canonical text of a program that was read is read as a program that says the same. -/
theorem Program.ofSource_canonicalText (parsed : Program.ofSource source = .ok program) :
    ∃ again, Program.ofSource program.canonicalText = .ok again ∧
      again.Says program.statements := by
  refine Program.ofSource_eq_ok _ (Program.spells_canonicalText fun statement listed => ?_)
  obtain ⟨entry, member, rfl⟩ := List.mem_map.mp listed
  exact Program.spellable_of_ofSource parsed entry member

/-! ### What programs that say the same are encoded to -/

/-- The code of programs that say the same is the same, even if something is wrong with them. -/
theorem Program.Says.code_eq (meaning : again.Says program.statements) :
    (Image.ofProgram again).code = (Image.ofProgram program).code := by
  have addresses : (Image.ofProgram again).labels.address? =
      (Image.ofProgram program).labels.address? := by
    funext name
    rw [meaning.address?, Image.labels_ofProgram, Program.address?_labels]
  rw [meaning.code, addresses, Image.code_ofProgram]

/-- Programs that say the same are encoded to the same code, or the same is wrong with them apart
from places. -/
theorem Program.Says.result_eq (meaning : again.Says program.statements) :
    (Image.ofProgram again).result.mapError (List.map Diagnostic.gist) =
      (Image.ofProgram program).result.mapError (List.map Diagnostic.gist) := by
  refine Image.result_mapError_eq Diagnostic.gist meaning.code_eq ?_
  rw [again.diagnostics_eq_mistakes, program.diagnostics_eq_mistakes, meaning.gists]

/-! ### The canonical text is faithful -/

/-- The canonical text of a program that was read is read as the same statements with the same
brackets, and it is their canonical text as well. It is encoded to the same code with the same
labels in the same order, or it fails with mistakes of the same kinds and in the same words. -/
theorem canonical_text_is_faithful (session other : Session)
    (parsed : Program.ofSource source = .ok program) :
    ∃ again, Program.ofSource program.canonicalText = .ok again ∧
      again.statements.map Statement.unplaced = program.statements.map Statement.unplaced ∧
      again.canonicalText = program.canonicalText ∧
      let first := session.assemble source
      let second := other.assemble program.canonicalText
      second.1.image.labels.bindings = first.1.image.labels.bindings ∧
        second.1.image.code = first.1.image.code ∧
        second.2.mapError (List.map Diagnostic.gist) =
          first.2.mapError (List.map Diagnostic.gist) := by
  obtain ⟨again, read, meaning⟩ := Program.ofSource_canonicalText parsed
  refine ⟨again, read, meaning, meaning.canonicalText, ?_⟩
  rw [session.assemble_of_parsed parsed, other.assemble_of_parsed read]
  refine ⟨?_, meaning.code_eq, meaning.result_eq⟩
  rw [Image.labels_ofProgram, Image.labels_ofProgram]
  exact meaning.bindings

/-- A label with the name of a directive, brackets with blanks in them and a short literal are
spelled so that they are read again. -/
theorem canonical_text_of_table :
    let source := "\t.byte: ; data\r\n\n ld  [ byte ]\n.byte $a"
    let load : Instruction := ⟨.ld, [⟨.label "byte", some ⟨7, 11, by decide⟩, true⟩], rfl⟩
    let program : Program :=
      [⟨.label "byte" (some ⟨2, 6, by decide⟩), 0, 0, "\t.byte: ; data"⟩,
        ⟨.instruction load, 2, 17, " ld  [ byte ]"⟩, ⟨.byte 10, 3, 31, ".byte $a"⟩]
    let canonical := ".byte:\nld [byte]\n.byte $0A"
    Program.ofSource source = .ok program ∧ program.canonicalText = canonical ∧
      ∃ again, Program.ofSource canonical = .ok again ∧
        again.statements.map Statement.unplaced = program.statements.map Statement.unplaced ∧
        again.canonicalText = canonical ∧
        (assemble canonical).mapError (List.map Diagnostic.gist) =
          (assemble source).mapError (List.map Diagnostic.gist) := by
  intro source load program canonical
  have parsed : Program.ofSource source = .ok program := by decide +kernel
  obtain ⟨again, read, same, printed, _, _, outcome⟩ :=
    canonical_text_is_faithful Session.fresh Session.fresh parsed
  exact ⟨parsed, rfl, again, read, same, printed, outcome⟩

end Octet
