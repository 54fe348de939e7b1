/-
This file shows what encoding does not look at. Whether an argument stands in
brackets, and at which byte of the source a line begins, is kept with every
entry, but nothing that an encoder lays down, binds or reports depends on it.

An entry is compared with its essence, from which both are taken away. The two
passes go through the essences of some entries as they go through the entries,
one step after the other, and only the rows remember where their lines began.
-/

import Octet.Assembly.Image

namespace Octet

/-! ### Entries without brackets and offsets -/

/-- The argument without its brackets. -/
def Arg.unbracketed (arg : Arg) : Arg :=
  { arg with bracketed := false }

/-- The instruction without brackets. -/
def Instruction.unbracketed (held : Instruction) : Instruction :=
  ⟨held.opcode, held.args.map Arg.unbracketed, by rw [List.length_map]; exact held.complete⟩

/-- The statement without brackets. -/
def Statement.unbracketed : Statement → Statement
  | .label name span => .label name span
  | .byte value => .byte value
  | .instruction held => .instruction held.unbracketed

/-- The line without the byte at which it begins. -/
def PhysicalLine.detached (line : PhysicalLine) : PhysicalLine :=
  { line with offset := 0 }

/-- What encoding looks at in an entry. -/
def Entry.essence (entry : Entry) : Entry :=
  ⟨entry.statement.unbracketed, entry.line.detached⟩

/-- What encoding looks at in a program. -/
def Program.essence (program : Program) : Program :=
  program.map Entry.essence

/-- The row without the byte at which its line begins. -/
def Row.detached (row : Row) : Row :=
  { row with line := row.line.detached }

/-- The emission without the bytes at which its lines begin. -/
def Emission.detached (emission : Emission) : Emission :=
  { emission with rows := emission.rows.map Row.detached }

/-- The image without the bytes at which its lines begin. -/
def Image.detached (image : Image) : Image :=
  { image with rows := image.rows.map Row.detached }

/-! ### The passes over essences -/

@[simp]
theorem Statement.size_unbracketed (statement : Statement) :
    statement.unbracketed.size = statement.size := by
  cases statement <;> rfl

theorem Program.size_essence (program : Program) : program.essence.size = program.size := by
  induction program with
  | nil => rfl
  | cons entry rest inductionHypothesis =>
    have front : entry.essence.statement.size = entry.statement.size :=
      entry.statement.size_unbracketed
    rw [Program.essence, List.map_cons, Program.size, front, Program.size, ← inductionHypothesis]
    rfl

/-- The first pass collects the same labels and the same late definitions. -/
theorem Labels.collect_essence (labels : Labels) (address : Nat) (program : Program) :
    Labels.collect labels (program.essence.placedFrom address) =
      Labels.collect labels (program.placedFrom address) := by
  induction program generalizing labels address with
  | nil => rfl
  | cons entry rest inductionHypothesis =>
    obtain ⟨statement, line⟩ := entry
    have placed : Program.essence (⟨statement, line⟩ :: rest) =
        ⟨statement.unbracketed, line.detached⟩ :: Program.essence rest := rfl
    rw [placed, Program.placedFrom, Program.placedFrom]
    cases statement with
    | label name span =>
      simp only [Statement.unbracketed, Labels.collect, inductionHypothesis]
      rfl
    | byte value => exact inductionHypothesis _ _
    | instruction held => exact inductionHypothesis _ _

theorem Program.labels_essence (program : Program) : program.essence.labels = program.labels :=
  Labels.collect_essence [] 0 program

/-- Arguments are resolved to the same numbers, or the same is wrong with them. -/
theorem Labels.encode_unbracketed (labels : Labels) (statement : Statement) :
    labels.encode statement.unbracketed = labels.encode statement := by
  cases statement with
  | label name span => rfl
  | byte value => rfl
  | instruction held =>
    simp only [Statement.unbracketed, Instruction.unbracketed, Labels.encode, List.mapM_map]
    rfl

/-- The second pass emits the essence of an entry as it emits the entry. -/
theorem Emission.emit_essence (labels : Labels) (emission : Emission) (entry : Entry) :
    emission.detached.emit labels entry.essence = (emission.emit labels entry).detached := by
  have encoded : labels.encode entry.essence.statement = labels.encode entry.statement :=
    labels.encode_unbracketed entry.statement
  have size : entry.essence.statement.size = entry.statement.size :=
    entry.statement.size_unbracketed
  simp only [Emission.emit, encoded, size]
  cases labels.encode entry.statement with
  | ok bytes => simp only [Emission.detached, Emission.lay, Emission.note, List.map_append]; rfl
  | error diagnostic =>
    simp only [Emission.detached, Emission.fillTo, Emission.report, Emission.note,
      List.map_append]
    rfl

theorem Emission.foldl_emit_essence (labels : Labels) (emission : Emission) (program : Program) :
    program.essence.foldl (Emission.emit labels) emission.detached =
      (program.foldl (Emission.emit labels) emission).detached := by
  induction program generalizing emission with
  | nil => rfl
  | cons entry rest inductionHypothesis =>
    rw [Program.essence, List.map_cons, List.foldl_cons, List.foldl_cons, Emission.emit_essence]
    exact inductionHypothesis _

/-- The image of the essence of a program is that of the program, but for the bytes at which lines
begin. -/
theorem Image.ofProgram_essence (program : Program) :
    Image.ofProgram program.essence = (Image.ofProgram program).detached := by
  have emitted := Emission.foldl_emit_essence program.labels.1 .empty program
  simp only [Image.ofProgram, Program.labels_essence, Image.oversize, Program.size_essence]
  rw [show Emission.empty = Emission.empty.detached from rfl, emitted]
  rfl

theorem Image.result_detached (image : Image) : image.detached.result = image.result := rfl

/-- Programs with the same essence have the same image, but for the bytes at which lines begin. -/
theorem Image.detached_eq {program other : Program} (same : program.essence = other.essence) :
    (Image.ofProgram program).detached = (Image.ofProgram other).detached := by
  rw [← Image.ofProgram_essence, same, Image.ofProgram_essence]

end Octet
