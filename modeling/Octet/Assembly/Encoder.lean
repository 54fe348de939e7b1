/-
This file encodes one program after the other. An encoder keeps what it made of
the last program until it is given the next one, and starts on that by clearing
what it kept. Then it goes through the program twice: the first pass binds the
labels and measures the program, the second lays the bytes down. Each pass
begins to count at address zero.

Nothing of the last program is left in what an encoder makes of the next one.
The image that it ends with is the image of the program.
-/

import Octet.Assembly.Image

namespace Octet

/-- An encoder at work: the place that it has counted up to, and the image so far. -/
structure Encoder where
  position : Nat
  image : Image
deriving DecidableEq

namespace Encoder

/-! ### What an encoder does -/

/-- The encoder that made an image, as it was left: behind the last byte of the code. -/
def behind (image : Image) : Encoder :=
  ⟨image.code.length, image⟩

/-- Gives up the labels, the code, the mistakes and the rows, but not the place. -/
def clear (encoder : Encoder) : Encoder :=
  { encoder with
    image := { encoder.image with labels := [], code := [], diagnostics := [], rows := [] } }

/-- Adds a mistake. -/
def report (encoder : Encoder) (diagnostic : Diagnostic) : Encoder :=
  { encoder with
    image := { encoder.image with diagnostics := encoder.image.diagnostics ++ [diagnostic] } }

/-- The first pass over one entry: a label is bound to the place or comes too late, and anything
else moves the place on. -/
def define (encoder : Encoder) (entry : Entry) : Encoder :=
  match entry.statement with
  | .label name span =>
    match encoder.image.labels.find? name with
    | none =>
      let label : Label := ⟨name, encoder.position, entry.line.number⟩
      { encoder with image := { encoder.image with labels := encoder.image.labels ++ [label] } }
    | some first =>
      encoder.report ⟨.duplicateLabel name (some first.line), span, some entry.line.text,
        some entry.line.number⟩
  | statement => { encoder with position := encoder.position + statement.size }

/-- The first pass: binds all labels, and complains about a program that is too long. -/
def defineAll (encoder : Encoder) (program : Program) : Encoder :=
  let measured := program.foldl define { encoder with position := 0 }
  if measured.position ≤ memorySize then measured
  else measured.report ⟨.programTooLarge measured.position, none, none, none⟩

/-- The second pass: emits all entries. -/
def emitAll (encoder : Encoder) (program : Program) : Encoder :=
  let ⟨code, rows, labels, diagnostics⟩ := encoder.image
  let emission := program.foldl (Emission.emit labels) ⟨0, code, rows, diagnostics⟩
  ⟨emission.position, emission.code, emission.rows, labels, emission.diagnostics⟩

/-- Encodes the next program. -/
def encode (encoder : Encoder) (program : Program) : Encoder :=
  (encoder.clear.defineAll program).emitAll program

end Encoder

/-- The image that the encoder of some image makes of the next program. -/
def Image.next (image : Image) (program : Program) : Image :=
  ((Encoder.behind image).encode program).image

/-! ### What an encoder makes of a program -/

namespace Encoder

/-- The first pass collects labels and late definitions behind those there are, and counts the
bytes of all entries. -/
theorem foldl_define (position : Nat) (image : Image) (program : Program) :
    program.foldl define ⟨position, image⟩ =
      let (labels, late) := Labels.collect image.labels (program.placedFrom position)
      ⟨position + program.size,
        { image with labels := labels, diagnostics := image.diagnostics ++ late }⟩ := by
  induction program generalizing position image with
  | nil => simp [Program.placedFrom, Labels.collect, Program.size]
  | cons entry rest inductionHypothesis =>
    obtain ⟨statement, line⟩ := entry
    rw [List.foldl_cons, Program.placedFrom, Program.size, ← Nat.add_assoc]
    cases statement with
    | label name span =>
      cases known : image.labels.find? name with
      | none =>
        simp only [define, Labels.collect, known, Statement.size, Nat.add_zero]
        exact inductionHypothesis _ _
      | some first =>
        simp only [define, Labels.collect, known, Statement.size, Nat.add_zero, report]
        rw [inductionHypothesis]
        simp only [List.append_assoc, List.singleton_append]
    | byte value => exact inductionHypothesis _ _
    | instruction held => exact inductionHypothesis _ _

/-- Mistakes that were there before stay in front of those that an entry adds, and change nothing
else. -/
theorem emit_report (labels : Labels) (emission : Emission) (earlier : List Diagnostic)
    (entry : Entry) :
    Emission.emit labels { emission with diagnostics := earlier ++ emission.diagnostics } entry =
      let emitted := Emission.emit labels emission entry
      { emitted with diagnostics := earlier ++ emitted.diagnostics } := by
  unfold Emission.emit
  cases labels.encode entry.statement with
  | ok bytes => rfl
  | error diagnostic =>
    simp only [Emission.fillTo, Emission.report, Emission.note, List.append_assoc]

theorem foldl_emit_report (labels : Labels) (emission : Emission) (earlier : List Diagnostic)
    (program : Program) :
    program.foldl (Emission.emit labels)
        { emission with diagnostics := earlier ++ emission.diagnostics } =
      let emitted := program.foldl (Emission.emit labels) emission
      { emitted with diagnostics := earlier ++ emitted.diagnostics } := by
  induction program generalizing emission with
  | nil => rfl
  | cons entry rest inductionHypothesis =>
    rw [List.foldl_cons, List.foldl_cons, emit_report, inductionHypothesis]

/-- The first pass over a program with a cleared encoder. -/
theorem defineAll_clear (encoder : Encoder) (program : Program) :
    encoder.clear.defineAll program =
      ⟨program.size, [], [], program.labels.1, program.labels.2 ++ Image.oversize program⟩ := by
  have measured := foldl_define 0 encoder.clear.image program
  rw [Nat.zero_add] at measured
  simp only [defineAll, Image.oversize]
  rw [measured]
  by_cases fits : program.size ≤ memorySize
  · rw [if_pos fits, if_pos fits, List.append_nil]
    rfl
  · rw [if_neg fits, if_neg fits]
    rfl

/-- Whatever an encoder held before, it ends with the image of the program. -/
theorem image_encode (encoder : Encoder) (program : Program) :
    (encoder.encode program).image = Image.ofProgram program := by
  have emitted := foldl_emit_report program.labels.1 .empty
    (program.labels.2 ++ Image.oversize program) program
  rw [encode, defineAll_clear]
  simp only [Emission.empty, List.append_nil] at emitted
  simp only [emitAll, emitted, Image.ofProgram]
  rfl

end Encoder

theorem Image.next_eq (image : Image) (program : Program) :
    image.next program = Image.ofProgram program :=
  (Encoder.behind image).image_encode program

end Octet
