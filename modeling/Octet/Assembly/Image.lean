/-
This file encodes a program. An instruction becomes its opcode byte and one
byte for each argument, a label argument becomes the address that the label is
bound to. An instruction with an argument that stands for no address is
reported and zeros are laid down in its place, so that everything behind it
keeps its own. The entries are emitted one after the other, by a count of their
own: that it agrees with the addresses of the labels is shown elsewhere. The
result holds the code and its rows together with the labels and everything that
is wrong, whether or not something is.
-/

import Octet.Assembly.Layout

namespace Octet

/-! ### Arguments -/

/-- The number that an argument stands for. A label must be bound within the memory. -/
def Labels.resolve (labels : Labels) (arg : Arg) : Except Diagnostic Int :=
  match arg.content with
  | .value number => .ok number
  | .label name =>
    match labels.find? name with
    | none =>
      .error ⟨.undefinedLabel name (Text.suggestions name (labels.map Label.name) 3), arg.span,
        none, none⟩
    | some label =>
      if label.address < memorySize then .ok label.address
      else .error ⟨.outsideMemory name label.address, arg.span, none, none⟩

/-! ### Statements -/

/-- The bytes of a statement, or the first argument that stands for nothing. -/
def Labels.encode (labels : Labels) : Statement → Except Diagnostic (List UInt8)
  | .label _ _ => .ok []
  | .byte value => .ok [UInt8.ofInt value]
  | .instruction held => do
    let numbers ← held.args.mapM labels.resolve
    .ok (held.opcode.byte :: numbers.map UInt8.ofInt)

/-! ### Emitting -/

/-- The bytes of one entry, with its address and its line. -/
structure Row where
  address : Nat
  bytes : List UInt8
  line : PhysicalLine
deriving DecidableEq

/-- What has been laid down so far: the place behind it, all bytes, a row for each entry, and
what could not be encoded. The place is counted for itself and not read off the bytes. -/
structure Emission where
  position : Nat
  code : List UInt8
  rows : List Row
  diagnostics : List Diagnostic
deriving DecidableEq

namespace Emission

/-- Nothing has been laid down. -/
def empty : Emission :=
  ⟨0, [], [], []⟩

/-- Lays bytes down behind those there are. -/
def lay (emission : Emission) (bytes : List UInt8) : Emission :=
  { emission with
    position := emission.position + bytes.length
    code := emission.code ++ bytes }

/-- Goes on to a place and fills the code up to it with zeros. -/
def fillTo (emission : Emission) (place : Nat) : Emission :=
  { emission with
    position := place
    code := emission.code ++ List.replicate (place - emission.code.length) 0 }

/-- Adds a mistake. -/
def report (emission : Emission) (diagnostic : Diagnostic) : Emission :=
  { emission with diagnostics := emission.diagnostics ++ [diagnostic] }

/-- Adds the row of an entry that began at `start` and ends where the emission stands. -/
def note (emission : Emission) (start : Nat) (line : PhysicalLine) : Emission :=
  let bytes := (emission.code.take emission.position).drop start
  { emission with rows := emission.rows ++ [⟨start, bytes, line⟩] }

/-- Emits one entry. One that cannot be encoded is reported, and zeros take its place. -/
def emit (labels : Labels) (emission : Emission) (entry : Entry) : Emission :=
  let start := emission.position
  match labels.encode entry.statement with
  | .ok bytes => (emission.lay bytes).note start entry.line
  | .error diagnostic =>
    let filled := emission.fillTo (start + entry.statement.size)
    (filled.report (diagnostic.onLine entry.line.text entry.line.number)).note start entry.line

end Emission

/-! ### Programs -/

/-- An encoded program. -/
structure Image where
  code : List UInt8
  rows : List Row
  labels : Labels
  diagnostics : List Diagnostic
deriving DecidableEq

namespace Image

/-- The image of nothing. -/
def empty : Image :=
  ⟨[], [], [], []⟩

/-- The complaint about a program that takes more bytes than there are. -/
def oversize (program : Program) : List Diagnostic :=
  if program.size ≤ memorySize then []
  else [⟨.programTooLarge program.size, none, none, none⟩]

/-- Encodes a program. Late definitions are reported first, then its size, then arguments. -/
def ofProgram (program : Program) : Image :=
  let (labels, late) := program.labels
  let emission := program.foldl (Emission.emit labels) .empty
  ⟨emission.code, emission.rows, labels, late ++ oversize program ++ emission.diagnostics⟩

/-- The code, or everything that is wrong. -/
def result (image : Image) : Except (List Diagnostic) (List UInt8) :=
  match image.diagnostics with
  | [] => .ok image.code
  | diagnostics => .error diagnostics

end Image

end Octet
