/-
This file shows that the two passes over a program agree. The second pass
counts its place anew and fills up with zeros what it cannot encode. Here its
place is shown to be the number of bytes laid down, and the bytes of every
entry are shown to be what the statement says once each label stands for the
address that the first pass gave it, or zeros if some label stands for none.

The invariant is a statement about the emission so far and the entries that it
has seen. One entry keeps it, and so does a whole program.
-/

import Octet.Assembly.Image
import Octet.Machine.Basic
import Octet.Proofs.Layout
import Octet.Proofs.Memory

namespace Octet

/-! ### What a statement says in bytes -/

/-- The byte that an argument stands for, given the addresses of names. A name must be bound
within the memory. -/
def Arg.byte? (address? : String → Option Nat) (arg : Arg) : Option UInt8 :=
  match arg.content with
  | .value number => some (.ofInt number)
  | .label name =>
    match address? name with
    | some address => if address < memorySize then some (.ofNat address) else none
    | none => none

/-- The bytes of a statement, given the addresses of names: the opcode and a byte for each
argument, or zeros if some argument stands for no byte. -/
def Statement.bytes (address? : String → Option Nat) : Statement → List UInt8
  | .label _ _ => []
  | .byte value => [.ofInt value]
  | .instruction held =>
    match held.args.mapM (Arg.byte? address?) with
    | some operands => held.opcode.byte :: operands
    | none => List.replicate held.opcode.size 0

theorem length_of_mapM_eq_some {Source Target : Type} (select : Source → Option Target)
    (sources : List Source) (targets : List Target) (mapped : sources.mapM select = some targets) :
    targets.length = sources.length := by
  induction sources generalizing targets with
  | nil =>
    simp only [List.mapM_nil, Option.pure_def, Option.some_inj] at mapped
    rw [← mapped]
    rfl
  | cons source rest inductionHypothesis =>
    simp only [List.mapM_cons, Option.bind_eq_bind, Option.pure_def, Option.bind_eq_some_iff,
      Option.some_inj] at mapped
    obtain ⟨head, _, tail, mappedRest, rfl⟩ := mapped
    rw [List.length_cons, List.length_cons, inductionHypothesis tail mappedRest]

/-- A statement says as many bytes as its size promises. -/
theorem Statement.length_bytes (address? : String → Option Nat) (statement : Statement) :
    (statement.bytes address?).length = statement.size := by
  cases statement with
  | label name span => rfl
  | byte value => rfl
  | instruction held =>
    simp only [Statement.bytes, Statement.size]
    cases mapped : held.args.mapM (Arg.byte? address?) with
    | none => exact List.length_replicate
    | some operands =>
      rw [List.length_cons, length_of_mapM_eq_some _ _ _ mapped, held.complete, Opcode.size,
        Nat.add_comm]

/-! ### Encoding is what the statement says -/

/-- An argument is resolved exactly to the byte that it stands for. -/
theorem Labels.resolve_byte? (labels : Labels) (arg : Arg) :
    arg.byte? labels.address? = (labels.resolve arg).toOption.map UInt8.ofInt := by
  obtain ⟨content, span, bracketed⟩ := arg
  cases content with
  | value number => rfl
  | label name =>
    simp only [Arg.byte?, Labels.resolve, Labels.address?]
    cases labels.find? name with
    | none => rfl
    | some label =>
      simp only [Option.map_some]
      by_cases inside : label.address < memorySize
      · simp only [if_pos inside, Except.toOption, Option.map_some, Option.some_inj]
        exact (byteOfInt_natCast _).symm
      · simp only [if_neg inside, Except.toOption, Option.map_none]

/-- All arguments are resolved exactly if each of them stands for a byte. -/
theorem Labels.mapM_resolve (labels : Labels) (args : List Arg) :
    args.mapM (Arg.byte? labels.address?) =
      (args.mapM labels.resolve).toOption.map (List.map UInt8.ofInt) := by
  induction args with
  | nil => rfl
  | cons arg rest inductionHypothesis =>
    rw [List.mapM_cons, List.mapM_cons, inductionHypothesis, labels.resolve_byte?]
    cases labels.resolve arg with
    | error diagnostic => rfl
    | ok number =>
      cases rest.mapM labels.resolve with
      | error diagnostic => rfl
      | ok numbers => rfl

/-- The bytes that an entry contributes are those that its statement says, whether or not it can
be encoded. -/
theorem Labels.bytes_of_encode (labels : Labels) (statement : Statement) :
    statement.bytes labels.address? =
      match labels.encode statement with
      | .ok bytes => bytes
      | .error _ => List.replicate statement.size 0 := by
  cases statement with
  | label name span => rfl
  | byte value => rfl
  | instruction held =>
    simp only [Statement.bytes, Labels.encode, labels.mapM_resolve]
    cases held.args.mapM labels.resolve with
    | error diagnostic => rfl
    | ok numbers => rfl

/-! ### One entry keeps the count and the bytes in step -/

/-- The mistake in an entry, with its line. -/
def Labels.mistake? (labels : Labels) (entry : Entry) : Option Diagnostic :=
  match labels.encode entry.statement with
  | .ok _ => none
  | .error diagnostic => some (diagnostic.onLine entry.line.text entry.line.number)

/-- Whether every argument of a statement stands for a byte, given the addresses of names. -/
def Statement.Resolved (address? : String → Option Nat) : Statement → Prop
  | .instruction held => ∃ operands, held.args.mapM (Arg.byte? address?) = some operands
  | _ => True

/-- There is a mistake in an entry exactly if some argument stands for no byte. -/
theorem Labels.mistake?_eq_none_iff (labels : Labels) (entry : Entry) :
    labels.mistake? entry = none ↔ entry.statement.Resolved labels.address? := by
  obtain ⟨statement, line⟩ := entry
  cases statement with
  | label name span => simp [Labels.mistake?, Labels.encode, Statement.Resolved]
  | byte value => simp [Labels.mistake?, Labels.encode, Statement.Resolved]
  | instruction held =>
    simp only [Labels.mistake?, Labels.encode, Statement.Resolved, labels.mapM_resolve]
    cases held.args.mapM labels.resolve with
    | ok numbers => exact ⟨fun _ => ⟨_, rfl⟩, fun _ => rfl⟩
    | error diagnostic =>
      refine ⟨fun right => absurd right (Option.some_ne_none _), ?_⟩
      rintro ⟨operands, resolved⟩
      cases resolved

/-- The row that an entry at some address deserves. -/
def Labels.rowOf (labels : Labels) (placed : Placed) : Row :=
  ⟨placed.address, placed.entry.statement.bytes labels.address?, placed.entry.line⟩

/-- The bytes of some statements, one behind the other. -/
def Statement.code (address? : String → Option Nat) (statements : List Statement) : List UInt8 :=
  statements.flatMap (Statement.bytes address?)

theorem Statement.length_code (address? : String → Option Nat) (statements : List Statement) :
    (Statement.code address? statements).length = Statement.sizes statements := by
  induction statements with
  | nil => rfl
  | cons statement rest inductionHypothesis =>
    rw [Statement.code, List.flatMap_cons, List.length_append, Statement.length_bytes,
      Statement.sizes_cons, ← inductionHypothesis, Statement.code]

/-- An emission has seen exactly the entries of a program: its place is the size of the program,
and its bytes, rows and mistakes are those of the entries in order. -/
structure Emission.Holds (labels : Labels) (program : Program) (emission : Emission) : Prop where
  position : emission.position = program.size
  code : emission.code = Statement.code labels.address? program.statements
  rows : emission.rows = program.placed.map labels.rowOf
  diagnostics : emission.diagnostics = program.filterMap labels.mistake?

namespace Emission

variable {labels : Labels} {program : Program} {emission : Emission}

theorem Holds.length_code (holds : emission.Holds labels program) :
    emission.code.length = emission.position := by
  rw [holds.code, Statement.length_code, Program.sizes_statements, holds.position]

theorem holds_empty (labels : Labels) : Emission.empty.Holds labels [] :=
  ⟨rfl, rfl, rfl, rfl⟩

/-- Between the place where some bytes were laid down and the place behind them lie these bytes. -/
theorem slice_behind (code bytes : List UInt8) :
    ((code ++ bytes).take (code.length + bytes.length)).drop code.length = bytes := by
  rw [← List.length_append, List.take_length, List.drop_left]

/-- Emitting an entry lays down what its statement says, and notes just that. -/
theorem emit_eq (inStep : emission.code.length = emission.position) (entry : Entry) :
    emission.emit labels entry =
      ⟨emission.position + entry.statement.size,
        emission.code ++ entry.statement.bytes labels.address?,
        emission.rows ++ [labels.rowOf ⟨emission.position, entry⟩],
        emission.diagnostics ++ (labels.mistake? entry).toList⟩ := by
  have size := Statement.length_bytes labels.address? entry.statement
  have said := labels.bytes_of_encode entry.statement
  simp only [Emission.emit, Labels.mistake?, Labels.rowOf]
  cases encoded : labels.encode entry.statement with
  | ok bytes =>
    rw [encoded] at said
    simp only at said
    rw [said] at size ⊢
    simp only [Emission.lay, Emission.note, ← size, ← inStep, slice_behind, Option.toList_none,
      List.append_nil]
  | error diagnostic =>
    rw [encoded] at said
    simp only at said
    rw [said] at size ⊢
    have slice := slice_behind emission.code (List.replicate entry.statement.size 0)
    rw [size] at slice
    simp only [Emission.fillTo, Emission.report, Emission.note, ← inStep, Nat.add_sub_cancel_left,
      slice, Option.toList_some]

/-- Having seen some entries, an emission that is shown one more has seen that too. -/
theorem Holds.emit (holds : emission.Holds labels program) (entry : Entry) :
    (emission.emit labels entry).Holds labels (program ++ [entry]) := by
  rw [emit_eq holds.length_code entry]
  refine ⟨?_, ?_, ?_, ?_⟩
  · rw [Program.size_append, Program.size_cons, Program.size_nil, holds.position, Nat.add_zero]
  · simp [holds.code, Statement.code, Program.statements]
  · rw [Program.placed, Program.placedFrom_append, List.map_append, Nat.zero_add, holds.rows,
      holds.position]
    rfl
  · rw [List.filterMap_append, holds.diagnostics]
    cases mistake : labels.mistake? entry with
    | none => rw [List.filterMap_cons_none mistake]; rfl
    | some diagnostic => rw [List.filterMap_cons_some mistake]; rfl

/-- Having seen some entries, an emission that is shown many more has seen them all. -/
theorem Holds.foldl (holds : emission.Holds labels program) (rest : Program) :
    (rest.foldl (Emission.emit labels) emission).Holds labels (program ++ rest) := by
  induction rest generalizing emission program with
  | nil => rwa [List.append_nil]
  | cons entry rest inductionHypothesis =>
    have next := inductionHypothesis (holds.emit entry)
    rwa [List.append_assoc] at next

end Emission

/-! ### The image of a program -/

namespace Image

variable (program : Program)

/-- The labels that the arguments of a program are resolved with. -/
theorem labels_ofProgram : (ofProgram program).labels = program.labels.1 := rfl

/-- The second pass over a program, from its first entry to its last. -/
theorem holds_program :
    (program.foldl (Emission.emit program.labels.1) .empty).Holds program.labels.1 program :=
  (Emission.holds_empty program.labels.1).foldl program

/-- The code of a program is what its statements say. -/
theorem code_ofProgram : (ofProgram program).code =
    Statement.code (ofProgram program).labels.address? program.statements :=
  (holds_program program).code

theorem length_code_ofProgram : (ofProgram program).code.length = program.size := by
  rw [code_ofProgram, Statement.length_code, Program.sizes_statements]

/-- What is wrong with a program: late definitions, its size, and arguments that stand for
nothing. -/
theorem diagnostics_ofProgram : (ofProgram program).diagnostics =
    program.labels.2 ++ oversize program ++ program.filterMap program.labels.1.mistake? := by
  rw [← (holds_program program).diagnostics]
  rfl

/-- If encoding has a result, that is the code, and nothing is wrong. -/
theorem result_eq_ok_iff (image : Image) (code : List UInt8) :
    image.result = .ok code ↔ image.diagnostics = [] ∧ image.code = code := by
  rw [result]
  cases image.diagnostics with
  | nil => simp
  | cons diagnostic rest => simp

/-- In a program that encoding has a result for, the arguments of every instruction stand for
bytes. -/
theorem operands_of_result {code : List UInt8} (made : (ofProgram program).result = .ok code)
    {held : Instruction} {line : PhysicalLine} (member : ⟨.instruction held, line⟩ ∈ program) :
    ∃ operands, held.args.mapM (Arg.byte? (ofProgram program).labels.address?) = some operands := by
  have clean := ((result_eq_ok_iff _ _).mp made).1
  rw [diagnostics_ofProgram, List.append_eq_nil_iff, List.filterMap_eq_nil_iff] at clean
  exact (Labels.mistake?_eq_none_iff _ _).mp (clean.2 _ member)

/-- A program with something wrong in it has no result; one that has fits into the memory. -/
theorem size_le_of_result {code : List UInt8} (made : (ofProgram program).result = .ok code) :
    program.size ≤ memorySize := by
  have clean := ((result_eq_ok_iff _ _).mp made).1
  rw [diagnostics_ofProgram] at clean
  have fits := (List.append_eq_nil_iff.mp (List.append_eq_nil_iff.mp clean).1).2
  refine Nat.le_of_not_lt fun large => ?_
  rw [oversize, if_neg (Nat.not_le_of_lt large)] at fits
  exact List.cons_ne_nil _ _ fits

end Image

/-! ### Both passes agree -/

/-- What an image says about a program, whether or not something is wrong with it. -/
structure Image.Renders (image : Image) (program : Program) : Prop where
  /-- There are as many bytes as the sizes of the statements promise. -/
  length : image.code.length = program.size
  /-- The bytes of a statement lie behind the sizes of all statements before it. -/
  bytes : ∀ (before after : Program) (entry : Entry), program = before ++ entry :: after →
    (image.code.drop before.size).take entry.statement.size =
      entry.statement.bytes image.labels.address?
  /-- A name is bound to the sizes of the statements before its first definition. -/
  bound : ∀ (before after : Program) (entry : Entry) (name : String),
    program = before ++ entry :: after → entry.statement.defined? = some name →
      (∀ earlier ∈ before, earlier.statement.defined? ≠ some name) →
        image.labels.address? name = some before.size
  /-- A name without a definition is bound to nothing. -/
  unbound : ∀ name : String, (∀ entry ∈ program, entry.statement.defined? ≠ some name) →
    image.labels.address? name = none

theorem Image.renders_ofProgram (program : Program) : (ofProgram program).Renders program := by
  refine ⟨Image.length_code_ofProgram program, ?_, ?_, ?_⟩
  · rintro before after entry rfl
    have prior : (Statement.code (Image.ofProgram (before ++ entry :: after)).labels.address?
        before.statements).length = before.size := by
      rw [Statement.length_code, Program.sizes_statements]
    have size := Statement.length_bytes
      (Image.ofProgram (before ++ entry :: after)).labels.address? entry.statement
    rw [Image.code_ofProgram]
    simp only [Program.statements, List.map_append, List.map_cons, Statement.code,
      List.flatMap_append, List.flatMap_cons] at prior ⊢
    rw [List.drop_left' prior, List.take_left' size]
  · rintro before after entry name rfl defines first
    rw [Image.labels_ofProgram, Program.address?_labels]
    simp only [Program.statements, List.map_append, List.map_cons]
    rw [Statement.boundFrom?_first name 0 _ _ _ defines, Nat.zero_add]
    · exact congrArg some (Program.sizes_statements before)
    · simpa using first
  · intro name absent
    rw [Image.labels_ofProgram, Program.address?_labels, Statement.boundFrom?_eq_none_iff]
    simpa [Program.statements] using absent

/-- The code that encoding results in fits into the memory. -/
theorem Image.length_of_result {program : Program} {code : List UInt8}
    (made : (ofProgram program).result = .ok code) : code.length ≤ memorySize := by
  rw [← ((result_eq_ok_iff _ _).mp made).2, length_code_ofProgram]
  exact size_le_of_result program made

/-- A machine accepts every program that fits. -/
theorem Machine.ofProgram_of_length_le {code : List UInt8} (fits : code.length ≤ memorySize) :
    Machine.ofProgram code = .ok (.ofMemory (Memory.zero.load code 0)) := by
  rw [Machine.ofProgram, Memory.ofProgram, if_pos fits]
  rfl

/-- Every image renders its program. If encoding succeeds, a machine accepts the code, and its
memory is the code followed by zeros. -/
theorem image_renders_program (program : Program) :
    (Image.ofProgram program).Renders program ∧
      ∀ code, (Image.ofProgram program).result = .ok code →
        code = (Image.ofProgram program).code ∧ code.length ≤ memorySize ∧
          ∃ machine, Machine.ofProgram code = .ok machine ∧
            machine.memory.toList = code ++ List.replicate (memorySize - code.length) 0 := by
  refine ⟨Image.renders_ofProgram program, fun code made => ?_⟩
  have fits := Image.length_of_result made
  exact ⟨((Image.result_eq_ok_iff _ _).mp made).2.symm, fits, _,
    Machine.ofProgram_of_length_le fits, Memory.toList_load_program code fits⟩

/-- A jump to a label in front of it is encoded, and a machine takes it up. -/
theorem image_renders_loop :
    let loop : Program := [⟨.label "top" none, 0, 0, ".top:"⟩,
      ⟨.instruction ⟨.jmp, [⟨.label "top", none, false⟩], rfl⟩, 1, 6, "jmp top"⟩]
    (Image.ofProgram loop).result = .ok [0x20, 0x00] ∧
      ∃ machine, Machine.ofProgram [0x20, 0x00] = .ok machine ∧
        machine.memory.toList = [0x20, 0x00] ++ List.replicate 254 0 := by
  intro loop
  have made : (Image.ofProgram loop).result = .ok [0x20, 0x00] := rfl
  exact ⟨made, ((image_renders_program loop).2 _ made).2.2⟩

end Octet
