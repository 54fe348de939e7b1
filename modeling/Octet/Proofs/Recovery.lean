/-
This file shows that decoding undoes encoding. The code of a program without
data is decoded into one complete instruction for each instruction of the
program, at its address, with its opcode and with the numbers that its
arguments stand for.

Encoder and decoder each go through the bytes with their own notion of how far
an instruction reaches. The induction is on the entries of the program: what
one instruction is encoded to is decoded as that instruction whatever comes
behind it, and decoding goes on exactly where the next entry lies. A label
takes up no bytes, so the decoder never notices it.
-/

import Mathlib.Data.List.Forall2
import Octet.Assembly.Session
import Octet.Disassembly.Decoded
import Octet.Proofs.Encoding
import Octet.Proofs.Reading

namespace Octet

/-! ### The instructions of a program and their numbers -/

/-- The instruction of an entry, with its address. -/
def Placed.instruction? (placed : Placed) : Option (Nat × Instruction) :=
  match placed.entry.statement with
  | .instruction held => some (placed.address, held)
  | _ => none

/-- The instructions of a program in order, each with its address. -/
def Program.instructions (program : Program) : List (Nat × Instruction) :=
  program.placed.filterMap Placed.instruction?

/-- The number that is written for an argument, or the address of the label there. -/
def Arg.number? (address? : String → Option Nat) (arg : Arg) : Option Int :=
  match arg.content with
  | .value number => some number
  | .label name => (address? name).map Int.ofNat

/-- Decoded bytes are a complete instruction again, the one that was placed: they have its
address, its opcode and the numbers of its arguments in order. -/
structure Decoded.Recovers (address? : String → Option Nat) (decoded : Decoded)
    (placed : Nat × Instruction) : Prop where
  address : decoded.address = placed.1
  complete : decoded.isData = false
  opcode : decoded.opcode? = some placed.2.opcode
  first : decoded.first = placed.2.opcode.byte
  operands : placed.2.args.map (Arg.number? address?) =
    decoded.operandBytes.map fun byte => some (byte.toNat : Int)

section

variable {address? : String → Option Nat}

/-- A byte that an argument stands for is its number, if what is written there is a byte. -/
theorem Arg.number?_of_byte? {arg : Arg} {byte : UInt8} (proper : arg.content.token.Proper)
    (stands : arg.byte? address? = some byte) : arg.number? address? = some (byte.toNat : Int) := by
  obtain ⟨content, span, bracketed⟩ := arg
  cases content with
  | value number =>
    obtain ⟨notNegative, small⟩ : 0 ≤ number ∧ number ≤ 255 := proper
    obtain rfl := Option.some_inj.mp stands
    have less : number < 256 := Int.lt_of_le_of_lt small (by decide)
    rw [toNat_byteOfInt, Int.emod_eq_of_lt notNegative less, Int.toNat_of_nonneg notNegative]
    rfl
  | label name =>
    simp only [Arg.byte?] at stands
    simp only [Arg.number?]
    cases bound : address? name with
    | none =>
      rw [bound] at stands
      cases stands
    | some address =>
      rw [bound] at stands
      by_cases inside : address < memorySize
      · simp only [if_pos inside, Option.some_inj] at stands
        rw [← stands, UInt8.toNat_ofNat', Nat.mod_eq_of_lt inside]
        rfl
      · simp only [if_neg inside] at stands
        cases stands

/-- The bytes that arguments stand for are their numbers. -/
theorem Arg.map_number?_of_mapM {args : List Arg} {bytes : List UInt8}
    (proper : ∀ arg ∈ args, arg.content.token.Proper)
    (mapped : args.mapM (Arg.byte? address?) = some bytes) :
    args.map (Arg.number? address?) = bytes.map fun byte => some (byte.toNat : Int) := by
  induction args generalizing bytes with
  | nil =>
    simp only [List.mapM_nil, Option.pure_def, Option.some_inj] at mapped
    rw [← mapped]
    rfl
  | cons arg rest inductionHypothesis =>
    rw [List.forall_mem_cons] at proper
    simp only [List.mapM_cons, Option.bind_eq_bind, Option.pure_def, Option.bind_eq_some_iff,
      Option.some_inj] at mapped
    obtain ⟨byte, stands, others, mappedRest, rfl⟩ := mapped
    rw [List.map_cons, List.map_cons, Arg.number?_of_byte? proper.1 stands,
      inductionHypothesis proper.2 mappedRest]

/-- What is written for the arguments of an instruction that could be spelled is proper. -/
theorem Statement.Spellable.content_proper {held : Instruction}
    (spellable : (Statement.instruction held).Spellable) :
    ∀ arg ∈ held.args, arg.content.token.Proper := by
  intro arg member
  refine spellable.proper _ (List.mem_cons_of_mem _ (List.mem_flatMap.mpr ⟨arg, member, ?_⟩))
  unfold Arg.tokens
  by_cases bracketed : arg.bracketed = true
  · rw [if_pos bracketed]
    exact List.mem_cons_of_mem _ List.mem_cons_self
  · rw [if_neg bracketed]
    exact List.mem_cons_self

/-! ### One instruction is decoded as itself -/

/-- An opcode byte with a byte for each operand is decoded as a complete instruction, and
decoding goes on behind it. -/
theorem decodeAll_instruction (address : Int) (opcode : Opcode) (operands rest : List UInt8)
    (complete : operands.length = opcode.operands.length) :
    decodeAll address (opcode.byte :: (operands ++ rest)) =
      ⟨address, opcode.byte, .instruction opcode, opcode.byte :: operands⟩ ::
        decodeAll (address + opcode.size) rest := by
  have size : opcode.size = operands.length + 1 := by rw [complete, Opcode.size, Nat.add_comm]
  have front : (opcode.byte :: (operands ++ rest)).take opcode.size = opcode.byte :: operands := by
    rw [size, List.take_succ_cons, List.take_left]
  have read : Decoded.ofBytes address opcode.byte (operands ++ rest) =
      ⟨address, opcode.byte, .instruction opcode, opcode.byte :: operands⟩ := by
    simp only [Decoded.ofBytes, Decoded.decode, Opcode.ofByte?_byte, front]
    rw [if_pos (by rw [size, List.length_cons])]
  have back : (operands ++ rest).drop (opcode.size - 1) = rest := by
    rw [size, Nat.add_sub_cancel, List.drop_left]
  rw [decodeAll]
  simp only [read, Decoded.size, back]

theorem Decoded.recovers_instruction {held : Instruction} {operands : List UInt8} (address : Nat)
    (proper : ∀ arg ∈ held.args, arg.content.token.Proper)
    (mapped : held.args.mapM (Arg.byte? address?) = some operands) :
    Decoded.Recovers address?
      ⟨address, held.opcode.byte, .instruction held.opcode, held.opcode.byte :: operands⟩
      (address, held) := by
  have opcode : Decoded.opcode? ⟨address, held.opcode.byte, .instruction held.opcode,
      held.opcode.byte :: operands⟩ = some held.opcode := by
    have complete := length_of_mapM_eq_some _ _ _ mapped
    simp only [Decoded.opcode?, Opcode.size, List.length_cons, complete, held.complete]
    rw [if_neg (by rw [Nat.add_comm]; exact Nat.lt_irrefl _)]
  exact ⟨rfl, by rw [Decoded.isData, opcode]; rfl, opcode, rfl,
    Arg.map_number?_of_mapM proper mapped⟩

/-! ### A program is decoded as itself -/

/-- The code of entries that begin at an address, none of which is data, is decoded as their
instructions. -/
theorem Program.recovers_code (program : Program) (start : Nat)
    (noData : ∀ entry ∈ program, ∀ value, entry.statement ≠ .byte value)
    (spellable : ∀ entry ∈ program, entry.statement.Spellable)
    (resolved : ∀ entry ∈ program, entry.statement.Resolved address?) :
    List.Forall₂ (Decoded.Recovers address?)
      (decodeAll start (Statement.code address? program.statements))
      ((program.placedFrom start).filterMap Placed.instruction?) := by
  induction program generalizing start with
  | nil =>
    have nothing : decodeAll start (Statement.code address? (Program.statements [])) = [] := by
      rw [Program.statements, List.map_nil, Statement.code, List.flatMap_nil, decodeAll]
    rw [nothing]
    exact .nil
  | cons entry rest inductionHypothesis =>
    rw [List.forall_mem_cons] at noData spellable resolved
    have further := fun start => inductionHypothesis start noData.2 spellable.2 resolved.2
    obtain ⟨statement, line⟩ := entry
    cases statement with
    | label name span => exact further start
    | byte value => exact absurd rfl (noData.1 value)
    | instruction held =>
      obtain ⟨operands, mapped⟩ := resolved.1
      have code : Statement.code address?
          (Program.statements (⟨.instruction held, line⟩ :: rest)) =
            held.opcode.byte ::
              (operands ++ Statement.code address? (Program.statements rest)) := by
        rw [Program.statements, List.map_cons, Statement.code, List.flatMap_cons]
        simp only [Statement.bytes, mapped]
        rfl
      have complete : operands.length = held.opcode.operands.length := by
        rw [length_of_mapM_eq_some _ _ _ mapped, held.complete]
      rw [code, decodeAll_instruction _ _ _ _ complete]
      exact .cons (Decoded.recovers_instruction start spellable.1.content_proper mapped)
        (further (start + held.opcode.size))

end

/-- If a source assembles and holds no data, its code is decoded as its instructions: one
complete instruction for each, in order, at the address where it lies, with its opcode and with
its operands, in which each label has become its address. -/
theorem decoding_recovers_program (source : String) (program : Program) (code : List UInt8)
    (parsed : Program.ofSource source = .ok program) (assembled : assemble source = .ok code)
    (noData : ∀ entry ∈ program, ∀ value, entry.statement ≠ .byte value) :
    List.Forall₂ (Decoded.Recovers (Image.ofProgram program).labels.address?)
      (decodeUpTo code 0 none none) program.instructions := by
  have made : (Image.ofProgram program).result = .ok code := by
    rw [← assembled, assemble, Session.fresh.assemble_of_parsed parsed]
  have resolved : ∀ entry ∈ program,
      entry.statement.Resolved (Image.ofProgram program).labels.address? := by
    rintro ⟨statement, line⟩ member
    cases statement with
    | label name span => trivial
    | byte value => trivial
    | instruction held => exact Image.operands_of_result program made member
  have same : code = Statement.code (Image.ofProgram program).labels.address?
      program.statements := by
    rw [← Image.code_ofProgram, ((Image.result_eq_ok_iff _ _).mp made).2]
  rw [same]
  exact program.recovers_code 0 noData (Program.spellable_of_ofSource parsed) resolved

/-- Operands that look like opcodes are not taken for any. -/
theorem decoding_recovers_loop :
    let source := ".top:\nldi $50\nsti $11 msg\njmp top\n.msg:\nstop"
    let load : Instruction := ⟨.ldi, [⟨.value 0x50, some ⟨4, 7, by decide⟩, false⟩], rfl⟩
    let store : Instruction := ⟨.sti, [⟨.value 0x11, some ⟨4, 7, by decide⟩, false⟩,
      ⟨.label "msg", some ⟨8, 11, by decide⟩, false⟩], rfl⟩
    let jump : Instruction := ⟨.jmp, [⟨.label "top", some ⟨4, 7, by decide⟩, false⟩], rfl⟩
    let program : Program :=
      [⟨.label "top" (some ⟨1, 4, by decide⟩), 0, 0, ".top:"⟩,
        ⟨.instruction load, 1, 6, "ldi $50"⟩,
        ⟨.instruction store, 2, 14, "sti $11 msg"⟩,
        ⟨.instruction jump, 3, 26, "jmp top"⟩,
        ⟨.label "msg" (some ⟨1, 4, by decide⟩), 4, 34, ".msg:"⟩,
        ⟨.instruction ⟨.stop, [], rfl⟩, 5, 40, "stop"⟩]
    let code : List UInt8 := [0x11, 0x50, 0x13, 0x11, 0x07, 0x20, 0x00, 0x50]
    Program.ofSource source = .ok program ∧ assemble source = .ok code ∧
      (∀ entry ∈ program, ∀ value, entry.statement ≠ .byte value) ∧
      List.Forall₂ (Decoded.Recovers (Image.ofProgram program).labels.address?)
        (decodeUpTo code 0 none none)
        [(0, load), (2, store), (5, jump), (7, ⟨.stop, [], rfl⟩)] := by
  intro source load store jump program code
  have parsed : Program.ofSource source = .ok program := by decide +kernel
  have assembled : assemble source = .ok code := by
    rw [assemble, Session.fresh.assemble_of_parsed parsed]
    rfl
  have noData : ∀ entry ∈ program, ∀ value, entry.statement ≠ .byte value := by
    simp [program]
  exact ⟨parsed, assembled, noData,
    decoding_recovers_program source program code parsed assembled noData⟩

end Octet
