/-
This file shows that a trace tells what the machine does. The tracer copies
three bytes out of the memory and decodes them as if there were no others; the
machine fetches the opcode and every operand for itself, around the end of the
memory if need be. They agree because no instruction is longer than what is
copied, and because the machine fetches as many operands as the table lists.

That the machine fetches the bytes that are shown, and no others, is said by
executing the instruction a second time with the shown bytes for its operands.
-/

import Octet.Proofs.Instructions
import Octet.Proofs.Printing
import Octet.Proofs.Runs
import Octet.Tool.Execute

namespace Octet

open Tool.Execute

/-! ### Instructions with given operands -/

namespace Machine

/-- What the machine does with an instruction whose operand bytes are given, wherever they come
from. There is an answer only for as many bytes as the instruction makes use of. -/
def perform? (machine : Machine) : Opcode → List UInt8 → Option (Machine × String)
  | .nop, [] => some (machine.advance 1, "")
  | .ld, [source] => some ((machine.withAcc (machine.memory.get source)).advance 2, "")
  | .ldi, [value] => some ((machine.withAcc value).advance 2, "")
  | .st, [cell] => some ((machine.store cell machine.acc).advance 2, "")
  | .sti, [value, cell] => some ((machine.store cell value).advance 3, "")
  | .mov, [source, cell] =>
    some ((machine.store cell (machine.memory.get source)).advance 3, "")
  | .jmp, [target] => some ({ machine with pc := target }, "")
  | .jz, [target] =>
    some (if machine.acc = 0 then { machine with pc := target } else machine.advance 2, "")
  | .add, [source] =>
    some ((machine.withAcc (machine.acc + machine.memory.get source)).advance 2, "")
  | .addi, [value] => some ((machine.withAcc (machine.acc + value)).advance 2, "")
  | .sub, [source] =>
    some ((machine.withAcc (machine.acc - machine.memory.get source)).advance 2, "")
  | .subi, [value] => some ((machine.withAcc (machine.acc - value)).advance 2, "")
  | .shr, [] => some ((machine.withAcc (machine.acc >>> 1)).advance 1, "")
  | .shl, [] => some ((machine.withAcc (machine.acc <<< 1)).advance 1, "")
  | .and, [source] =>
    some ((machine.withAcc (machine.acc &&& machine.memory.get source)).advance 2, "")
  | .andi, [value] => some ((machine.withAcc (machine.acc &&& value)).advance 2, "")
  | .print, [source] => some (machine.advance 2, machine.memory.textAt source.toNat ++ "\n")
  | .stop, [] => some ({ machine with halted := true }, "")
  | _, _ => none

/-- The bytes behind the program counter that are the operands of an instruction there. -/
def operandsOf (machine : Machine) (opcode : Opcode) : List UInt8 :=
  (List.range opcode.operands.length).map fun index => machine.operand (.ofNat (index + 1))

/-- Executing an instruction makes use of the operands that the table lists, and of no others. -/
theorem perform?_operandsOf (machine : Machine) (opcode : Opcode) :
    machine.perform? opcode (machine.operandsOf opcode) = some (machine.execute opcode) := by
  cases opcode <;> rfl

end Machine

/-! ### The bytes that are copied -/

theorem Decoded.atOffset_zero (address : Int) (first : UInt8) (rest : List UInt8) :
    Decoded.atOffset (first :: rest) address 0 = .ok (ofBytes address first rest) :=
  Decoded.atOffset_eq address rfl

theorem Machine.block_pc (machine : Machine) :
    machine.memory.block machine.pc.toNat 3 =
      [machine.fetched, machine.operand 1, machine.operand 2] := by
  have cell : ∀ index : Nat,
      UInt8.ofInt (machine.pc.toNat + index) = machine.pc + .ofNat index := by
    intro index
    rw [← Int.natCast_add, byteOfInt_natCast, UInt8.ofNat_add, UInt8.ofNat_toNat]
  simp only [Memory.block, Memory.read, cell]
  simp [List.range_succ, Machine.fetched, Machine.operand]

/-! ### What is shown of an instruction -/

/-- The operands of an instruction are shown as what they are. -/
theorem questionMark_not_mem_operands (opcode : Opcode) (bytes : List UInt8) :
    '?' ∉ (describeOperands [] [] opcode bytes).1.toList := by
  rw [describeOperands_fst]
  refine not_mem_intercalate _ _ (by decide) fun text member inside => ?_
  obtain ⟨arg, listed, rfl⟩ := List.mem_map.mp member
  obtain ⟨⟨operand, byte⟩, _, rfl⟩ := List.mem_map.mp listed
  have number : '?' ∉ (Text.dollarHex byte.toNat).toList :=
    Text.not_mem_dollarHex (by decide) (by decide) byte.toNat
  have meant : Arg.meant [] operand byte = ⟨.value byte.toNat, none, operand.meaning = .cell⟩ := by
    cases operand <;> rfl
  simp only [meant, Arg.text] at inside
  split at inside
  · simp only [String.toList_append, List.mem_append] at inside
    rcases inside with (opening | spelled) | closing
    · exact absurd opening (by decide)
    · exact number spelled
    · exact absurd closing (by decide)
  · exact number inside

/-- Without names for addresses there is no comment but on a printable character, in quotes. -/
theorem comment_quoted (opcode : Opcode) (bytes : List UInt8) :
    (describeOperands [] [] opcode bytes).2 = "" ∨
      (describeOperands [] [] opcode bytes).2.toList.head? = some '\'' := by
  rw [describeOperands]
  generalize described : ((opcode.operands.zip bytes).map fun pair =>
    describeOperand [] [] pair.1 pair.2).filterMap Prod.snd = comments
  have quoted : ∀ text ∈ comments, text.toList.head? = some '\'' := by
    intro text member
    rw [← described] at member
    obtain ⟨one, listed, same⟩ := List.mem_filterMap.mp member
    obtain ⟨⟨operand, byte⟩, _, rfl⟩ := List.mem_map.mp listed
    rcases describeOperand_snd same with ⟨_, rfl⟩ | named
    · rw [String.toList_append, String.toList_append]
      rfl
    · cases named
  cases comments with
  | nil => exact .inl rfl
  | cons text rest =>
    refine .inr ?_
    have head := quoted text List.mem_cons_self
    by_cases last : rest = []
    · rwa [last, String.intercalate_singleton]
    · rw [String.intercalate_cons_of_ne_nil last, String.toList_append, String.toList_append,
        List.append_assoc, List.head?_append, head]
      rfl

/-! ### The instruction to come -/

/-- What decoded bytes tell of a machine that is about to execute an instruction: the whole
instruction, each operand that the machine fetches for it, and where the next one begins. -/
structure Decoded.Announces (decoded : Decoded) (machine : Machine) (opcode : Opcode) :
    Prop where
  address : decoded.address = machine.pc.toNat
  complete : decoded.opcode? = some opcode
  mnemonic : decoded.mnemonic = opcode.mnemonic
  legible : decoded.operandText ≠ "???" ∧ decoded.comment [] ≠ "incomplete instruction"
  bytes : decoded.bytes = opcode.byte :: decoded.operandBytes
  operands : decoded.operandBytes = machine.operandsOf opcode
  performed : machine.perform? opcode decoded.operandBytes = some (machine.execute opcode)
  executed : machine.halted = false → machine.step = .ok (machine.execute opcode)
  goesOn : opcode ≠ .stop → ¬(opcode = .jmp ∨ opcode = .jz ∧ machine.acc = 0) →
    (machine.execute opcode).1.pc.toNat = (machine.pc.toNat + decoded.size) % memorySize

/-- What decoded bytes tell of a machine that is about to meet a fault: the one byte that is no
instruction. -/
structure Decoded.AnnouncesFault (decoded : Decoded) (machine : Machine) : Prop where
  address : decoded.address = machine.pc.toNat
  data : decoded.isData = true
  bytes : decoded.bytes = [machine.fetched]
  statement : decoded.statementText = ".byte " ++ Text.dollarHex machine.fetched.toNat
  faults : machine.halted = false →
    machine.step = .error ⟨machine.fetched.toNat, machine.pc.toNat⟩

namespace Machine

variable (machine : Machine)

/-- What is decoded at the program counter, if there is an instruction. -/
theorem upcoming_of_fetched {opcode : Opcode} (fetched : opcode.byte = machine.fetched) :
    upcoming machine =
      ⟨machine.pc.toNat, opcode.byte, .instruction opcode,
        opcode.byte :: machine.operandsOf opcode⟩ := by
  rw [upcoming, ← fetched, Decoded.ofBytes, Decoded.decode, Opcode.ofByte?_byte]
  -- the three bytes hold the instruction, whichever it is
  cases opcode <;> rfl

theorem upcoming_announces {opcode : Opcode} (fetched : opcode.byte = machine.fetched) :
    (upcoming machine).Announces machine opcode := by
  have length : (machine.operandsOf opcode).length = opcode.operands.length := by
    rw [operandsOf, List.length_map, List.length_range]
  have whole : ¬(opcode.byte :: machine.operandsOf opcode).length < opcode.size := by
    rw [List.length_cons, length, Opcode.size]
    omega
  rw [machine.upcoming_of_fetched fetched]
  refine ⟨rfl, ?_, rfl, ⟨fun unknown => ?_, fun incomplete => ?_⟩, rfl, rfl,
    machine.perform?_operandsOf opcode, fun running => machine.step_of_fetched running fetched.symm,
    fun goesOn falls => ?_⟩
  · exact if_neg whole
  · refine questionMark_not_mem_operands opcode (machine.operandsOf opcode) ?_
    have shown : (describeOperands [] [] opcode (machine.operandsOf opcode)).1 = "???" := unknown
    rw [shown]
    decide
  · have shown : (describeOperands [] [] opcode (machine.operandsOf opcode)).2 =
        "incomplete instruction" := incomplete
    rcases comment_quoted opcode (machine.operandsOf opcode) with empty | quoted
    · rw [shown] at empty
      exact absurd empty (by decide)
    · rw [shown] at quoted
      exact absurd quoted (by decide)
  · rw [pc_execute, if_neg goesOn, if_neg falls, UInt8.toNat_add, UInt8.toNat_ofNat']
    exact Nat.add_mod_mod _ _ _

theorem upcoming_announcesFault (unknown : ∀ opcode : Opcode, opcode.byte ≠ machine.fetched) :
    (upcoming machine).AnnouncesFault machine := by
  have absent := (Opcode.ofByte?_eq_none_iff machine.fetched).mpr unknown
  have decoded : upcoming machine =
      ⟨machine.pc.toNat, machine.fetched, .unknown, [machine.fetched]⟩ := by
    rw [upcoming, Decoded.ofBytes, Decoded.decode, absent]
  rw [decoded]
  refine ⟨rfl, rfl, rfl, ?_, fun running => ?_⟩
  · have something : (Text.dollarHex machine.fetched.toNat).isEmpty = false := by
      rw [String.isEmpty_eq_false_iff]
      intro empty
      have spelled := congrArg String.toList empty
      rw [Text.toList_dollarHex] at spelled
      cases spelled
    show joined ".byte" (Text.dollarHex machine.fetched.toNat) = _
    rw [joined, something]
    rfl
  · exact (machine.step_eq_error_iff running _).mpr ⟨unknown, rfl⟩

end Machine

/-! ### The trace of a run -/

/-- The machines that a run was seen at: before each instruction that it executed, and before a
byte that is none. -/
def Run.passed {Notes : Type} (start : Machine) (run : Run Notes) (outcome : Outcome) :
    List Machine :=
  (List.range run.steps).map (fun steps => (start.stepped steps).machine) ++
    if outcome.fault?.isSome then [run.machine] else []

/-- The trace of some machines. -/
def traceOf (machines : List Machine) : String :=
  String.join (machines.map fun machine => echo (traceLine machine))

theorem traceOf_append_single (machines : List Machine) (machine : Machine) :
    traceOf (machines ++ [machine]) = traceOf machines ++ echo (traceLine machine) := by
  simp [traceOf]

/-- A run that has a line for each instruction so far gets one for each further instruction. -/
theorem Run.upTo_traced (machine : Machine) (limit : Nat) (run : Run String)
    (tracks : machine.stepped run.steps = run.progress)
    (traced : run.notes =
      traceOf ((List.range run.steps).map fun steps => (machine.stepped steps).machine)) :
    (run.upTo (tracer true) limit).1.notes =
      traceOf ((run.upTo (tracer true) limit).1.passed machine
        (run.upTo (tracer true) limit).2) := by
  induction limit generalizing run with
  | zero =>
    rw [upTo]
    split <;> exact traced.trans (congrArg traceOf (List.append_nil _).symm)
  | succ limit inductionHypothesis =>
    rw [upTo]
    generalize turned : run.turn (tracer true) = result
    cases turned ▸ turns_turn (tracer true) run with
    | stopped => exact traced.trans (congrArg traceOf (List.append_nil _).symm)
    | paused _ refused => cases (Prod.mk.inj refused).2
    | faulted _ allowed _ =>
      obtain ⟨rfl, _⟩ := Prod.mk.inj allowed
      refine Eq.trans ?_ (traceOf_append_single _ run.machine).symm
      rw [← traced]
    | executed running allowed executed =>
      obtain ⟨rfl, _⟩ := Prod.mk.inj allowed
      have met : (machine.stepped run.steps).machine = run.machine := by
        rw [tracks]
        rfl
      refine inductionHypothesis _ (tracks_executed tracks running executed _) ?_
      rw [List.range_succ, List.map_append, List.map_singleton, traceOf_append_single, ← traced,
        met]

/-- The trace of a run has a line for every machine that the run was seen at, in order. -/
theorem Machine.run_traced (machine : Machine) (limit : Option Int) :
    (machine.run (tracer true) "" limit).1.notes =
      traceOf ((machine.run (tracer true) "" limit).1.passed machine
        (machine.run (tracer true) "" limit).2) := by
  have traced := Run.upTo_traced machine (Run.allowance limit) (Run.start machine "") rfl rfl
  rw [run_eq]
  refine traced.trans (congrArg traceOf ?_)
  have same : ∀ outcome : Outcome, (outcome.told limit).fault? = outcome.fault? := by
    intro outcome
    cases limit <;> cases outcome <;> rfl
  simp only [Run.passed, same]

/-! ### Traces tell the execution -/

/-- A trace shows what the machine executes. What the tracer decodes is the beginning of the three
bytes at the program counter, around the end of the memory. If the byte there is an instruction,
the decoded bytes announce it as the machine executes it; if not, they announce the fault. A whole
run is traced by a line for each machine on its way. -/
theorem trace_tells_execution (machine : Machine) :
    Decoded.atOffset (machine.memory.block machine.pc.toNat 3) machine.pc.toNat 0 =
        .ok (upcoming machine) ∧
      (∀ opcode : Opcode, opcode.byte = machine.fetched →
        (upcoming machine).Announces machine opcode) ∧
      ((∀ opcode : Opcode, opcode.byte ≠ machine.fetched) →
        (upcoming machine).AnnouncesFault machine) ∧
      ∀ limit : Option Int, (machine.run (tracer true) "" limit).1.notes =
        traceOf ((machine.run (tracer true) "" limit).1.passed machine
          (machine.run (tracer true) "" limit).2) := by
  refine ⟨?_, fun _ => machine.upcoming_announces, machine.upcoming_announcesFault,
    machine.run_traced⟩
  rw [machine.block_pc]
  exact Decoded.atOffset_zero _ _ _

/-- The operands of a store in the last two cells lie in the last and in the first one. -/
example :
    traceLine ⟨((Memory.zero.set 0xFE 0x13).set 0xFF 0x2A).set 0x00 0x80, 0xFE, 7, false⟩ =
      "$FE: 13 2A 80  sti $2A [$80]    acc=$07" := by
  decide +kernel

end Octet
