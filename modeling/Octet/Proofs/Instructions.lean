/-
This file shows that the table of instructions tells what the machine does with
them. The machine executes each instruction in its own words, with its own idea
of how long it is, where its operands lie and what it changes. Here all of that
is read off the table: which bytes are instructions, where the next one begins,
which operand is a jump target, and which operand names the one cell that may
change.

Operands are taken from the memory as it is before the instruction. They lie
around the end of memory if need be, and the cell that changes may be one of
them or the opcode itself.
-/

import Octet.Proofs.Steps

namespace Octet

/-- The instructions that may change the accumulator. -/
def Opcode.accumulating : List Opcode :=
  [.ld, .ldi, .add, .addi, .sub, .subi, .shr, .shl, .and, .andi]

/-- The byte that the instruction under the program counter carries for an operand. The operands
lie behind the opcode in the order of the table, and behind the last cell comes the first. -/
def Machine.operandFor? (machine : Machine) (opcode : Opcode) (operand : Operand) : Option UInt8 :=
  (opcode.operands.idxOf? operand).map fun index =>
    machine.memory.get (.ofNat (machine.pc.toNat + (index + 1)))

/-- What the table allows an instruction to do: the machine it leaves, and the text it prints. -/
structure Opcode.Permits (opcode : Opcode) (machine next : Machine) (text : String) : Prop where
  jumps : opcode = .jmp ∨ opcode = .jz ∧ machine.acc = 0 →
    machine.operandFor? opcode .target = some next.pc
  stays : opcode = .stop → next.pc = machine.pc
  advances : opcode ≠ .stop → ¬(opcode = .jmp ∨ opcode = .jz ∧ machine.acc = 0) →
    next.pc.toNat = (machine.pc.toNat + opcode.size) % memorySize
  memory : ∀ cell, next.memory.get cell ≠ machine.memory.get cell →
    machine.operandFor? opcode .destination = some cell
  acc : next.acc ≠ machine.acc → opcode ∈ Opcode.accumulating
  prints : text ≠ "" ↔ opcode = .print
  halts : next.halted = true ↔ opcode = .stop

/-- A byte encodes no instruction exactly if the table does not have it. -/
theorem Opcode.ofByte?_eq_none_iff (byte : UInt8) :
    ofByte? byte = none ↔ ∀ opcode : Opcode, opcode.byte ≠ byte := by
  rw [ofByte?, List.find?_eq_none]
  exact ⟨fun none opcode same => none opcode opcode.mem_all (beq_iff_eq.mpr same),
    fun none opcode _ same => none opcode (beq_iff_eq.mp same)⟩

namespace Machine

variable (machine : Machine) (opcode : Opcode)

/-! ### Operands by their roles -/

/-- The operand that the table lists at some place is the byte at that place behind the opcode. -/
theorem operandFor?_of_idxOf? {operand : Operand} {index : Nat}
    (listed : opcode.operands.idxOf? operand = some index) :
    machine.operandFor? opcode operand = some (machine.operand (.ofNat (index + 1))) := by
  rw [operandFor?, listed, Option.map_some, UInt8.ofNat_add, UInt8.ofNat_toNat]
  rfl

/-! ### What changes -/

/-- A byte that is stored changes the cell it is stored in at most. -/
theorem cell_of_changed {cell other byte : UInt8}
    (changed : (machine.store cell byte).memory.get other ≠ machine.memory.get other) :
    cell = other :=
  Decidable.byContradiction fun different =>
    changed (Memory.get_set_other machine.memory byte different)

/-- Only the cell that the destination operand names may change. -/
theorem destination_of_changed {cell : UInt8}
    (changed : (machine.execute opcode).1.memory.get cell ≠ machine.memory.get cell) :
    machine.operandFor? opcode .destination = some cell := by
  by_cases writes : .destination ∈ opcode.operands
  · cases opcode with
    | st => rw [← machine.cell_of_changed changed, operandFor?_of_idxOf? machine .st rfl]; rfl
    | sti => rw [← machine.cell_of_changed changed, operandFor?_of_idxOf? machine .sti rfl]; rfl
    | mov => rw [← machine.cell_of_changed changed, operandFor?_of_idxOf? machine .mov rfl]; rfl
    | _ => exact absurd writes (by decide)
  · rw [machine.memory_execute opcode writes] at changed
    exact absurd rfl changed

/-- An instruction outside the list leaves the accumulator as it is. -/
theorem acc_execute (keeps : opcode ∉ Opcode.accumulating) :
    (machine.execute opcode).1.acc = machine.acc := by
  cases opcode with
  | nop | st | sti | mov | jmp | print | stop => rfl
  | jz =>
    simp only [execute]
    split <;> rfl
  | _ => exact absurd keeps (by decide)

/-- Only a stop halts the machine. -/
theorem halted_execute (running : machine.halted = false) :
    (machine.execute opcode).1.halted = true ↔ opcode = .stop := by
  cases opcode with
  | stop => exact iff_of_true rfl rfl
  | jz =>
    have still : (machine.execute .jz).1.halted = machine.halted := by
      simp only [execute]
      split <;> rfl
    rw [still, running]
    decide
  | _ =>
    refine iff_of_false (fun halted => ?_) Opcode.noConfusion
    exact Bool.false_ne_true (running.symm.trans halted)

/-- Only a print prints, and what it prints ends with a line feed. -/
theorem printed_execute : (machine.execute opcode).2 ≠ "" ↔ opcode = .print := by
  cases opcode with
  | print =>
    refine iff_of_true (fun nothing => ?_) rfl
    have empty := congrArg String.toList nothing
    rw [execute, String.toList_append] at empty
    exact List.append_ne_nil_of_right_ne_nil _ (List.cons_ne_nil _ _) empty
  | _ => exact iff_of_false (fun something => something rfl) Opcode.noConfusion

/-- A jump goes to its operand. -/
theorem target_of_jump (jumps : opcode = .jmp ∨ opcode = .jz ∧ machine.acc = 0) :
    machine.operandFor? opcode .target = some (machine.execute opcode).1.pc := by
  have listed : opcode.operands.idxOf? .target = some 0 ∧ opcode ≠ .stop := by
    rcases jumps with rfl | ⟨rfl, _⟩ <;> decide
  rw [machine.operandFor?_of_idxOf? opcode listed.1, pc_execute, if_neg listed.2, if_pos jumps]
  rfl

/-! ### The table and the machine -/

/-- What the machine does with an instruction is what the table allows. -/
theorem permits_execute (running : machine.halted = false) :
    opcode.Permits machine (machine.execute opcode).1 (machine.execute opcode).2 where
  jumps := machine.target_of_jump opcode
  stays := fun stop => by rw [pc_execute, if_pos stop]
  advances := fun other falls => by
    rw [pc_execute, if_neg other, if_neg falls, UInt8.toNat_add, UInt8.toNat_ofNat']
    exact Nat.add_mod_mod _ _ _
  memory := fun _ => machine.destination_of_changed opcode
  acc := fun changed => Decidable.byContradiction fun keeps =>
    changed (machine.acc_execute opcode keeps)
  prints := machine.printed_execute opcode
  halts := machine.halted_execute opcode running

/-- A machine that has not stopped faults exactly if the byte under its program counter is not in
the table. -/
theorem step_eq_error_iff (running : machine.halted = false) (fault : Fault) :
    machine.step = .error fault ↔
      (∀ opcode : Opcode, opcode.byte ≠ machine.fetched) ∧
        fault = ⟨machine.fetched.toNat, machine.pc.toNat⟩ := by
  rw [machine.step_of_running running, executeFetched, ← Opcode.ofByte?_eq_none_iff]
  cases Opcode.ofByte? machine.fetched with
  | some opcode =>
    refine iff_of_false (fun faulted => ?_) fun unknown => ?_
    · cases faulted
    · cases unknown.1
  | none => exact ⟨fun same => ⟨rfl, (Except.error.inj same).symm⟩, fun same => by rw [same.2]⟩

end Machine

/-- The table and the machine agree on every step. A machine that has not stopped faults exactly
if the byte under its program counter is no opcode of the table, and if it is one, the step does
what the table allows this instruction. -/
theorem table_tells_step (machine : Machine) (running : machine.halted = false) :
    ((∃ fault, machine.step = .error fault) ↔ ∀ opcode : Opcode, opcode.byte ≠ machine.fetched) ∧
      ∀ opcode : Opcode, opcode.byte = machine.fetched →
        ∃ next text, machine.step = .ok (next, text) ∧
          opcode.Permits machine next text := by
  constructor
  · constructor
    · rintro ⟨fault, faulted⟩
      exact ((machine.step_eq_error_iff running fault).mp faulted).1
    · intro unknown
      exact ⟨_, (machine.step_eq_error_iff running _).mpr ⟨unknown, rfl⟩⟩
  · intro opcode fetched
    exact ⟨_, _, machine.step_of_fetched running fetched.symm,
      machine.permits_execute opcode running⟩

/-- A store at the end of memory, with an operand in cell zero, that overwrites its own opcode. -/
theorem table_tells_overwriting_store :
    let machine : Machine :=
      ⟨((Memory.zero.set 0xFE 0x13).set 0xFF 0x2A).set 0x00 0xFE, 0xFE, 7, false⟩
    machine.halted = false ∧ machine.operandFor? .sti .destination = some 0xFE ∧
      ∃ next text, machine.step = .ok (next, text) ∧ next.memory.get 0xFE = 0x2A ∧
        Opcode.sti.Permits machine next text := by
  intro machine
  have fetched : machine.fetched = Opcode.sti.byte := by decide
  obtain ⟨next, text, executed, permitted⟩ := (table_tells_step machine rfl).2 .sti fetched.symm
  refine ⟨rfl, by decide, next, text, executed, ?_, permitted⟩
  rw [machine.step_of_fetched rfl fetched] at executed
  rw [← (Prod.mk.inj (Except.ok.inj executed)).1]
  have destination : machine.operand 2 = 0xFE := by decide
  show (machine.memory.set (machine.operand 2) (machine.operand 1)).get 0xFE = 0x2A
  rw [destination, Memory.get_set_self]
  decide

end Octet
