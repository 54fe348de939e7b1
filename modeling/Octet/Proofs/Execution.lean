/-
This file follows a machine through a program that it does not change. A
program that stores nothing, lays down no data of its own and jumps to labels
only is executed as it is written: the machine always stands at the beginning
of an instruction, or behind the program among the zeros, and what it executes
is the instruction that was written there.

What carries the argument is that everything a machine can go on to is a place
between two entries: the place behind an instruction, the place that a label is
bound to, and address zero, to which the machine comes back after the last
cell. From such a place the next instruction begins, or the program ends.
-/

import Mathlib.Order.Basic
import Octet.Assembly.Session
import Octet.Proofs.Encoding
import Octet.Proofs.Steps

namespace Octet

/-! ### Programs that are executed as they are written -/

/-- What a program may consist of to be executed as it is written: label definitions, and
instructions that write no memory and jump to labels only. -/
def Statement.Steady : Statement → Prop
  | .label _ _ => True
  | .byte _ => False
  | .instruction held =>
    held.opcode ≠ .st ∧ held.opcode ≠ .sti ∧ held.opcode ≠ .mov ∧
      (held.opcode.isJump = true → ∀ arg ∈ held.args, ∃ name, arg.content = .label name)

/-- Only three instructions name a cell that they write. -/
theorem Opcode.writes_of_destination (opcode : Opcode) :
    .destination ∈ opcode.operands → opcode = .st ∨ opcode = .sti ∨ opcode = .mov := by
  cases opcode <;> decide

theorem Opcode.no_destination {opcode : Opcode}
    (keeps : opcode ≠ .st ∧ opcode ≠ .sti ∧ opcode ≠ .mov) : .destination ∉ opcode.operands := by
  intro member
  rcases opcode.writes_of_destination member with st | sti | mov
  · exact keeps.1 st
  · exact keeps.2.1 sti
  · exact keeps.2.2 mov

/-- At a place between two entries of a steady program an instruction begins, unless the program
ends there. -/
theorem Program.instruction_or_end {program : Program} {place : Nat}
    (steady : ∀ entry ∈ program, entry.statement.Steady) (boundary : program.Boundary place) :
    (∃ (before after : Program) (held : Instruction) (line : PhysicalLine),
      program = before ++ ⟨.instruction held, line⟩ :: after ∧ before.size = place) ∨
      place = program.size := by
  obtain ⟨before, after, split, rfl⟩ := boundary
  induction after generalizing before with
  | nil => exact Or.inr (by rw [split, List.append_nil])
  | cons entry rest inductionHypothesis =>
    obtain ⟨statement, line⟩ := entry
    cases statement with
    | instruction held => exact Or.inl ⟨before, rest, held, line, split, rfl⟩
    | byte value =>
      exact absurd (steady ⟨.byte value, line⟩
        (split ▸ List.mem_append_right _ List.mem_cons_self)) id
    | label name span =>
      have later := inductionHypothesis (before ++ [⟨.label name span, line⟩])
        (by rw [split, List.append_assoc]; rfl)
      rwa [Program.size_append, Program.size_cons, Program.size_nil] at later

/-! ### The bytes of an instruction in memory -/

section

variable {program before after : Program} {code : List UInt8} {held : Instruction}
  {line : PhysicalLine} {operands : List UInt8}

/-- In a memory made of the code of a program the bytes of an instruction lie at its address. -/
theorem get_instruction (made : (Image.ofProgram program).result = .ok code)
    (split : program = before ++ ⟨.instruction held, line⟩ :: after)
    (mapped : held.args.mapM (Arg.byte? (Image.ofProgram program).labels.address?) = some operands)
    (index : Nat) (inside : index < (held.opcode.byte :: operands).length) :
    (Memory.zero.load code 0).get (.ofNat (before.size + index)) =
      (held.opcode.byte :: operands)[index] := by
  have slice := (Image.renders_ofProgram program).bytes before after _ split
  rw [Statement.bytes, mapped, ((Image.result_eq_ok_iff _ _).mp made).2] at slice
  simp only at slice
  have present : code[before.size + index]? = some (held.opcode.byte :: operands)[index] := by
    rw [← List.getElem?_eq_getElem inside, ← slice, List.getElem?_take_of_lt, List.getElem?_drop]
    rw [← slice] at inside
    exact Nat.lt_of_lt_of_le inside (List.length_take_le _ _)
  have bound : before.size + index < memorySize :=
    Nat.lt_of_lt_of_le (List.getElem?_eq_some_iff.mp present).1 (Image.length_of_result made)
  rw [Memory.get_load_program code (Image.length_of_result made), UInt8.toNat_ofNat',
    Nat.mod_eq_of_lt bound, present, Option.getD_some]

end

/-! ### A machine on its way through a program -/

/-- A machine is on the way through a program: the memory holds what was loaded, and the program
counter is at a place between two entries or behind the program. -/
structure Machine.OnWay (program : Program) (memory : Memory) (machine : Machine) : Prop where
  memory : machine.memory = memory
  place : program.Boundary machine.pc.toNat ∨ program.size ≤ machine.pc.toNat

/-- What is promised of a machine that executes a program: its memory is what was loaded, its
program counter is the address of an instruction or lies behind the program, and it executes the
instruction that is written at its program counter. -/
structure Machine.Follows (program : Program) (labels : Labels) (memory : Memory)
    (machine : Machine) : Prop where
  memory : machine.memory = memory
  place : (∃ held line, ⟨machine.pc.toNat, ⟨.instruction held, line⟩⟩ ∈ program.placed) ∨
    program.size ≤ machine.pc.toNat
  executes : ∀ held line, ⟨machine.pc.toNat, ⟨.instruction held, line⟩⟩ ∈ program.placed →
    machine.fetched = held.opcode.byte ∧
      ∃ operands, held.args.mapM (Arg.byte? labels.address?) = some operands ∧
        ∀ index (inside : index < operands.length),
          machine.operand (.ofNat (index + 1)) = operands[index]

section

variable {program : Program} {code : List UInt8} {machine : Machine}

/-- A place between two entries is still one when it is taken for an address: place 256 is
address zero. -/
theorem Program.Boundary.ofNat {place : Nat} (boundary : program.Boundary place)
    (fits : program.size ≤ memorySize) : program.Boundary (UInt8.ofNat place).toNat := by
  have small : place ≤ 256 := Nat.le_trans boundary.le_size fits
  rw [UInt8.toNat_ofNat']
  rcases Nat.lt_or_eq_of_le small with less | rfl
  · rwa [Nat.mod_eq_of_lt less]
  · exact program.boundary_zero

/-- The instruction at the program counter of a machine on its way is what the machine fetches,
with its operands. -/
theorem Machine.OnWay.executes (made : (Image.ofProgram program).result = .ok code)
    (onWay : machine.OnWay program (Memory.zero.load code 0)) {held : Instruction}
    {line : PhysicalLine}
    (placed : ⟨machine.pc.toNat, ⟨.instruction held, line⟩⟩ ∈ program.placed) :
    machine.fetched = held.opcode.byte ∧
      ∃ operands, held.args.mapM (Arg.byte? (Image.ofProgram program).labels.address?) =
          some operands ∧
        ∀ index (inside : index < operands.length),
          machine.operand (.ofNat (index + 1)) = operands[index] := by
  obtain ⟨before, after, split, place⟩ := (program.mem_placed_iff _ _).mp placed
  have member : ⟨.instruction held, line⟩ ∈ program :=
    split ▸ List.mem_append_right _ List.mem_cons_self
  obtain ⟨operands, mapped⟩ := Image.operands_of_result program made member
  have counter : machine.pc = .ofNat before.size := by rw [place, UInt8.ofNat_toNat]
  refine ⟨?_, operands, mapped, fun index inside => ?_⟩
  · have first := get_instruction made split mapped 0 (Nat.succ_pos _)
    rwa [Nat.add_zero, ← counter, ← onWay.memory] at first
  · have next := get_instruction made split mapped (index + 1) (Nat.succ_lt_succ inside)
    rwa [UInt8.ofNat_add, ← counter, ← onWay.memory] at next

/-- Behind the program a machine on its way executes zeros, up to the last cell. -/
theorem Machine.OnWay.step_behind (made : (Image.ofProgram program).result = .ok code)
    (onWay : machine.OnWay program (Memory.zero.load code 0)) (running : machine.halted = false)
    (behind : program.size ≤ machine.pc.toNat) :
    ∃ next text, machine.step = .ok (next, text) ∧
      next.OnWay program (Memory.zero.load code 0) := by
  have length : code.length = program.size := by
    rw [← ((Image.result_eq_ok_iff _ _).mp made).2, Image.length_code_ofProgram]
  have fetched : machine.fetched = Opcode.nop.byte := by
    rw [Machine.fetched, onWay.memory, Memory.get_load_program code (Image.length_of_result made),
      List.getElem?_eq_none (by rwa [length])]
    rfl
  refine ⟨(machine.execute .nop).1, (machine.execute .nop).2,
    machine.step_of_fetched running fetched, onWay.memory, ?_⟩
  have counter : (machine.execute .nop).1.pc = machine.pc + 1 := rfl
  rw [counter]
  have bound : machine.pc.toNat < 256 := machine.pc.toNat_lt
  rcases Nat.lt_or_eq_of_le (Nat.succ_le_of_lt bound) with less | last
  · right
    rw [UInt8.toNat_add]
    show program.size ≤ (machine.pc.toNat + 1) % 256
    rw [Nat.mod_eq_of_lt less]
    exact Nat.le_succ_of_le behind
  · left
    rw [UInt8.toNat_add]
    show program.Boundary ((machine.pc.toNat + 1) % 256)
    rw [← Nat.succ_eq_add_one, last]
    exact program.boundary_zero

/-- Where an instruction begins a machine on its way executes it, and goes on to the next
instruction, to the label that it jumps to, or nowhere. -/
theorem Machine.OnWay.step_within (made : (Image.ofProgram program).result = .ok code)
    (steady : ∀ entry ∈ program, entry.statement.Steady)
    (onWay : machine.OnWay program (Memory.zero.load code 0)) (running : machine.halted = false)
    {before after : Program} {held : Instruction} {line : PhysicalLine}
    (split : program = before ++ ⟨.instruction held, line⟩ :: after)
    (place : before.size = machine.pc.toNat) :
    ∃ next text, machine.step = .ok (next, text) ∧
      next.OnWay program (Memory.zero.load code 0) := by
  have placed := (program.mem_placed_iff _ _).mpr ⟨before, after, split, place⟩
  obtain ⟨fetched, operands, mapped, operand⟩ := onWay.executes made placed
  have member : ⟨.instruction held, line⟩ ∈ program :=
    split ▸ List.mem_append_right _ List.mem_cons_self
  obtain ⟨notSt, notSti, notMov, jumps⟩ := steady _ member
  refine ⟨(machine.execute held.opcode).1, (machine.execute held.opcode).2,
    machine.step_of_fetched running fetched, ?_, Or.inl ?_⟩
  · rw [Machine.memory_execute _ _ (Opcode.no_destination ⟨notSt, notSti, notMov⟩), onWay.memory]
  rw [Machine.pc_execute]
  by_cases stops : held.opcode = .stop
  · rw [if_pos stops]
    exact ⟨before, _, split, place⟩
  rw [if_neg stops]
  by_cases taken : held.opcode = .jmp ∨ held.opcode = .jz ∧ machine.acc = 0
  · rw [if_pos taken]
    have single : held.opcode.isJump = true ∧ held.opcode.operands = [.target] := by
      rcases taken with isJmp | ⟨isJz, _⟩
      · rw [isJmp]; exact ⟨rfl, rfl⟩
      · rw [isJz]; exact ⟨rfl, rfl⟩
    obtain ⟨arg, args⟩ : ∃ arg, held.args = [arg] := by
      rw [← List.length_eq_one_iff, held.complete, single.2]
      rfl
    obtain ⟨name, content⟩ := jumps single.1 arg (args ▸ List.mem_cons_self)
    rw [args] at mapped
    simp only [List.mapM_cons, List.mapM_nil, Arg.byte?, content] at mapped
    cases bound : (Image.ofProgram program).labels.address? name with
    | none =>
      rw [bound] at mapped
      cases mapped
    | some address =>
      rw [bound] at mapped
      by_cases inside : address < memorySize
      · simp only [if_pos inside] at mapped
        obtain rfl := Option.some_inj.mp mapped
        have target : machine.operand 1 = .ofNat address := operand 0 (Nat.succ_pos _)
        rw [target]
        exact (program.boundary_of_address? name address bound).ofNat
          (Image.size_le_of_result program made)
      · simp only [if_neg inside] at mapped
        cases mapped
  · rw [if_neg taken]
    have next : program.Boundary (before.size + held.opcode.size) :=
      ⟨before ++ [⟨.instruction held, line⟩], after, by rw [split, List.append_assoc]; rfl,
        by rw [Program.size_append, Program.size_cons, Program.size_nil]; rfl⟩
    have counter : machine.pc + .ofNat held.opcode.size =
        .ofNat (before.size + held.opcode.size) := by
      rw [UInt8.ofNat_add, place, UInt8.ofNat_toNat]
    rw [counter]
    exact next.ofNat (Image.size_le_of_result program made)

/-- A machine on its way executes an instruction and stays on its way. -/
theorem Machine.OnWay.step (made : (Image.ofProgram program).result = .ok code)
    (steady : ∀ entry ∈ program, entry.statement.Steady)
    (onWay : machine.OnWay program (Memory.zero.load code 0)) :
    ∃ next text, machine.step = .ok (next, text) ∧
      next.OnWay program (Memory.zero.load code 0) := by
  cases running : machine.halted with
  | true => exact ⟨machine, "", machine.step_of_halted running, onWay⟩
  | false =>
    rcases onWay.place with boundary | behind
    · rcases Program.instruction_or_end steady boundary with ⟨_, _, _, _, split, place⟩ | ending
      · exact onWay.step_within made steady running split place
      · exact onWay.step_behind made running (Nat.le_of_eq ending.symm)
    · exact onWay.step_behind made running behind

/-- What is promised of a machine that executes a program holds on the way through it. -/
theorem Machine.OnWay.follows (made : (Image.ofProgram program).result = .ok code)
    (steady : ∀ entry ∈ program, entry.statement.Steady)
    (onWay : machine.OnWay program (Memory.zero.load code 0)) :
    machine.Follows program (Image.ofProgram program).labels (Memory.zero.load code 0) := by
  refine ⟨onWay.memory, ?_, fun held line placed => onWay.executes made placed⟩
  rcases onWay.place with boundary | behind
  · rcases Program.instruction_or_end steady boundary with
      ⟨before, after, held, line, split, place⟩ | ending
    · exact Or.inl ⟨held, line, (program.mem_placed_iff _ _).mpr ⟨before, after, split, place⟩⟩
    · exact Or.inr (Nat.le_of_eq ending.symm)
  · exact Or.inr behind

end

/-! ### Every run of a steady program -/

/-- A source that assembles to a steady program never faults: whatever the accumulator holds in
the beginning, however many steps are allowed and whoever watches, the machine follows the
program in every state that it reaches, and a run ends in such a state without a fault. -/
theorem steady_program_never_faults (source : String) (program : Program) (code : List UInt8)
    (parsed : Program.ofSource source = .ok program) (assembled : assemble source = .ok code)
    (steady : ∀ entry ∈ program, entry.statement.Steady) :
    ∃ machine, Machine.ofProgram code = .ok machine ∧ machine.pc = 0 ∧
      code.length = program.size ∧
      ∀ acc : UInt8,
        (∀ reached, (machine.withAcc acc).Reaches reached →
          reached.Follows program (Image.ofProgram program).labels machine.memory) ∧
        ∀ (Notes : Type) (watcher : Watcher Notes) (notes : Notes) (limit : Option Int),
          (machine.withAcc acc).Reaches
              ((machine.withAcc acc).run watcher notes limit).1.machine ∧
            ∀ fault, ((machine.withAcc acc).run watcher notes limit).2 ≠ .fault fault := by
  have made : (Image.ofProgram program).result = .ok code := by
    rw [← assembled, assemble, Session.fresh.assemble_of_parsed parsed]
  refine ⟨_, Machine.ofProgram_of_length_le (Image.length_of_result made), rfl, ?_, fun acc => ?_⟩
  · rw [← ((Image.result_eq_ok_iff _ _).mp made).2, Image.length_code_ofProgram]
  have first : ((Machine.ofMemory (Memory.zero.load code 0)).withAcc acc).OnWay program
      (Memory.zero.load code 0) := ⟨rfl, Or.inl program.boundary_zero⟩
  have onWay : ∀ reached,
      ((Machine.ofMemory (Memory.zero.load code 0)).withAcc acc).Reaches reached →
        reached.OnWay program (Memory.zero.load code 0) := by
    intro reached reaches
    refine reaches.invariant _ first fun machine next text held executed => ?_
    obtain ⟨after, printed, stepped, still⟩ := held.step made steady
    rw [executed] at stepped
    rw [(Prod.mk.inj (Except.ok.inj stepped)).1]
    exact still
  refine ⟨fun reached reaches => (onWay reached reaches).follows made steady,
    fun Notes watcher notes limit => Machine.run_reaches _ (fun reached reaches => ?_) _ _ _⟩
  obtain ⟨next, text, executed, _⟩ := (onWay reached reaches).step made steady
  exact ⟨_, executed⟩

/-- A loop that counts down to a label behind the last instruction follows its source and never
faults. From two it takes seven instructions to the end of the program, and the second one is the
subtraction that is written there. -/
theorem countdown_never_faults :
    let source := ".top:\njz end\nsubi $01\njmp top\n.end:"
    let subtraction : Entry :=
      ⟨.instruction ⟨.subi, [⟨.value 1, some ⟨5, 8, by decide⟩, false⟩], rfl⟩, 2, 13, "subi $01"⟩
    let program : Program :=
      [⟨.label "top" (some ⟨1, 4, by decide⟩), 0, 0, ".top:"⟩,
        ⟨.instruction ⟨.jz, [⟨.label "end", some ⟨3, 6, by decide⟩, false⟩], rfl⟩, 1, 6, "jz end"⟩,
        subtraction,
        ⟨.instruction ⟨.jmp, [⟨.label "top", some ⟨4, 7, by decide⟩, false⟩], rfl⟩, 3, 22,
          "jmp top"⟩,
        ⟨.label "end" (some ⟨1, 4, by decide⟩), 4, 30, ".end:"⟩]
    let code : List UInt8 := [0x21, 6, 0x33, 1, 0x20, 0]
    Program.ofSource source = .ok program ∧ assemble source = .ok code ∧
      (∀ entry ∈ program, entry.statement.Steady) ∧
      ∃ machine, Machine.ofProgram code = .ok machine ∧ machine.pc = 0 ∧
        code.length = program.size ∧
        (∀ acc, (∀ reached, (machine.withAcc acc).Reaches reached →
            reached.Follows program (Image.ofProgram program).labels machine.memory) ∧
          ∀ (Notes : Type) (watcher : Watcher Notes) (notes : Notes) (limit : Option Int),
            (machine.withAcc acc).Reaches
                ((machine.withAcc acc).run watcher notes limit).1.machine ∧
              ∀ fault, ((machine.withAcc acc).run watcher notes limit).2 ≠ .fault fault) ∧
        (let behind := ((machine.withAcc 2).run .blind () (some 1)).1
         behind.steps = 1 ∧ behind.machine.fetched = Opcode.subi.byte ∧
           behind.machine.operand 1 = 1) ∧
        let last := ((machine.withAcc 2).run .blind () (some 7)).1
        last.steps = 7 ∧ last.machine.acc = 0 ∧ last.machine.pc.toNat = program.size := by
  intro source subtraction program code
  have parsed : Program.ofSource source = .ok program := by decide +kernel
  have assembled : assemble source = .ok code := by
    rw [assemble, Session.fresh.assemble_of_parsed parsed]
    rfl
  have steady : ∀ entry ∈ program, entry.statement.Steady := by
    simp [program, subtraction, Statement.Steady, Opcode.isJump]
  obtain ⟨machine, made, start, length, sound⟩ :=
    steady_program_never_faults source program code parsed assembled steady
  refine ⟨parsed, assembled, steady, machine, made, start, length, sound, ?_, ?_⟩
  · intro behind
    have follows := (sound 2).1 _ ((sound 2).2 Unit .blind () (some 1)).1
    obtain rfl := Except.ok.inj made
    have counter : behind.machine.pc.toNat = 2 := by decide
    have placed : ⟨behind.machine.pc.toNat, subtraction⟩ ∈ program.placed := by
      rw [counter]
      exact List.mem_cons_of_mem _ (List.mem_cons_of_mem _ List.mem_cons_self)
    obtain ⟨fetched, operands, mapped, held⟩ := follows.executes _ _ placed
    obtain rfl : [1] = operands := Option.some_inj.mp mapped
    exact ⟨by decide, fetched, held 0 (by decide)⟩
  · intro last
    obtain rfl := Except.ok.inj made
    decide

end Octet
