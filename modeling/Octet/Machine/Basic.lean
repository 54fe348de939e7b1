/-
This file is the machine itself: a memory, a program counter, an accumulator
and a flag that says whether it has stopped. One step fetches the byte under
the program counter and executes the instruction it encodes; a byte that
encodes none is a fault, and a fault changes nothing. All arithmetic wraps, for
the registers are bytes. Operands are fetched before anything is written.
-/

import Octet.Machine.Memory
import Octet.Opcode
import Octet.Text.Hex

namespace Octet

/-- The machine at one moment. -/
structure Machine where
  memory : Memory
  pc : UInt8
  acc : UInt8
  halted : Bool
deriving DecidableEq

/-- A byte that was fetched as an instruction and is none, and where it was fetched. -/
structure Fault where
  opcode : Int
  pc : Int
deriving DecidableEq, Repr

/-- The fault in words. -/
def Fault.message (fault : Fault) : String :=
  "unknown instruction " ++ Text.dollarHex fault.opcode ++ " at position " ++
    Text.dollarHex fault.pc

namespace Machine

/-- A machine about to run from address zero of a memory. -/
def ofMemory (memory : Memory) : Machine :=
  ⟨memory, 0, 0, false⟩

/-- A machine with a program in its memory. -/
def ofProgram (program : List UInt8) : Except TooLarge Machine :=
  (Memory.ofProgram program).map ofMemory

/-- The machine with its registers as they are before a run, and its memory as it is. -/
def reset (machine : Machine) : Machine :=
  ofMemory machine.memory

/-- The operand byte with the given position behind the opcode. -/
def operand (machine : Machine) (position : UInt8) : UInt8 :=
  machine.memory.get (machine.pc + position)

/-- The machine behind an instruction of the given size. -/
def advance (machine : Machine) (size : UInt8) : Machine :=
  { machine with pc := machine.pc + size }

/-- The machine with another value in its accumulator. -/
def withAcc (machine : Machine) (acc : UInt8) : Machine :=
  { machine with acc }

/-- The machine with another byte in one cell. -/
def store (machine : Machine) (cell byte : UInt8) : Machine :=
  { machine with memory := machine.memory.set cell byte }

/-- Executes an instruction. The answer is the machine behind it and the text it prints. -/
def execute (machine : Machine) : Opcode → Machine × String
  | .nop => (machine.advance 1, "")
  | .ld => ((machine.withAcc (machine.memory.get (machine.operand 1))).advance 2, "")
  | .ldi => ((machine.withAcc (machine.operand 1)).advance 2, "")
  | .st => ((machine.store (machine.operand 1) machine.acc).advance 2, "")
  | .sti => ((machine.store (machine.operand 2) (machine.operand 1)).advance 3, "")
  | .mov =>
    ((machine.store (machine.operand 2) (machine.memory.get (machine.operand 1))).advance 3, "")
  | .jmp => ({ machine with pc := machine.operand 1 }, "")
  | .jz =>
    (if machine.acc = 0 then { machine with pc := machine.operand 1 } else machine.advance 2, "")
  | .add =>
    ((machine.withAcc (machine.acc + machine.memory.get (machine.operand 1))).advance 2, "")
  | .addi => ((machine.withAcc (machine.acc + machine.operand 1)).advance 2, "")
  | .sub =>
    ((machine.withAcc (machine.acc - machine.memory.get (machine.operand 1))).advance 2, "")
  | .subi => ((machine.withAcc (machine.acc - machine.operand 1)).advance 2, "")
  | .shr => ((machine.withAcc (machine.acc >>> 1)).advance 1, "")
  | .shl => ((machine.withAcc (machine.acc <<< 1)).advance 1, "")
  | .and =>
    ((machine.withAcc (machine.acc &&& machine.memory.get (machine.operand 1))).advance 2, "")
  | .andi => ((machine.withAcc (machine.acc &&& machine.operand 1)).advance 2, "")
  | .print => (machine.advance 2, machine.memory.textAt (machine.operand 1).toNat ++ "\n")
  | .stop => ({ machine with halted := true }, "")

/-- The byte under the program counter. -/
def fetched (machine : Machine) : UInt8 :=
  machine.memory.get machine.pc

/-- Executes the instruction under the program counter, whether or not the machine has stopped. -/
def executeFetched (machine : Machine) : Except Fault (Machine × String) :=
  match Opcode.ofByte? machine.fetched with
  | some opcode => .ok (machine.execute opcode)
  | none => .error ⟨machine.fetched.toNat, machine.pc.toNat⟩

/-- Executes one instruction. A machine that has stopped stays as it is. -/
def step (machine : Machine) : Except Fault (Machine × String) :=
  if machine.halted then .ok (machine, "") else machine.executeFetched

/-- The registers, the flag and all cells, as numbers below 256. -/
def toBytes (machine : Machine) : List UInt8 :=
  machine.pc :: machine.acc :: (if machine.halted then 1 else 0) :: machine.memory.toList

end Machine

end Octet
