/-
This file holds what a line of a program says: a label is defined, a byte is
laid down, or an instruction stands there with one argument for each of its
operands. Statements remember where their names and literals were read and
which arguments were bracketed, and two of them say the same when they differ
in that alone. The text of a statement is its canonical spelling.
-/

import Octet.Opcode
import Octet.Source.Span
import Octet.Text.Hex

namespace Octet

/-! ### Arguments -/

/-- What is written for an operand: a number, or a label that stands for an address. -/
inductive Content where
  | value (number : Int)
  | label (name : String)
deriving DecidableEq, Repr

/-- What is written for an operand, where, and whether in brackets. -/
structure Arg where
  content : Content
  span : Option Span
  bracketed : Bool
deriving DecidableEq

/-- The spelling of a content. -/
def Content.text : Content → String
  | .value number => Text.dollarHex number
  | .label name => name

/-- The spelling of an argument. -/
def Arg.text (arg : Arg) : String :=
  if arg.bracketed then "[" ++ arg.content.text ++ "]" else arg.content.text

/-- The argument without its place and its brackets. -/
def Arg.bare (arg : Arg) : Arg :=
  ⟨arg.content, none, false⟩

/-! ### Instructions -/

/-- An instruction with one argument for each of its operands. -/
structure Instruction where
  opcode : Opcode
  args : List Arg
  complete : args.length = opcode.operands.length
deriving DecidableEq

/-- What cannot be had of an instruction. -/
inductive InstructionError where
  /-- The instruction with some other number of arguments than it has operands. -/
  | argumentCount (opcode : Opcode) (given : Nat)
  /-- An operand with a name that none of its operands has. -/
  | noOperand (opcode : Opcode) (name : String)
deriving DecidableEq, Repr

/-- The complaint in words. -/
def InstructionError.message : InstructionError → String
  | argumentCount opcode given =>
    "'" ++ opcode.mnemonic ++ "' takes " ++ toString opcode.operands.length ++
      " operand(s), got " ++ toString given
  | noOperand opcode name =>
    "'" ++ opcode.mnemonic ++ "' has no operand named '" ++ name ++ "'"

namespace Instruction

/-- The instruction with the given arguments, if their number is right. -/
def ofArgs (opcode : Opcode) (args : List Arg) : Except InstructionError Instruction :=
  if complete : args.length = opcode.operands.length then .ok ⟨opcode, args, complete⟩
  else .error (.argumentCount opcode args.length)

/-- The operands with their arguments, in the order of the encoding. -/
def slots (instruction : Instruction) : List (Operand × Arg) :=
  instruction.opcode.operands.zip instruction.args

/-- The argument of the operand with the given name. -/
def argNamed (instruction : Instruction) (name : String) : Except InstructionError Arg :=
  match instruction.slots.find? (·.1.name == name) with
  | some (_, arg) => .ok arg
  | none => .error (.noOperand instruction.opcode name)

/-- The spelling of an instruction: the mnemonic and its arguments with single blanks between. -/
def text (instruction : Instruction) : String :=
  " ".intercalate (instruction.opcode.mnemonic :: instruction.args.map Arg.text)

/-- The instruction without places and brackets. -/
def bare (instruction : Instruction) : Instruction :=
  ⟨instruction.opcode, instruction.args.map Arg.bare, by
    rw [List.length_map]; exact instruction.complete⟩

end Instruction

/-! ### Statements -/

/-- What a line of a program says. -/
inductive Statement where
  | label (name : String) (span : Option Span)
  | byte (value : Int)
  | instruction (held : Instruction)
deriving DecidableEq

namespace Statement

/-- The number of bytes that the statement lays down. -/
def size : Statement → Nat
  | .label _ _ => 0
  | .byte _ => 1
  | .instruction held => held.opcode.size

/-- The canonical spelling. -/
def text : Statement → String
  | .label name _ => "." ++ name ++ ":"
  | .byte value => ".byte " ++ Text.dollarHex value
  | .instruction held => held.text

/-- The statement without places and brackets. -/
def bare : Statement → Statement
  | .label name _ => .label name none
  | .byte value => .byte value
  | .instruction held => .instruction held.bare

/-- Whether two lines say the same: either nothing, or statements that differ in places and
brackets at most. -/
def agree (first second : Option Statement) : Bool :=
  first.map bare = second.map bare

end Statement

end Octet
