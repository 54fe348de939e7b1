/-
This file is the instruction set: eighteen instructions, each one opcode byte
followed by one byte per operand. An operand is an immediate value, a memory
cell or a jump target, and only memory cells may stand in brackets. What an
instruction is called, how it is encoded and which operands it takes is said
here once; encoding, decoding and execution all look it up.
-/

namespace Octet

/-! ### Addresses -/

/-- The number of cells that an address of one byte can tell apart. -/
abbrev memorySize : Nat := 256

/-! ### Operands -/

/-- What an operand byte means to the instruction that carries it. -/
inductive Meaning where
  /-- A number to be used as it is. -/
  | immediate
  /-- A memory cell to be read or written. -/
  | cell
  /-- An address to go on from. -/
  | target
deriving DecidableEq, Repr

/-- The meaning in words. -/
def Meaning.text : Meaning → String
  | immediate => "immediate value"
  | cell => "memory address"
  | target => "jump target"

/-- The roles that an operand can play. -/
inductive Operand where
  | source
  | destination
  | value
  | target
deriving DecidableEq, Repr

namespace Operand

/-- The short name of the role. -/
def name : Operand → String
  | source => "src"
  | destination => "dst"
  | value => "value"
  | target => "target"

/-- What the operand's byte means. -/
def meaning : Operand → Meaning
  | source => .cell
  | destination => .cell
  | value => .immediate
  | target => .target

end Operand

/-! ### Instructions -/

/-- The instructions, in the order of their encoding. -/
inductive Opcode where
  | nop
  | ld
  | ldi
  | st
  | sti
  | mov
  | jmp
  | jz
  | add
  | addi
  | sub
  | subi
  | shr
  | shl
  | and
  | andi
  | print
  | stop
deriving DecidableEq, Repr

namespace Opcode

/-- Every instruction, in the order of the encoding. -/
def all : List Opcode :=
  [nop, ld, ldi, st, sti, mov, jmp, jz, add, addi, sub, subi, shr, shl, and, andi, print, stop]

/-- The byte that encodes the instruction. -/
def byte : Opcode → UInt8
  | nop => 0x00
  | ld => 0x10
  | ldi => 0x11
  | st => 0x12
  | sti => 0x13
  | mov => 0x14
  | jmp => 0x20
  | jz => 0x21
  | add => 0x30
  | addi => 0x31
  | sub => 0x32
  | subi => 0x33
  | shr => 0x34
  | shl => 0x35
  | and => 0x36
  | andi => 0x37
  | print => 0x40
  | stop => 0x50

/-- The word that a program writes for the instruction. -/
def mnemonic : Opcode → String
  | nop => "nop"
  | ld => "ld"
  | ldi => "ldi"
  | st => "st"
  | sti => "sti"
  | mov => "mov"
  | jmp => "jmp"
  | jz => "jz"
  | add => "add"
  | addi => "addi"
  | sub => "sub"
  | subi => "subi"
  | shr => "shr"
  | shl => "shl"
  | and => "and"
  | andi => "andi"
  | print => "print"
  | stop => "stop"

/-- The operands that the instruction takes, in the order of their bytes. -/
def operands : Opcode → List Operand
  | nop | shr | shl | stop => []
  | ld | add | sub | and | print => [.source]
  | ldi | addi | subi | andi => [.value]
  | st => [.destination]
  | sti => [.value, .destination]
  | mov => [.source, .destination]
  | jmp | jz => [.target]

/-- The number of bytes that encode the instruction with its operands. -/
def size (opcode : Opcode) : Nat :=
  1 + opcode.operands.length

/-- Whether the instruction may send execution elsewhere. -/
def isJump (opcode : Opcode) : Bool :=
  opcode = jmp || opcode = jz

/-- The instruction that a number encodes. Numbers that are no byte encode none. -/
def ofNumber? (number : Int) : Option Opcode :=
  all.find? fun opcode => (opcode.byte.toNat : Int) == number

/-- The instruction that a byte encodes. -/
def ofByte? (byte : UInt8) : Option Opcode :=
  all.find? (·.byte == byte)

/-- The instruction that a word names. -/
def ofMnemonic? (word : String) : Option Opcode :=
  all.find? (·.mnemonic == word)

/-- No instruction takes up more than three bytes. -/
theorem size_le (opcode : Opcode) : opcode.size ≤ 3 := by
  cases opcode <;> decide

/-! ### Bytes and words name instructions uniquely -/

theorem mem_all (opcode : Opcode) : opcode ∈ all := by
  cases opcode <;> decide

/-- A byte that encodes an instruction is found again. -/
@[simp]
theorem ofByte?_byte (opcode : Opcode) : ofByte? opcode.byte = some opcode := by
  cases opcode <;> decide

/-- The instruction found for a byte is encoded by that byte. -/
theorem byte_of_ofByte? {byte : UInt8} {opcode : Opcode} (found : ofByte? byte = some opcode) :
    opcode.byte = byte := by
  simpa using List.find?_some found

/-- A word that names an instruction is found again. -/
@[simp]
theorem ofMnemonic?_mnemonic (opcode : Opcode) : ofMnemonic? opcode.mnemonic = some opcode := by
  cases opcode <;> decide

/-- The instruction found for a word is named by that word. -/
theorem mnemonic_of_ofMnemonic? {word : String} {opcode : Opcode}
    (found : ofMnemonic? word = some opcode) : opcode.mnemonic = word := by
  simpa using List.find?_some found

end Opcode

end Octet
