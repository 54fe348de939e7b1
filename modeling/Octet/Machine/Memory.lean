/-
This file is the memory of the machine: 256 cells of one byte. Every number is
the address of a cell, because addresses count modulo 256, and so are blocks
and strings that reach past the last cell. A string is a length byte followed
by that many bytes of text.
-/

import Octet.Opcode
import Octet.Text.Utf8

namespace Octet

/-! ### Cells -/

/-- 256 cells of one byte. -/
structure Memory where
  cells : Vector UInt8 memorySize
deriving DecidableEq

/-- Something that takes more bytes than there are cells. -/
structure TooLarge where
  size : Nat
deriving DecidableEq, Repr

namespace Memory

/-- The byte in a cell. -/
def get (memory : Memory) (cell : UInt8) : UInt8 :=
  have inside : cell.toNat < memorySize := cell.toNat_lt
  memory.cells[cell.toNat]

/-- The memory with another byte in one cell. -/
def set (memory : Memory) (cell byte : UInt8) : Memory :=
  ⟨memory.cells.set cell.toNat byte cell.toNat_lt⟩

/-- Memory of zeros. -/
def zero : Memory :=
  ⟨Vector.replicate memorySize 0⟩

/-- A cell holds what was last put into it. -/
@[simp]
theorem get_set_self (memory : Memory) (cell byte : UInt8) :
    (memory.set cell byte).get cell = byte := by
  simp [get, set]

/-- Putting a byte into a cell changes no other cell. -/
theorem get_set_other (memory : Memory) {cell other : UInt8} (byte : UInt8)
    (different : cell ≠ other) : (memory.set cell byte).get other = memory.get other := by
  have apart : cell.toNat ≠ other.toNat := fun same => different (UInt8.toNat_inj.mp same)
  simp only [get, set]
  exact Vector.getElem_set_ne _ _ apart

@[simp]
theorem get_zero (cell : UInt8) : zero.get cell = 0 := by
  simp [get, zero]

/-- The bytes of all cells in order. -/
def toList (memory : Memory) : List UInt8 :=
  memory.cells.toList

/-! ### Addresses of any size -/

/-- The byte at an address. -/
def read (memory : Memory) (address : Int) : UInt8 :=
  memory.get (.ofInt address)

/-- The memory with another byte at an address; of the value the lowest eight bits count. -/
def write (memory : Memory) (address value : Int) : Memory :=
  memory.set (.ofInt address) (.ofInt value)

/-- The bytes from an address on, around the end if need be. -/
def block (memory : Memory) (address : Int) (length : Nat) : List UInt8 :=
  (List.range length).map fun (index : Nat) => memory.read (address + index)

/-- The memory with some bytes written from an address on. -/
def load (memory : Memory) : (data : List UInt8) → (address : Int) → Memory
  | [], _ => memory
  | byte :: rest, address => load (memory.set (.ofInt address) byte) rest (address + 1)

/-- Memory that begins with some bytes and holds zeros behind them. -/
def ofProgram (program : List UInt8) : Except TooLarge Memory :=
  if program.length ≤ memorySize then .ok (zero.load program 0) else .error ⟨program.length⟩

/-! ### Strings -/

/-- The text at an address: the byte there is its length. Bytes that are no text are replaced. -/
def textAt (memory : Memory) (address : Int) : String :=
  Utf8.decodeLossy (memory.block (address + 1) (memory.read address).toNat)

end Memory

end Octet
