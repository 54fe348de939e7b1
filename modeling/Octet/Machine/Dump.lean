/-
This file shows memory in rows: the address of the row, its bytes in
hexadecimal, and the same bytes as characters, with a dot for each that is not
printable. Rows may begin anywhere and go around the end of the memory; the
last one may be short.
-/

import Octet.Machine.Memory
import Octet.Text.Hex

namespace Octet

/-- A dump that cannot be laid out. -/
inductive DumpError where
  /-- Rows without a single byte. -/
  | noWidth
  /-- Rows of less than no bytes. -/
  | negativeWidth
deriving DecidableEq, Repr

/-- The complaint about a dump that cannot be laid out. -/
def DumpError.message : DumpError → String
  | noWidth => "range() arg 3 must not be zero"
  | negativeWidth => "Sign not allowed in string format specifier"

/-- A byte as a character. -/
def shownByte (byte : UInt8) : Char :=
  if Text.isGraphic byte then Char.ofNat byte.toNat else '.'

namespace Memory

/-- One row of at most `width` bytes, of which `length` are shown. -/
def dumpRow (memory : Memory) (width : Nat) (start : Int) (length : Nat) : String :=
  let bytes := memory.block start length
  Text.dollarHex (UInt8.ofInt start).toNat ++ ": " ++
    Text.padRight (width * 3 - 1) (Text.hexRow bytes) ++ "  " ++ String.ofList (bytes.map shownByte)

/-- The rows that show `length` bytes from `start` on, `width` in each row but the last. -/
def dumpRows (memory : Memory) (width : Nat) (start : Int) (length : Nat) : List String :=
  (List.range ((length + width - 1) / width)).map fun (row : Nat) =>
    memory.dumpRow width (start + row * width) (min width (length - row * width))

/-- Shows memory. Without a length everything up to the last cell is shown. -/
def dump (memory : Memory) (start : Int) (length : Option Int) (width : Int) :
    Except DumpError String :=
  let length := length.getD (memorySize - start)
  if width = 0 then .error .noWidth
  else if 0 < width then .ok ("\n".intercalate (memory.dumpRows width.toNat start length.toNat))
  else if length < 0 then .error .negativeWidth
  else .ok ""

/-- Shows the whole memory, sixteen bytes in a row. -/
def fullDump (memory : Memory) : String :=
  "\n".intercalate (memory.dumpRows 16 0 memorySize)

end Memory

end Octet
