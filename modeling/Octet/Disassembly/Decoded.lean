/-
This file decodes machine code. Every byte stream can be decoded: a byte that
is no opcode stands for itself, and an instruction that the data cuts short is
shown as incomplete. Decoding a whole stream covers every byte once and in
order.
-/

import Octet.Disassembly.AddressNames
import Octet.Opcode
import Octet.Text.Hex

namespace Octet

/-! ### One instruction -/

/-- What the bytes at an address were found to be. -/
inductive Reading where
  /-- A byte that is no opcode. -/
  | unknown
  /-- An instruction that the data cuts short. -/
  | incomplete (opcode : Opcode)
  | instruction (opcode : Opcode)
deriving DecidableEq, Repr

/-- Decoded bytes: their address, the first of them, what they are, and all of them. -/
structure Decoded where
  address : Int
  first : UInt8
  reading : Reading
  bytes : List UInt8
deriving DecidableEq, Repr

namespace Decoded

/-- Decodes what begins with a byte. `whole` gives the bytes of an instruction of some size, if
the data has them, and `tail` all there are. -/
def decode (address : Int) (first : UInt8) (whole : Nat → Option (List UInt8))
    (tail : List UInt8) : Decoded :=
  match Opcode.ofByte? first with
  | none => ⟨address, first, .unknown, [first]⟩
  | some opcode =>
    match whole opcode.size with
    | some bytes => ⟨address, first, .instruction opcode, bytes⟩
    | none => ⟨address, first, .incomplete opcode, tail⟩

/-- Decodes the beginning of some bytes. -/
def ofBytes (address : Int) (first : UInt8) (rest : List UInt8) : Decoded :=
  decode address first
    (fun size =>
      let bytes := (first :: rest).take size
      if bytes.length = size then some bytes else none)
    (first :: rest)

/-- The number of bytes to go on by. -/
def size (decoded : Decoded) : Nat :=
  match decoded.reading with
  | .unknown => 1
  | .incomplete _ => decoded.bytes.length
  | .instruction opcode => opcode.size

/-- The operand bytes of an instruction. -/
def operandBytes (decoded : Decoded) : List UInt8 :=
  match decoded.reading with
  | .instruction _ => decoded.bytes.drop 1
  | _ => []

/-- The instruction that is there from its first byte to its last. -/
def opcode? (decoded : Decoded) : Option Opcode :=
  match decoded.reading with
  | .instruction opcode => if decoded.bytes.length < opcode.size then none else some opcode
  | _ => none

/-- Whether the bytes are data and no complete instruction. -/
def isData (decoded : Decoded) : Bool :=
  decoded.opcode?.isNone

end Decoded

/-! ### Places in the data -/

/-- A place that is not within the data. -/
inductive BadOffset where
  | behind (offset : Int) (length : Nat)
  | before
deriving DecidableEq, Repr

/-- The complaint about a place that is not within the data. -/
def BadOffset.message : BadOffset → String
  | behind offset length =>
    "Offset " ++ toString offset ++ " beyond data length " ++ toString length
  | before => "index out of range"

/-- How many bytes lie before a place; a negative place counts from the end. -/
def bytesBefore (length : Nat) (place : Int) : Nat :=
  if place < 0 then (length + place).toNat else min place.toNat length

/-- The bytes between two places; there are none if the second lies before the first. -/
def bytesBetween (data : List UInt8) (start stop : Int) : List UInt8 :=
  (data.take (bytesBefore data.length stop)).drop (bytesBefore data.length start)

/-- Decodes the bytes at a place in the data. An instruction ends where its first byte and its
size say, so one that begins before the end and ends at or behind place zero has no bytes. -/
def Decoded.atOffset (data : List UInt8) (address offset : Int) : Except BadOffset Decoded :=
  if (data.length : Int) ≤ offset then .error (.behind offset data.length)
  else if offset < -(data.length : Int) then .error .before
  else
    match data.drop (bytesBefore data.length offset) with
    | [] => .error .before
    | first :: rest =>
      .ok (Decoded.decode address first
        (fun size =>
          if (data.length : Int) < offset + size then none
          else some (bytesBetween data offset (offset + size)))
        (first :: rest))

/-! ### All instructions -/

/-- Decodes all bytes, the first of which has the given address. -/
def decodeAll (address : Int) : List UInt8 → List Decoded
  | [] => []
  | first :: rest =>
    let decoded := Decoded.ofBytes address first rest
    decoded :: decodeAll (address + decoded.size) (rest.drop (decoded.size - 1))
termination_by data => data.length
decreasing_by simp only [List.length_drop, List.length_cons]; omega

/-- The instructions that begin before `maxBytes` bytes have been passed, at most `count`. -/
def decodeUpTo (data : List UInt8) (start : Int) (count maxBytes : Option Int) : List Decoded :=
  let all := decodeAll start data
  let near :=
    match maxBytes with
    | some limit => all.takeWhile fun decoded => decoded.address - start < limit
    | none => all
  match count with
  | some limit => near.take limit.toNat
  | none => near

end Octet
