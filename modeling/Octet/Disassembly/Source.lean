/-
This file turns machine code back into a program that assembles to it. Bytes
that make no instruction are laid down one by one. When labels are wanted,
every address that has a name or that is jumped to gets one, provided that
something begins there; a made-up name gives way to the names there are.
-/

import Octet.Disassembly.Listing

namespace Octet

/-! ### Labels -/

/-- Names for an address, in the order in which they are tried: the plain one, and as many
numbered ones as there are names to stay clear of. -/
def labelCandidates (address : UInt8) (taken : Nat) : List String :=
  let plain := "L" ++ Text.hexByte address
  plain :: (List.range taken).map fun count => plain ++ "n" ++ toString (count + 1)

/-- The first name for an address that is still free. -/
def freeLabel (address : UInt8) (taken : List String) : String :=
  ((labelCandidates address taken.length).find? (!taken.contains ·)).getD ""

/-- The address that a complete jump leads to. -/
def Decoded.target? (decoded : Decoded) : Option UInt8 :=
  match decoded.opcode? with
  | some opcode => if opcode.isJump then decoded.operandBytes.head? else none
  | none => none

/-- Names the target of a jump, if something begins there and it has no name yet. -/
def nameTarget (starts : List Int) (labels : AddressNames) (target : UInt8) : AddressNames :=
  if starts.contains target.toNat && (labels.find? target.toNat).isNone then
    labels.insert target.toNat (freeLabel target (labels.map Prod.snd))
  else labels

/-- The labels of some decoded bytes: the given names where something begins, and made-up names
for the other jump targets where something does. -/
def chooseLabels (names : AddressNames) (decoded : List Decoded) : AddressNames :=
  let starts := decoded.map Decoded.address
  (decoded.filterMap Decoded.target?).foldl (nameTarget starts)
    (names.filter fun (address, _) => starts.contains address)

/-! ### Statements -/

/-- The lines for some decoded bytes. Where labels are wanted, a label stands in front. -/
def Decoded.statements (names : AddressNames) (labels : AddressNames) (decoded : Decoded) :
    List String :=
  let labelLine :=
    match labels.find? decoded.address with
    | some label => ["." ++ label ++ ":"]
    | none => []
  let statementLines :=
    match decoded.opcode? with
    | none => decoded.bytes.map fun byte => "    .byte " ++ Text.dollarHex byte.toNat
    | some opcode =>
      let (operands, comment) := describeOperands names labels opcode decoded.operandBytes
      let statement := joined opcode.mnemonic operands
      ["    " ++ (if comment.isEmpty then statement
        else Text.padRight 16 statement ++ " ; " ++ comment)]
  labelLine ++ statementLines

/-- A program that assembles to the data, with labels if they are wanted. -/
def sourceText (names : AddressNames) (data : List UInt8) (withLabels : Bool) : String :=
  let decoded := decodeAll 0 data
  let labels := if withLabels then chooseLabels names decoded else []
  "\n".intercalate (decoded.flatMap (Decoded.statements names labels)) ++ "\n"

end Octet
