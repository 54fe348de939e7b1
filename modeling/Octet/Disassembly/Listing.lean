/-
This file shows decoded bytes the way a program would be written: the mnemonic
and its operands, memory cells in brackets, and a comment that names what is
known about the operands. A value that is a printable character is shown as
that character, and an address that has a name is shown with its name.
-/

import Octet.Disassembly.Decoded

namespace Octet

/-! ### Operands -/

/-- An operand and the comment on it. An operand that may point somewhere is written as a label
if `labels` has one for it; otherwise its name in `names` becomes the comment. -/
def describeOperand (names labels : AddressNames) (operand : Operand) (byte : UInt8) :
    String × Option String :=
  let number := Text.dollarHex byte.toNat
  let (text, comment) :=
    match operand.meaning with
    | .immediate =>
      (number,
        if Text.isGraphic byte then some ("'" ++ String.singleton (Char.ofNat byte.toNat) ++ "'")
        else none)
    | _ =>
      match labels.find? byte.toNat with
      | some label => (label, none)
      | none => (number, names.find? byte.toNat)
  (if operand.meaning = .cell then "[" ++ text ++ "]" else text, comment)

/-- The operands of an instruction and the comment on them. -/
def describeOperands (names labels : AddressNames) (opcode : Opcode) (bytes : List UInt8) :
    String × String :=
  let described := (opcode.operands.zip bytes).map fun (operand, byte) =>
    describeOperand names labels operand byte
  (" ".intercalate (described.map Prod.fst), ", ".intercalate (described.filterMap Prod.snd))

/-- A word and what follows it, with a blank between them if something does. -/
def joined (word operands : String) : String :=
  if operands.isEmpty then word else word ++ " " ++ operands

/-! ### Rows -/

namespace Decoded

/-- The word that begins the statement. -/
def mnemonic (decoded : Decoded) : String :=
  match decoded.reading with
  | .unknown => ".byte"
  | .incomplete opcode => opcode.mnemonic
  | .instruction opcode => opcode.mnemonic

/-- The operands as numbers. -/
def operandText (decoded : Decoded) : String :=
  match decoded.reading with
  | .unknown => Text.dollarHex decoded.first.toNat
  | .incomplete _ => "???"
  | .instruction opcode => (describeOperands [] [] opcode decoded.operandBytes).1

/-- What is known about the bytes, given names for addresses. -/
def comment (names : AddressNames) (decoded : Decoded) : String :=
  match decoded.reading with
  | .unknown => "unknown opcode"
  | .incomplete _ => "incomplete instruction"
  | .instruction opcode => (describeOperands names [] opcode decoded.operandBytes).2

/-- The statement without its address. -/
def statementText (decoded : Decoded) : String :=
  joined decoded.mnemonic decoded.operandText

/-- The row of a listing: address, bytes, statement and comment. -/
def text (names : AddressNames) (decoded : Decoded) : String :=
  let comment := decoded.comment names
  let bytes := Text.padRight 8 (Text.hexRow decoded.bytes)
  let head := Text.dollarHex decoded.address ++ ": " ++ bytes ++ "  "
  if comment.isEmpty then head ++ decoded.statementText
  else head ++ Text.padRight 16 decoded.statementText ++ " ; " ++ comment

/-- The row of a listing without the bytes. -/
def shortText (names : AddressNames) (decoded : Decoded) : String :=
  let comment := decoded.comment names
  Text.dollarHex decoded.address ++ ": " ++ decoded.statementText ++
    (if comment.isEmpty then "" else "  ; " ++ comment)

end Decoded

/-- The rows of some decoded bytes. -/
def listingText (names : AddressNames) (decoded : List Decoded) : String :=
  "\n".intercalate (decoded.map (Decoded.text names))

end Octet
