/-
This file lists everything that can be wrong with a program, and says it in
words. A cause carries what it is about, a token, a name or an address, and
its message and notes are computed from that. So two programs with the same
mistake get the same report, and a report can be judged by its cause.
-/

import Octet.Assembly.Token
import Octet.Opcode
import Octet.Text.Spelling

namespace Octet

/-- What a line may go on with where it does not. -/
inductive Expected where
  | ident
  | literal
  | literalOrIdent
  | closingBracket
deriving DecidableEq, Repr

/-- The expectation in words. -/
def Expected.text : Expected → String
  | ident => "ident"
  | literal => "literal"
  | literalOrIdent => "literal or ident"
  | closingBracket => "']'"

/-- What is wrong with a program. -/
inductive Cause where
  /-- A character that begins no token. -/
  | invalidStart
  /-- A dollar sign without a digit. -/
  | emptyLiteral
  /-- A literal above 255. -/
  | literalOverflow
  /-- A line that begins with neither a dot nor a name. -/
  | unexpectedAtStart (found : Token)
  /-- A line that ends too early. -/
  | unexpectedEnd (expected : Expected)
  /-- A token in the place of another. -/
  | unexpectedToken (found : Token) (expected : Expected)
  /-- A token behind a complete statement. -/
  | trailingToken (found : Token) (afterLabel : Bool)
  /-- A dot and a name that is no directive and has no colon behind it. -/
  | unknownDirective (name : String)
  /-- A name that is no instruction. -/
  | unknownInstruction (word : String)
  /-- A bracket around an operand that is no memory cell. -/
  | bracketsNotAllowed (opcode : Opcode) (operand : Operand)
  /-- A label that has been defined before, on the given line. -/
  | duplicateLabel (name : String) (firstLine : Option Int)
  /-- A label that is defined nowhere, and those it resembles. -/
  | undefinedLabel (name : String) (similar : List String)
  /-- A label bound to an address that no byte can hold. -/
  | outsideMemory (name : String) (address : Nat)
  /-- A program that is longer than the memory. -/
  | programTooLarge (size : Nat)
  /-- A mistake in the words of whoever found it. -/
  | stated (message : String) (notes : List String)
deriving DecidableEq, Repr

/-- The kinds of mistakes that whoever receives a report can tell apart. -/
inductive Kind where
  /-- A line that cannot be read. -/
  | unreadable
  /-- A label that is defined nowhere. -/
  | undefinedLabel
  /-- A label that is defined more than once. -/
  | duplicateLabel
  /-- Anything else. -/
  | other
deriving DecidableEq, Repr

namespace Cause

/-- The kind of a mistake. -/
def kind : Cause → Kind
  | invalidStart | emptyLiteral | literalOverflow | unexpectedAtStart _ | unexpectedEnd _
  | unexpectedToken _ _ | trailingToken _ _ | unknownDirective _ | unknownInstruction _
  | bracketsNotAllowed _ _ => .unreadable
  | duplicateLabel _ _ => .duplicateLabel
  | undefinedLabel _ _ => .undefinedLabel
  | outsideMemory _ _ | programTooLarge _ | stated _ _ => .other

/-- The complaint about something too large for the memory. -/
def sizeMessage (size limit : Int) : String :=
  "program is " ++ toString size ++ " bytes, but memory holds only " ++ toString limit

/-- The mistake in one sentence. -/
def message : Cause → String
  | invalidStart => "invalid token start character"
  | emptyLiteral => "empty literal"
  | literalOverflow => "this literal's value overflows a byte"
  | unexpectedAtStart found => "unexpected '" ++ found.text ++ "' token at start of line"
  | unexpectedEnd expected => "unexpected end of line, expected " ++ expected.text
  | unexpectedToken found expected =>
    "unexpected '" ++ found.text ++ "' token, expected " ++ expected.text
  | trailingToken found afterLabel =>
    "unexpected token '" ++ found.text ++ "', expected end of line" ++
      (if afterLabel then " after label" else "")
  | unknownDirective name => "invalid directive name '" ++ name ++ "'"
  | unknownInstruction word => "unknown instruction '" ++ word ++ "'"
  | bracketsNotAllowed _ _ => "brackets are not allowed on this operand"
  | duplicateLabel name _ => "label '" ++ name ++ "' is defined multiple times"
  | undefinedLabel name _ => "undefined label '" ++ name ++ "'"
  | outsideMemory name _ => "label '" ++ name ++ "' is outside memory"
  | programTooLarge size => sizeMessage size memorySize
  | stated message _ => message

/-- A note about names that could have been meant, unless there are none. -/
def suggestionNotes (names : List String) : List String :=
  if names.isEmpty then [] else [Text.didYouMean names]

/-- What helps to mend the mistake. -/
def notes : Cause → List String
  | emptyLiteral => ["expected hexadecimal digits after '$'"]
  | literalOverflow =>
    ["only values between 0 and 255 (`$FF`) are allowed",
      "numbers are specified in hexadecimal"]
  | unexpectedAtStart _ => ["expected ident or '.'"]
  | unknownDirective _ => ["known directives: .byte"]
  | unknownInstruction word =>
    suggestionNotes (Text.suggestions word (Opcode.all.map Opcode.mnemonic) 3)
  | bracketsNotAllowed opcode operand =>
    ["the " ++ operand.name ++ " operand of '" ++ opcode.mnemonic ++
      "' is not a memory address (" ++ operand.meaning.text ++ ")"]
  | duplicateLabel _ (some line) => ["first defined on line " ++ toString (line + 1)]
  | undefinedLabel _ similar => suggestionNotes (similar.take 3)
  | outsideMemory _ address =>
    ["it is bound to " ++ Text.dollarHex address ++ ", past the last address $FF"]
  | stated _ notes => notes
  | _ => []

end Cause

end Octet
