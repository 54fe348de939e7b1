/-
This file reads the tokens of one line as a statement. A line is empty, or a
dot and a name followed by a colon or by the operand of a directive, or an
instruction followed by as many arguments as it has operands. The first token
that cannot go on is reported; a line that ends too early is reported at the
byte behind its last token.
-/

import Octet.Assembly.Lexeme
import Octet.Assembly.Statement
import Octet.Diagnostic.Basic

namespace Octet

/-! ### What is left of a line -/

/-- The tokens that are left of a line, and where the last one before them ended. -/
structure Cursor where
  past : Nat
  tokens : List (Located Token)

namespace Cursor

/-- Takes the next token, which must be one that `select` picks something from. -/
def expect {Picked : Type} (cursor : Cursor) (select : Token → Option Picked)
    (expected : Expected) : Except Diagnostic (Located Picked × Cursor) :=
  match cursor.tokens with
  | [] => .error (.atSpan (Span.behind cursor.past) (.unexpectedEnd expected))
  | token :: rest =>
    match select token.value with
    | some picked => .ok (⟨picked, token.span⟩, ⟨token.span.hi, rest⟩)
    | none => .error (.atSpan token.span (.unexpectedToken token.value expected))

/-- Makes sure that nothing is left. -/
def finish (cursor : Cursor) (afterLabel : Bool) : Except Diagnostic Unit :=
  match cursor.tokens with
  | [] => .ok ()
  | token :: _ => .error (.atSpan token.span (.trailingToken token.value afterLabel))

end Cursor

/-! ### Arguments -/

/-- The content that a token stands for. -/
def Token.content? : Token → Option Content
  | literal value => some (.value value)
  | identifier name => some (.label name)
  | _ => none

/-- Whether a token closes a bracket. -/
def Token.closing? : Token → Option Unit
  | bracketClose => some ()
  | _ => none

/-- Reads the argument for an operand. Only a memory cell may stand in brackets. -/
def readArg (opcode : Opcode) (operand : Operand) (cursor : Cursor) :
    Except Diagnostic (Arg × Cursor) :=
  match cursor.tokens with
  | ⟨.bracketOpen, span⟩ :: rest =>
    if operand.meaning = .cell then do
      let (content, inside) ← Cursor.expect ⟨span.hi, rest⟩ Token.content? .literalOrIdent
      let (_, behind) ← inside.expect Token.closing? .closingBracket
      .ok (⟨content.value, some content.span, true⟩, behind)
    else .error (.atSpan span (.bracketsNotAllowed opcode operand))
  | _ => do
    let (content, behind) ← cursor.expect Token.content? .literalOrIdent
    .ok (⟨content.value, some content.span, false⟩, behind)

/-- Reads one argument for each operand. -/
def readArgs (opcode : Opcode) : (operands : List Operand) → Cursor →
    Except Diagnostic ({ args : List Arg // args.length = operands.length } × Cursor)
  | [], cursor => .ok (⟨[], rfl⟩, cursor)
  | operand :: operands, cursor => do
    let (arg, behind) ← readArg opcode operand cursor
    let (⟨args, complete⟩, afterwards) ← readArgs opcode operands behind
    .ok (⟨arg :: args, congrArg (· + 1) complete⟩, afterwards)

/-! ### Statements -/

/-- Reads what follows a dot: a label, or the one directive there is. -/
def readDotted (cursor : Cursor) : Except Diagnostic Statement := do
  let (name, behind) ← cursor.expect Token.identifier? .ident
  match behind.tokens with
  | ⟨.colon, span⟩ :: rest =>
    Cursor.finish ⟨span.hi, rest⟩ true
    .ok (.label name.value (some name.span))
  | _ =>
    if name.value = "byte" then
      let (value, afterwards) ← behind.expect Token.literal? .literal
      afterwards.finish false
      .ok (.byte value.value)
    else .error (.atSpan name.span (.unknownDirective name.value))

/-- Reads what follows the first word of a line: the arguments of an instruction. -/
def readInstruction (word : String) (span : Span) (rest : List (Located Token)) :
    Except Diagnostic Statement :=
  match Opcode.ofMnemonic? word with
  | none => .error (.atSpan span (.unknownInstruction word))
  | some opcode => do
    let (⟨args, complete⟩, behind) ← readArgs opcode opcode.operands ⟨span.hi, rest⟩
    behind.finish false
    .ok (.instruction ⟨opcode, args, complete⟩)

/-- The statement that the tokens of a line make; none if there are no tokens. -/
def Statement.ofTokens : List (Located Token) → Except Diagnostic (Option Statement)
  | [] => .ok none
  | ⟨.dot, span⟩ :: rest => some <$> readDotted ⟨span.hi, rest⟩
  | ⟨.identifier word, span⟩ :: rest => some <$> readInstruction word span rest
  | ⟨found, span⟩ :: _ => .error (.atSpan span (.unexpectedAtStart found))

/-- The statement that a line of source makes; none if it holds nothing but blanks and a
comment. -/
def Statement.ofLine (line : String) : Except Diagnostic (Option Statement) :=
  tokensOfLine line >>= Statement.ofTokens

end Octet
