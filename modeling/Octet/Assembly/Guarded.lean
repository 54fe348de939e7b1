/-
This file assembles a source without taking anything for granted. Reading and
encoding rely on facts that nothing checks while they work: that an index lies
within a list, that a table has a key, that the bounds of a span are in order,
that an instruction is given one argument for each operand, that there are
digits to make a number of, that code never reaches beyond the place that it is
filled up to, and that what the source is made of has bytes.

Here each of these operations is partial. It breaks down on what it cannot work
on, and so does everything that uses it. A line is scanned and read by an index
into its code points and its tokens, tables are looked up key by key, and a
mistake is put into words as soon as it is found. A mistake of the source is
caught where mistakes are collected; a breakdown is caught nowhere.

A source is UTF-8 text where it comes out of a file. In memory, the type that
holds it lets surrogates stand among the characters, and these have no bytes to
be counted in. So a source is a list of code points here, and no longer a text.
-/

import Octet.Assembly.Session

namespace Octet.Guarded

/-! ### Operations that can break down -/

/-- Why an operation breaks down. -/
inductive Breakdown where
  /-- A list has no item at an index. -/
  | noItem (index : Int) (length : Nat)
  /-- A table has no entry for a key. -/
  | noEntry
  /-- Two bounds make no span. -/
  | noSpan (invalid : InvalidSpan)
  /-- Some arguments make no instruction. -/
  | noInstruction (error : InstructionError)
  /-- Some characters make no number. -/
  | noNumber (digits : List Char)
  /-- There is no list of so many zeros. -/
  | noZeros (count : Int)
  /-- A surrogate has no bytes. -/
  | noBytes (surrogate : Fin 0x800)
deriving DecidableEq, Repr

/-- Why work ends early: it finds a mistake in the source, or an operation breaks down. -/
inductive Failure where
  | mistake (diagnostic : Diagnostic)
  | breakdown (reason : Breakdown)
deriving DecidableEq

/-- Work on a source, which may end early. -/
abbrev Work := Except Failure

/-- Catches a mistake, but no breakdown. -/
def caught {Value : Type} : Work Value → Work (Except Diagnostic Value)
  | .ok value => .ok (.ok value)
  | .error (.mistake diagnostic) => .ok (.error diagnostic)
  | .error (.breakdown reason) => .error (.breakdown reason)

/-- The item of a list at an index. An index below zero counts from the end. -/
def itemAt {Item : Type} (items : List Item) (index : Int) : Work Item :=
  let place := if index < 0 then index + items.length else index
  match if place < 0 then none else items[place.toNat]? with
  | some found => .ok found
  | none => .error (.breakdown (.noItem index items.length))

/-- The entry of a table for a key. -/
def lookup {Key Value : Type} [BEq Key] (table : List (Key × Value)) (key : Key) : Work Value :=
  match table.lookup key with
  | some value => .ok value
  | none => .error (.breakdown .noEntry)

/-- The span with the given bounds. -/
def span (lo hi : Int) : Work Span :=
  (Span.ofBounds lo hi).mapError fun invalid => .breakdown (.noSpan invalid)

/-- The instruction with the given arguments. -/
def instruction (opcode : Opcode) (args : List Arg) : Work Instruction :=
  (Instruction.ofArgs opcode args).mapError fun error => .breakdown (.noInstruction error)

/-- The number that some characters make. -/
def number (digits : List Char) : Work Nat :=
  if digits ≠ [] ∧ digits.all isHexDigit then .ok (hexValue digits)
  else .error (.breakdown (.noNumber digits))

/-- So many zeros. -/
def zeros (count : Int) : Work (List UInt8) :=
  if 0 ≤ count then .ok (List.replicate count.toNat 0)
  else .error (.breakdown (.noZeros count))

/-! ### Code points -/

/-- A code point: a character, or one of the surrogates, counted from the first. -/
inductive Point where
  | character (c : Char)
  | surrogate (index : Fin 0x800)
deriving DecidableEq, Repr

/-- The code points of a text. -/
def points (text : String) : List Point :=
  text.toList.map .character

/-- Whether a code point is a character of some kind. A surrogate is of no kind: it is no blank, no
letter and no digit. -/
def Point.meets (accepts : Char → Bool) : Point → Bool
  | .character c => accepts c
  | .surrogate _ => false

/-- The character that has the bytes of a code point. -/
def Point.encodable : Point → Work Char
  | .character c => .ok c
  | .surrogate index => .error (.breakdown (.noBytes index))

/-- The characters that have the bytes of some code points. -/
def encodable (text : List Point) : Work (List Char) :=
  text.mapM Point.encodable

/-! ### Tables -/

/-- The tokens of single characters. -/
def delimiterTokens : List (Char × Token) :=
  [('.', .dot), (':', .colon), ('[', .bracketOpen), (']', .bracketClose)]

/-- The spellings of the tokens that are always spelled the same. -/
def delimiterTexts : List (Token × String) :=
  [(.dot, "."), (.colon, ":"), (.bracketOpen, "["), (.bracketClose, "]")]

/-- The meanings of operands in words. -/
def meaningTexts : List (Meaning × String) :=
  [(.immediate, "immediate value"), (.cell, "memory address"), (.target, "jump target")]

/-- The operands of all instructions. -/
def operandTable : List (Opcode × List Operand) :=
  [(.nop, []), (.ld, [.source]), (.ldi, [.value]), (.st, [.destination]),
    (.sti, [.value, .destination]), (.mov, [.source, .destination]), (.jmp, [.target]),
    (.jz, [.target]), (.add, [.source]), (.addi, [.value]), (.sub, [.source]), (.subi, [.value]),
    (.shr, []), (.shl, []), (.and, [.source]), (.andi, [.value]), (.print, [.source]), (.stop, [])]

/-- The instructions by their mnemonics. -/
def mnemonics : List (String × Opcode) :=
  Opcode.all.map fun opcode => (opcode.mnemonic, opcode)

/-! ### Words -/

/-- The spelling of a token. -/
def tokenText : Token → Work String
  | .identifier name => .ok name
  | .literal value => .ok (Text.dollarHex value)
  | token => lookup delimiterTexts token

/-- The row of distances for a character in front of a text, from the row of the text. -/
def precededRow (c : Char) : (other : List Char) → (row : List Nat) → Work (List Nat)
  | [], row => .ok (row.map (· + 1))
  | d :: other, row => do
    let both ← itemAt row 0
    let shorter ← precededRow c other row.tail
    let front ← itemAt row.tail 0
    if c = d then .ok (front :: shorter)
    else do
      let behind ← itemAt shorter 0
      .ok ((1 + min front (min both behind)) :: shorter)

/-- The row of distances between a text and every ending of another. -/
def distanceRow (text other : List Char) : Work (List Nat) :=
  text.foldrM (fun c row => precededRow c other row) (List.range (other.length + 1)).reverse

/-- The least number of single-character edits between two texts. -/
def editDistance (text other : String) : Work Nat := do
  itemAt (← distanceRow text.toList other.toList) 0

/-- Whether a candidate could have been meant. -/
def resembles (name candidate : String) : Work Bool := do
  let nameSmall := Character.lowercase name
  let candidateSmall := Character.lowercase candidate
  if candidateSmall = nameSmall then .ok true
  else if candidate.length ≤ name.length + 1 ∧ name.length ≤ candidate.length + 1 then do
    let distance ← editDistance nameSmall candidateSmall
    .ok ((distance : Int) ≤ min 2 ((name.length : Int) - 1))
  else .ok false

/-- The candidates that could have been meant. -/
def resembling (name : String) : List String → Work (List String)
  | [] => .ok []
  | candidate :: rest => do
    let similar ← resembles name candidate
    let others ← resembling name rest
    .ok (if similar then candidate :: others else others)

/-- At most three candidates that could have been meant. -/
def suggestions (name : String) (candidates : List String) : Work (List String) := do
  let similar ← resembling name candidates
  .ok (Text.upToLimit 3 similar)

/-- The message about a mistake and the notes that go with it. -/
def words : Cause → Work (String × List String)
  | .unexpectedAtStart found => do
    let text ← tokenText found
    .ok ("unexpected '" ++ text ++ "' token at start of line", ["expected ident or '.'"])
  | .unexpectedToken found expected => do
    let text ← tokenText found
    .ok ("unexpected '" ++ text ++ "' token, expected " ++ expected.text, [])
  | .trailingToken found afterLabel => do
    let text ← tokenText found
    .ok ("unexpected token '" ++ text ++ "', expected end of line" ++
      (if afterLabel then " after label" else ""), [])
  | .unknownInstruction word => do
    let similar ← suggestions word (mnemonics.map Prod.fst)
    .ok ("unknown instruction '" ++ word ++ "'", Cause.suggestionNotes similar)
  | .bracketsNotAllowed opcode operand => do
    let meaning ← lookup meaningTexts operand.meaning
    .ok ("brackets are not allowed on this operand",
      ["the " ++ operand.name ++ " operand of '" ++ opcode.mnemonic ++
        "' is not a memory address (" ++ meaning ++ ")"])
  | cause => .ok (cause.message, cause.notes)

/-- Puts a mistake into words and reports it. -/
def complain {Value : Type} (place : Span) (cause : Cause) : Work Value := do
  let _ ← words cause
  .error (.mistake (.atSpan place cause))

/-! ### Scanning a line -/

/-- A place in a line: so many characters and so many bytes lie in front of it. -/
structure Mark where
  index : Nat
  offset : Nat

/-- Takes the code point at a place. The next place is behind its bytes. -/
def advance (line : List Point) (mark : Mark) :
    Work (Char × { behind : Mark // mark.index < behind.index }) := do
  let point ← itemAt line mark.index
  let c ← point.encodable
  return (c, ⟨⟨mark.index + 1, mark.offset + c.utf8Size⟩, Nat.lt_succ_self _⟩)

/-- Takes characters while they are accepted. -/
def takeWhile (accepts : Char → Bool) (line : List Point) (mark : Mark) :
    Work (List Char × { behind : Mark // mark.index ≤ behind.index }) :=
  if _ : mark.index < line.length then do
    let point ← itemAt line mark.index
    if point.meets accepts then do
      let (c, ⟨next, past⟩) ← advance line mark
      let (taken, ⟨behind, further⟩) ← takeWhile accepts line next
      .ok (c :: taken, ⟨behind, Nat.le_trans (Nat.le_of_lt past) further⟩)
    else .ok ([], ⟨mark, Nat.le_refl _⟩)
  else .ok ([], ⟨mark, Nat.le_refl _⟩)
termination_by line.length - mark.index

/-- Takes one token, which has a character at least. -/
def scanToken (line : List Point) (mark : Mark) :
    Work (Located Token × { behind : Mark // mark.index < behind.index }) := do
  let (c, ⟨next, past⟩) ← advance line mark
  if (delimiterTokens.lookup c).isSome then
    let token ← lookup delimiterTokens c
    let place ← span mark.offset next.offset
    return (⟨token, place⟩, ⟨next, past⟩)
  else if c = '$' then
    let (digits, ⟨behind, further⟩) ← takeWhile isHexDigit line next
    let place ← span mark.offset behind.offset
    if digits = [] then complain place .emptyLiteral
    else
      let value ← number digits
      if 255 < value then complain place .literalOverflow
      else return (⟨.literal value, place⟩, ⟨behind, Nat.lt_of_lt_of_le past further⟩)
  else if opensName c then
    let (others, ⟨behind, further⟩) ← takeWhile Character.isAlphanumeric line next
    let place ← span mark.offset behind.offset
    return (⟨.identifier (String.ofList (c :: others)), place⟩,
      ⟨behind, Nat.lt_of_lt_of_le past further⟩)
  else
    let place ← span mark.offset next.offset
    complain place .invalidStart

/-- The tokens of a line from a place on. -/
def scan (line : List Point) (mark : Mark) : Work (List (Located Token)) :=
  if _ : mark.index < line.length then do
    let point ← itemAt line mark.index
    if point.meets Character.isBlank then
      let (_, ⟨next, _⟩) ← advance line mark
      scan line next
    else if point = .character ';' then return []
    else
      let (token, ⟨behind, _⟩) ← scanToken line mark
      let others ← scan line behind
      return token :: others
  else return []
termination_by line.length - mark.index

/-! ### Reading the tokens of a line -/

section

variable (tokens : List (Located Token))

/-- Takes the token at an index, which must be one that `select` picks something from. If there is
none, the byte behind the token in front of it is to blame. -/
def expect {Picked : Type} (index : Nat) (select : Token → Option Picked) (expected : Expected) :
    Work (Located Picked × Nat) :=
  if tokens.length ≤ index then do
    let last ← itemAt tokens ((index : Int) - 1)
    let place ← span last.span.hi (last.span.hi + 1)
    complain place (.unexpectedEnd expected)
  else do
    let token ← itemAt tokens index
    match select token.value with
    | some picked => return (⟨picked, token.span⟩, index + 1)
    | none => complain token.span (.unexpectedToken token.value expected)

/-- Makes sure that there is no token at an index. -/
def finish (index : Nat) (afterLabel : Bool) : Work Unit :=
  if tokens.length ≤ index then return ()
  else do
    let token ← itemAt tokens index
    complain token.span (.trailingToken token.value afterLabel)

/-- Takes the token at an index if it is the given one. -/
def skip (index : Nat) (wanted : Token) : Work (Option (Span × Nat)) :=
  if tokens.length ≤ index then return none
  else do
    let token ← itemAt tokens index
    if token.value = wanted then return some (token.span, index + 1) else return none

/-- Reads the argument for an operand. -/
def readArg (opcode : Opcode) (operand : Operand) (index : Nat) : Work (Arg × Nat) := do
  match ← skip tokens index .bracketOpen with
  | some (place, inside) =>
    if operand.meaning = .cell then
      let (content, behind) ← expect tokens inside Token.content? .literalOrIdent
      let (_, afterwards) ← expect tokens behind Token.closing? .closingBracket
      return (⟨content.value, some content.span, true⟩, afterwards)
    else complain place (.bracketsNotAllowed opcode operand)
  | none =>
    let (content, behind) ← expect tokens index Token.content? .literalOrIdent
    return (⟨content.value, some content.span, false⟩, behind)

/-- Reads one argument for each operand. -/
def readArgs (opcode : Opcode) : List Operand → Nat → Work (List Arg × Nat)
  | [], index => return ([], index)
  | operand :: operands, index => do
    let (arg, behind) ← readArg tokens opcode operand index
    let (args, afterwards) ← readArgs opcode operands behind
    return (arg :: args, afterwards)

/-- Reads what follows a dot. -/
def readDotted (index : Nat) : Work Statement := do
  let (name, behind) ← expect tokens index Token.identifier? .ident
  match ← skip tokens behind .colon with
  | some (_, afterwards) =>
    finish tokens afterwards true
    return .label name.value (some name.span)
  | none =>
    if name.value = "byte" then
      let (value, afterwards) ← expect tokens behind Token.literal? .literal
      finish tokens afterwards false
      return .byte value.value
    else complain name.span (.unknownDirective name.value)

/-- Reads what follows the first word of a line. -/
def readInstruction (word : String) (place : Span) (index : Nat) : Work Statement :=
  match mnemonics.lookup word with
  | none => complain place (.unknownInstruction word)
  | some opcode => do
    let operands ← lookup operandTable opcode
    let (args, behind) ← readArgs tokens opcode operands index
    finish tokens behind false
    return .instruction (← instruction opcode args)

/-- Reads the statement that the tokens of a line make. -/
def readTokens : Work (Option Statement) :=
  if tokens = [] then return none
  else do
    let first ← itemAt tokens 0
    match first.value with
    | .dot => return some (← readDotted tokens 1)
    | .identifier word => return some (← readInstruction tokens word first.span 1)
    | found => complain first.span (.unexpectedAtStart found)

end

/-! ### Reading a source -/

/-- Takes one carriage return off the end. -/
def dropReturn (piece : List Point) : List Point :=
  if piece.getLast? = some (.character '\r') then piece.dropLast else piece

/-- Reads a line, and says which bytes of the source it takes. -/
def readLine (number : Int) (offset : Nat) (text : List Point) : Work (Option Entry) := do
  let tokens ← scan text ⟨0, 0⟩
  match ← readTokens tokens with
  | none => return none
  | some statement =>
    let encoded ← encodable text
    let _ ← span offset (offset + Utf8.width encoded)
    return some ⟨statement, number, offset, String.ofList encoded⟩

/-- Reads the pieces between the line feeds of a source, one after the other. What is wrong with a
line is collected. The bytes of a piece are counted when its line has been read. -/
def readPieces (number offset : Nat) : List (List Point) → Work (Program × List Diagnostic)
  | [] => .ok ([], [])
  | piece :: rest => do
    let outcome ← caught (readLine number offset (dropReturn piece))
    let encoded ← encodable piece
    let (program, mistakes) ← readPieces (number + 1) (offset + Utf8.width encoded + 1) rest
    match outcome with
    | .ok read => .ok (read.toList ++ program, mistakes)
    | .error mistake =>
      .ok (program, mistake.onLine (String.ofList (Octet.dropReturn encoded)) number :: mistakes)

/-! ### Encoding a program -/

/-- The number of bytes that a statement lays down. -/
def sizeOf : Statement → Work Nat
  | .label _ _ => .ok 0
  | .byte _ => .ok 1
  | .instruction held => do
    let operands ← lookup operandTable held.opcode
    .ok (1 + operands.length)

/-- Gives every entry its address, and says where the next one would lie. -/
def placeFrom (address : Nat) : Program → Work (List Placed × Nat)
  | [] => .ok ([], address)
  | entry :: rest => do
    let size ← sizeOf entry.statement
    let (placed, behind) ← placeFrom (address + size) rest
    .ok (⟨address, entry⟩ :: placed, behind)

/-- The label of a table that has the given name. -/
def labelNamed (labels : Labels) (name : String) : Work Label :=
  match labels.find? name with
  | some label => .ok label
  | none => .error (.breakdown .noEntry)

/-- Adds the labels that some entries define, and collects the definitions that come too late. -/
def define (labels : Labels) : List Placed → Work (Labels × List Diagnostic)
  | [] => .ok (labels, [])
  | ⟨address, entry⟩ :: rest =>
    match entry.statement with
    | .label name place =>
      if name ∈ labels.map Label.name then do
        let first ← labelNamed labels name
        let (all, late) ← define labels rest
        let diagnostic : Diagnostic :=
          ⟨.duplicateLabel name (some first.line), place, some entry.line.text,
            some entry.line.number⟩
        .ok (all, diagnostic :: late)
      else define (labels ++ [⟨name, address, entry.line.number⟩]) rest
    | _ => define labels rest

/-- The number that an argument stands for. -/
def resolve (labels : Labels) (arg : Arg) : Work Int :=
  match arg.content with
  | .value number => return number
  | .label name =>
    match labels.find? name with
    | none => do
      let similar ← suggestions name (labels.map Label.name)
      .error (.mistake ⟨.undefinedLabel name similar, arg.span, none, none⟩)
    | some label =>
      if label.address < memorySize then return label.address
      else .error (.mistake ⟨.outsideMemory name label.address, arg.span, none, none⟩)

/-- The bytes of a statement. -/
def encode (labels : Labels) : Statement → Work (List UInt8)
  | .label _ _ => return []
  | .byte value => return [UInt8.ofInt value]
  | .instruction held => do
    let numbers ← held.args.mapM (resolve labels)
    return held.opcode.byte :: numbers.map UInt8.ofInt

/-- Emits one entry. Zeros take the place of one that cannot be encoded. -/
def emit (labels : Labels) (emission : Emission) (entry : Entry) : Work Emission := do
  let start := emission.position
  match ← caught (encode labels entry.statement) with
  | .ok bytes => .ok ((emission.lay bytes).note start entry.line)
  | .error mistake =>
    let size ← sizeOf entry.statement
    let filling ← zeros (((start + size : Nat) : Int) - emission.code.length)
    let filled : Emission :=
      { emission with position := start + size, code := emission.code ++ filling }
    .ok ((filled.report (mistake.onLine entry.line.text entry.line.number)).note start entry.line)

/-- Encodes a program. -/
def imageOf (program : Program) : Work Image := do
  let (placed, size) ← placeFrom 0 program
  let (labels, late) ← define [] placed
  let oversize : List Diagnostic :=
    if size ≤ memorySize then [] else [⟨.programTooLarge size, none, none, none⟩]
  let emission ← program.foldlM (emit labels) .empty
  .ok ⟨emission.code, emission.rows, labels, late ++ oversize ++ emission.diagnostics⟩

/-- The code of a source, or everything that is wrong with it. -/
def assemble (source : List Point) : Work (Except (List Diagnostic) (List UInt8)) := do
  match ← readPieces 0 0 (source.splitOn (.character '\n')) with
  | (program, []) =>
    let image ← imageOf program
    .ok image.result
  | (_, mistakes) => .ok (.error mistakes)

end Octet.Guarded
