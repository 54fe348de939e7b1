/-
This file cuts a line into tokens. Blanks part lexemes and a semicolon ends
the line; otherwise the longest lexeme is taken: a delimiter, a dollar sign
with every hexadecimal digit behind it, or a letter or underscore with every
letter and number behind it. Spans count the bytes of the line's encoding, so
they stay exact whatever characters stand before them.
-/

import Octet.Assembly.Token
import Octet.Character.Blank
import Octet.Character.Numeric
import Octet.Diagnostic.Basic
import Octet.Text.Utf8

namespace Octet

/-! ### The extent of a lexeme -/

/-- Hexadecimal digits of ASCII, in either case. -/
def isHexDigit (c : Char) : Bool :=
  c.isDigit || ('a' ≤ c && c ≤ 'f') || ('A' ≤ c && c ≤ 'F')

/-- Characters that a name begins with. -/
def opensName (c : Char) : Bool :=
  c = '_' || Character.isAlphabetic c

/-- Characters that continue a lexeme, by the character it begins with. -/
def continues (first : Char) : Char → Bool :=
  if first = '$' then isHexDigit
  else if opensName first then Character.isAlphanumeric
  else fun _ => false

/-! ### From lexemes to tokens -/

/-- The value of a hexadecimal digit. -/
def hexDigitValue (c : Char) : Nat :=
  if c.isDigit then c.toNat - '0'.toNat
  else if 'a' ≤ c then c.toNat - 'a'.toNat + 10
  else c.toNat - 'A'.toNat + 10

/-- The number that hexadecimal digits make. -/
def hexValue (digits : List Char) : Nat :=
  digits.foldl (fun value digit => value * 16 + hexDigitValue digit) 0

/-- The token that a lexeme is, given its first character and the rest of it. -/
def Token.ofLexeme (first : Char) (rest : List Char) : Except Cause Token :=
  if first = '.' then .ok .dot
  else if first = ':' then .ok .colon
  else if first = '[' then .ok .bracketOpen
  else if first = ']' then .ok .bracketClose
  else if first = '$' then
    if rest.isEmpty then .error .emptyLiteral
    else if hexValue rest ≤ 255 then .ok (.literal (hexValue rest))
    else .error .literalOverflow
  else if opensName first then .ok (.identifier (String.ofList (first :: rest)))
  else .error .invalidStart

/-! ### The tokens of a line -/

/-- The tokens of what is left of a line, which begins at the given byte. -/
def scan (offset : Nat) : List Char → Except Diagnostic (List (Located Token))
  | [] => .ok []
  | c :: rest =>
    if Character.isBlank c then scan (offset + c.utf8Size) rest
    else if c = ';' then .ok []
    else
      let tail := rest.takeWhile (continues c)
      let stop := offset + Utf8.width (c :: tail)
      let span : Span := ⟨offset, stop, Nat.le_add_right _ _⟩
      match Token.ofLexeme c tail with
      | .error cause => .error (.atSpan span cause)
      | .ok token =>
        match scan stop (rest.dropWhile (continues c)) with
        | .error diagnostic => .error diagnostic
        | .ok tokens => .ok (⟨token, span⟩ :: tokens)
termination_by text => text.length
decreasing_by
  · simp
  · have notLonger : (rest.dropWhile (continues c)).length ≤ rest.length :=
      (List.dropWhile_sublist (continues c)).length_le
    simp only [List.length_cons]
    omega

/-- The tokens of a line, in order, or the first mistake in it. -/
def tokensOfLine (line : String) : Except Diagnostic (List (Located Token)) :=
  (scan 0 line.toList).mapError fun diagnostic => { diagnostic with lineText := some line }

end Octet
