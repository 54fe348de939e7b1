/-
This file reads whole numbers as people write them on a command line or in a
symbol file: blanks around, a sign, digits of any script, and single
underscores between digits. In base sixteen the mark `0x` may stand in front,
and an underscore may follow it.
-/

import Octet.Character.Blank
import Octet.Character.Decimal

namespace Octet.Text

/-- Blanks of ASCII: the space and the five characters that move the print position. -/
def isPlainBlank (c : Char) : Bool :=
  c = ' ' || (0x09 ≤ c.toNat && c.toNat ≤ 0x0D)

/-- A character in the alphabet of ASCII numerals: digits of other scripts become ASCII digits
and other blanks become spaces. Nothing stands for the remaining characters. -/
def plainNumeralChar? (c : Char) : Option Char :=
  if c.toNat < 0x7F then some c
  else if Character.isBlank c then some ' '
  else (Character.decimalValue? c).map Nat.digitChar

/-- The value of a digit in any base up to thirty-six. -/
def digitValue? (c : Char) : Option Nat :=
  if c.isDigit then some (c.toNat - '0'.toNat)
  else if c.isLower then some (c.toNat - 'a'.toNat + 10)
  else if c.isUpper then some (c.toNat - 'A'.toNat + 10)
  else none

/-- Digits of the base, most significant first, with single underscores between them. -/
def digitsBetweenUnderscores? (base : Nat) : List Char → Option (List Nat)
  | [] => none
  | c :: rest => do
    let digit ← (digitValue? c).filter (· < base)
    match rest with
    | [] => some [digit]
    | '_' :: more => (digit :: ·) <$> digitsBetweenUnderscores? base more
    | more => (digit :: ·) <$> digitsBetweenUnderscores? base more

/-- The number that digits make. -/
def numberOfDigits (base : Nat) (digits : List Nat) : Nat :=
  digits.foldl (fun number digit => number * base + digit) 0

/-- Takes the mark of base sixteen off, and one underscore behind it. -/
def dropBaseMark : List Char → List Char
  | '0' :: mark :: rest =>
    if mark = 'x' || mark = 'X' then
      match rest with
      | '_' :: digits => digits
      | digits => digits
    else '0' :: mark :: rest
  | text => text

/-- A sign, if there is one, and what follows it. -/
def splitSign : List Char → Bool × List Char
  | '-' :: rest => (true, rest)
  | '+' :: rest => (false, rest)
  | text => (false, text)

/-- The sign and the digits of a numeral, with blanks and base mark taken off. -/
def numeral? (base : Nat) (text : List Char) : Option (Bool × List Nat) := do
  let plain ← text.mapM plainNumeralChar?
  let trimmed := ((plain.dropWhile isPlainBlank).reverse.dropWhile isPlainBlank).reverse
  let (negative, unsigned) := splitSign trimmed
  let body := if base = 16 then dropBaseMark unsigned else unsigned
  let digits ← digitsBetweenUnderscores? base body
  some (negative, digits)

/-- The number that a sign and digits make. -/
def signedNumber (base : Nat) (negative : Bool) (digits : List Nat) : Int :=
  let magnitude : Int := numberOfDigits base digits
  if negative then -magnitude else magnitude

/-- Reads a hexadecimal number. -/
def readHexadecimal? (text : List Char) : Option Int :=
  (numeral? 16 text).map fun (negative, digits) => signedNumber 16 negative digits

/-- How many digits a decimal number may have. -/
def decimalDigitLimit : Nat := 4300

/-- Reads a decimal number; one with too many digits is refused. -/
def readDecimal? (text : List Char) : Option Int :=
  match numeral? 10 text with
  | some (negative, digits) =>
    if digits.length ≤ decimalDigitLimit then some (signedNumber 10 negative digits) else none
  | none => none

end Octet.Text
