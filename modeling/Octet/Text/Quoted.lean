/-
This file writes a text between quotes, so that a reader can tell blanks and
invisible characters apart. The single quote is used unless the text holds one
and no double quote. What cannot be shown as it is becomes an escape with two,
four or eight hexadecimal digits.
-/

import Octet.Character.Printable

namespace Octet.Text

/-- The quote that suits a text. -/
def quoteFor (text : List Char) : Char :=
  if text.contains '\'' && !text.contains '"' then '"' else '\''

/-- Small hexadecimal digits of a code point, with zeros in front up to the given count. -/
def escapeDigits (count code : Nat) : List Char :=
  let digits := Nat.toDigits 16 code
  List.replicate (count - digits.length) '0' ++ digits

/-- One character between the given quotes. -/
def escaped (quote c : Char) : List Char :=
  if c = quote || c = '\\' then ['\\', c]
  else if c = '\n' then ['\\', 'n']
  else if c = '\r' then ['\\', 'r']
  else if c = '\t' then ['\\', 't']
  else if Character.isPrintable c then [c]
  else if c.toNat < 0x100 then '\\' :: 'x' :: escapeDigits 2 c.toNat
  else if c.toNat < 0x10000 then '\\' :: 'u' :: escapeDigits 4 c.toNat
  else '\\' :: 'U' :: escapeDigits 8 c.toNat

/-- The text between quotes. -/
def quoted (text : String) : String :=
  let quote := quoteFor text.toList
  String.ofList (quote :: text.toList.flatMap (escaped quote) ++ [quote])

end Octet.Text
