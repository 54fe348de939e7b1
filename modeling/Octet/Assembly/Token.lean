/-
This file holds the lexical elements of a program: four delimiters, names, and
literals. A literal carries its value, so how many digits it was written with
is forgotten. Names and literals that no line of source could spell are tokens
too; what is read from a line is always a byte and a proper name.
-/

import Octet.Text.Hex

namespace Octet

/-- A lexical element of a line. -/
inductive Token where
  | dot
  | colon
  | bracketOpen
  | bracketClose
  | identifier (name : String)
  | literal (value : Int)
deriving DecidableEq, Repr

namespace Token

/-- The token as a program writes it; a literal takes two digits or more. -/
def text : Token → String
  | dot => "."
  | colon => ":"
  | bracketOpen => "["
  | bracketClose => "]"
  | identifier name => name
  | literal value => Text.dollarHex value

/-- The name, if the token is one. -/
def identifier? : Token → Option String
  | identifier name => some name
  | _ => none

/-- The value, if the token is a literal. -/
def literal? : Token → Option Int
  | literal value => some value
  | _ => none

end Token

end Octet
