/-
This file reads files as text: source files, whose line ends are unified, and
symbol files, whose lines name addresses.
-/

import Octet.Assembly.Session
import Octet.Disassembly.AddressNames
import Octet.Text.Lines
import Octet.Text.Utf8

namespace Octet

/-- The text of a file, in which a line ends with a line feed and nothing else. -/
def textOfFile (content : List UInt8) : Except Utf8.Malformed String :=
  (Utf8.decode content).map Text.unifyNewlines

/-- The code of the source in a file, or everything that is wrong with it. -/
def assembleFile (content : List UInt8) :
    Except Utf8.Malformed (Except (List Diagnostic) (List UInt8)) :=
  (textOfFile content).map assemble

/-- A symbol file that cannot be used. -/
inductive SymbolFileError where
  | malformed (malformed : Utf8.Malformed)
  | badSymbol (bad : BadSymbol)
deriving DecidableEq, Repr

/-- The table that a symbol file holds. -/
def AddressNames.ofFile (content : List UInt8) : Except SymbolFileError AddressNames :=
  match textOfFile content with
  | .error malformed => .error (.malformed malformed)
  | .ok text => (AddressNames.ofSymbolFile text).mapError .badSymbol

end Octet
