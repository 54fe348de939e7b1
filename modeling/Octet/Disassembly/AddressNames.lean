/-
This file gives names to addresses. An address has one name at most, the one
given last. Such a table can be read from a symbol file, whose lines hold a
name and a hexadecimal number each; empty lines and lines that begin with a
number sign are passed over.
-/

import Octet.Text.Lines
import Octet.Text.Numeral
import Octet.Text.Quoted

namespace Octet

/-- Addresses with their names, in the order in which the addresses were first named. -/
abbrev AddressNames := List (Int × String)

namespace AddressNames

/-- The name of an address. -/
def find? (names : AddressNames) (address : Int) : Option String :=
  List.lookup address names

/-- Names an address; a name that it had before is forgotten. -/
def insert (names : AddressNames) (address : Int) (name : String) : AddressNames :=
  match names with
  | [] => [(address, name)]
  | (other, known) :: rest =>
    if other = address then (address, name) :: rest else (other, known) :: insert rest address name

/-- The table of some pairs, of which later ones count. -/
def ofPairs (pairs : List (Int × String)) : AddressNames :=
  pairs.foldl (fun names (address, name) => names.insert address name) []

/-- The pairs in the order of their addresses. -/
def ascending (names : AddressNames) : List (Int × String) :=
  names.mergeSort fun first second => first.1 ≤ second.1

end AddressNames

/-! ### Symbol files -/

/-- A line of a symbol file, counted from one, that holds no name and number. -/
structure BadSymbol where
  number : Nat
  line : String
deriving DecidableEq, Repr

/-- The complaint about such a line of the file with the given path. -/
def BadSymbol.message (bad : BadSymbol) (path : String) : String :=
  path ++ ":" ++ toString bad.number ++ ": expected 'name $XX', got " ++ Text.quoted bad.line

/-- The address and the name on a line, which has been trimmed. -/
def symbolOfLine? (line : List Char) : Option (Int × String) :=
  match Character.fields line with
  | [name, value] =>
    (Text.readHexadecimal? (value.dropWhile (· = '$'))).map (·, String.ofList name)
  | _ => none

/-- Adds the symbols on some lines, of which the first has the given number. -/
def AddressNames.addLines (names : AddressNames) (number : Nat) :
    List (List Char) → Except BadSymbol AddressNames
  | [] => .ok names
  | line :: rest =>
    let trimmed := Character.trimBlanks line
    if trimmed.isEmpty || trimmed.head? = some '#' then names.addLines (number + 1) rest
    else
      match symbolOfLine? trimmed with
      | some (address, name) => (names.insert address name).addLines (number + 1) rest
      | none => .error ⟨number, String.ofList trimmed⟩

/-- The table that a symbol file holds. -/
def AddressNames.ofSymbolFile (text : String) : Except BadSymbol AddressNames :=
  AddressNames.addLines [] 1 (Text.boundedLines text.toList)

end Octet
