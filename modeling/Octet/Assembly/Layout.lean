/-
This file says where the statements of a program lie and what its labels are
bound to. A statement lies behind the bytes of all statements before it, and a
label is bound to the address at which it is defined. The first definition of
a name counts; every later one is a mistake that names the line of the first.
-/

import Octet.Assembly.Program

namespace Octet

/-! ### Addresses -/

/-- An entry with the address at which its bytes begin. -/
structure Placed where
  address : Nat
  entry : Entry
deriving DecidableEq

/-- Gives every entry the address behind all bytes before it. -/
def Program.placedFrom (address : Nat) : Program → List Placed
  | [] => []
  | entry :: rest => ⟨address, entry⟩ :: placedFrom (address + entry.statement.size) rest

/-- The entries of a program that begins at address zero. -/
def Program.placed (program : Program) : List Placed :=
  program.placedFrom 0

/-! ### Labels -/

/-- A label, the address it is bound to, and the line that defines it. -/
structure Label where
  name : String
  address : Nat
  line : Int
deriving DecidableEq, Repr

/-- The labels of a program in the order of their definitions. -/
abbrev Labels := List Label

namespace Labels

/-- The label with the given name. -/
def find? (labels : Labels) (name : String) : Option Label :=
  List.find? (·.name == name) labels

/-- The labels sorted by name, by code points. -/
def sorted (labels : Labels) : Labels :=
  labels.mergeSort fun first second => first.name ≤ second.name

/-- Adds the labels that some entries define, and collects the definitions that come too late. -/
def collect (labels : Labels) : List Placed → Labels × List Diagnostic
  | [] => (labels, [])
  | ⟨address, entry⟩ :: rest =>
    match entry.statement with
    | .label name span =>
      match labels.find? name with
      | none => collect (labels ++ [⟨name, address, entry.line.number⟩]) rest
      | some first =>
        let (all, late) := collect labels rest
        let diagnostic : Diagnostic :=
          ⟨.duplicateLabel name (some first.line), span, some entry.line.text,
            some entry.line.number⟩
        (all, diagnostic :: late)
    | _ => collect labels rest

end Labels

/-- The labels of a program, and the definitions of names that had one before. -/
def Program.labels (program : Program) : Labels × List Diagnostic :=
  Labels.collect [] program.placed

end Octet
