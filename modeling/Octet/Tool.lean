/-
This file finds a tool by its name.
-/

import Octet.Tool.Assemble
import Octet.Tool.Disassemble
import Octet.Tool.Execute

namespace Octet

/-- The tools. -/
inductive Tool where
  | assembler
  | machine
  | disassembler
deriving DecidableEq, Repr

namespace Tool

/-- The tool with the given name. -/
def named? (name : String) : Option Tool :=
  if name = Assemble.command.name then some assembler
  else if name = Execute.command.name then some machine
  else if name = Disassemble.command.name then some disassembler
  else none

/-- Runs a tool on the words of its command line. -/
def run (tool : Tool) (tree : FileTree) (words : List String) : Report :=
  match tool with
  | assembler => Assemble.run tree words
  | machine => Execute.run tree words
  | disassembler => Disassemble.run tree words

/-- The paths that a command line mentions. -/
def paths (tool : Tool) (words : List String) : List String :=
  match tool with
  | assembler => Assemble.command.paths words
  | machine => Execute.command.paths words
  | disassembler => Disassemble.command.paths words

end Tool

end Octet
