/-
This file says how a tool ends. What it writes is made of lines: those for
people lose their control sequences on the way, those of a log do not. A
failure decides the status and the last line, and what kind of failure it is
depends on who can mend it: whoever wrote the program, whoever typed the
command line, or nobody.
-/

import Octet.Diagnostic.Render
import Octet.Tool.FileTree

namespace Octet

/-! ### Reports -/

/-- How a tool ends: a status, what it wrote to its two outputs, and the files as it leaves
them. `crash` is set if it gave up over bytes that are no text. -/
structure Report where
  status : Nat
  stdout : String
  stderr : String
  tree : FileTree
  crash : Option Utf8.Malformed

namespace Report

/-- The report of a tool that has nothing for its standard output. -/
def silent (tree : FileTree) (status : Nat) (stderr : String) : Report :=
  ⟨status, "", stderr, tree, none⟩

end Report

/-- A line on an output that is not a terminal. -/
def echo (text : String) : String :=
  echoed .automatic text

/-- The line of a log, if there is one to be kept. -/
def logLine (verbose : Bool) (message : String) : String :=
  if verbose then "DEBUG: " ++ message ++ "\n" else ""

/-! ### Failures -/

/-- What ends the work of a tool. -/
inductive Failure where
  /-- Something wrong with a program: with its source or when it runs. -/
  | program (message : String)
  /-- Something wrong with the command line. -/
  | argument (message : String)
  /-- A file that is not there or not to be touched. -/
  | absent (message : String)
  | other (message : String)
deriving DecidableEq, Repr

namespace Failure

/-- The status a tool ends with. -/
def status : Failure → Nat
  | program _ => 1
  | argument _ => 2
  | absent _ => 2
  | other _ => 3

/-- The last line a tool writes. A kind of error, if given, is named in front of a program's. -/
def line (kind : Option String) : Failure → String
  | program message =>
    match kind with
    | none | some "" => "Error: " ++ message
    | some kind => kind ++ " error: " ++ message
  | argument message => "Error: " ++ message
  | absent message => "Error: " ++ message
  | other message => "Internal error: " ++ message

/-- The failure that a file error means. -/
def ofFileError (error : FileError) (path : String) : Failure :=
  match error with
  | .missing => absent (error.message path)
  | _ => other (error.message path)

end Failure

end Octet
