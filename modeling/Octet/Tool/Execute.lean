/-
This file is the tool that runs programs: it loads a file at address zero and
runs it until it stops, faults or reaches the limit of steps. What the program
prints goes to the standard output as it is. The trace, the state and the log
go to the error output; none of them has an influence on the run.
-/

import Octet.Assembly.Image
import Octet.Disassembly.Listing
import Octet.Machine.Dump
import Octet.Machine.Run
import Octet.Tool.Command

namespace Octet.Tool.Execute

/-! ### The command line -/

/-- The options of the tool. -/
inductive Switch where
  | maxSteps
  | trace
  | info
  | dumpState
  | verbose
  | version
deriving DecidableEq, Repr

/-- What the tool wants on its command line. -/
def command : Command Switch where
  name := "t8vm"
  argument := "PROGRAM_FILE"
  spellings :=
    [("--max-steps", .maxSteps), ("--trace", .trace), ("--info", .info),
      ("--dump-state", .dumpState), ("-v", .verbose), ("--verbose", .verbose),
      ("--version", .version)]
  kind := fun switch =>
    match switch with
    | .maxSteps => .count
    | _ => .nothing
  version := .version

/-! ### Watching -/

/-- The instruction under the program counter, as it is decoded from the three bytes there. -/
def upcoming (machine : Machine) : Decoded :=
  .ofBytes machine.pc.toNat machine.fetched [machine.operand 1, machine.operand 2]

/-- The line of a trace: the instruction to come and the accumulator before it. -/
def traceLine (machine : Machine) : String :=
  let decoded := upcoming machine
  Text.dollarHex decoded.address ++ ": " ++ Text.padRight 8 (Text.hexRow decoded.bytes) ++ "  " ++
    Text.padRight 16 decoded.statementText ++ " acc=" ++ Text.dollarHex machine.acc.toNat

/-- The watcher that writes a trace, if one is wanted. -/
def tracer (wanted : Bool) : Watcher String :=
  if wanted then .seeing fun written machine _ _ => (written ++ echo (traceLine machine), true)
  else ⟨none⟩

/-! ### The work -/

/-- What is shown of a program before it runs. -/
def information (path : String) (program : List UInt8) (machine : Machine) : String :=
  echo ("Program: " ++ Path.name path ++ " (" ++ toString program.length ++ " bytes)") ++
    echo (Text.hexRow program) ++ echo machine.memory.fullDump ++ echo ""

/-- What the log says about the end of a run. -/
def conclusion (verbose : Bool) (machine : Machine) (steps : Nat) (outcome : Outcome) : String :=
  let executed := "Executed " ++ toString steps ++ " instructions"
  match outcome with
  | .stopped =>
    logLine verbose ("Stopped at " ++ Text.dollarHex machine.pc.toNat ++ " after " ++
      toString steps ++ " steps, acc=" ++ Text.dollarHex machine.acc.toNat) ++
      logLine verbose executed
  | .stepLimit =>
    logLine verbose ("Step limit reached after " ++ toString steps ++ " steps") ++
      logLine verbose executed
  | .fault _ => ""
  | _ => logLine verbose executed

/-- What is shown of a machine behind a run. -/
def finalState (machine : Machine) (steps : Nat) : String :=
  echo ("pc=" ++ Text.dollarHex machine.pc.toNat ++ " acc=" ++ Text.dollarHex machine.acc.toNat ++
    " steps=" ++ toString steps) ++ echo machine.memory.fullDump

/-- The status and the last line of a run. -/
def verdict (limit : Option Int) (machine : Machine) (outcome : Outcome) : Nat × String :=
  match outcome with
  | .stepLimit =>
    (1, echo ("Error: step limit of " ++ (limit.map toString).getD "None" ++ " reached at " ++
      Text.dollarHex machine.pc.toNat))
  | .fault fault => (1, echo ((Failure.program fault.message).line (some "Machine")))
  | _ => (0, "")

/-- Runs a program. -/
def execute (tree : FileTree) (request : Request Switch) (program : List UInt8)
    (machine : Machine) : Report :=
  let verbose := request.has .verbose
  let limit := request.number? .maxSteps
  let before :=
    (if request.has .info then information request.path program machine else "") ++
      logLine verbose ("Running from " ++ Text.dollarHex machine.pc.toNat ++ ", max_steps=" ++
        (limit.map toString).getD "None")
  let (run, outcome) := machine.run (tracer (request.has .trace)) "" limit
  let (status, last) := verdict limit run.machine outcome
  let state :=
    match outcome with
    | .fault _ => ""
    | _ => if request.has .dumpState then finalState run.machine run.steps else ""
  ⟨status, run.printed,
    before ++ run.notes ++ conclusion verbose run.machine run.steps outcome ++ state ++ last,
    tree, none⟩

/-- The report of a tool that ends with a failure. -/
def failed (tree : FileTree) (failure : Failure) : Report :=
  .silent tree failure.status (echo (failure.line (some "Machine")))

/-- The tool, on a command line that has been accepted. -/
def act (tree : FileTree) (request : Request Switch) : Report :=
  match tree.read request.path with
  | .error error => failed tree (.ofFileError error (Path.tidy request.path))
  | .ok program =>
    match Machine.ofProgram program with
    | .error tooLarge => failed tree (.program (Cause.sizeMessage tooLarge.size memorySize))
    | .ok machine => execute tree request program machine

/-- The tool, on the words of a command line. -/
def run (tree : FileTree) (words : List String) : Report :=
  command.run act tree words

end Octet.Tool.Execute
