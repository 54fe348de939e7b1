/-
This file says what a host can do with a machine. A host assigns registers,
writes memory and resets the machine, looks at the memory, and asks for a step
or for a run. A run may have a hook, which is called before each instruction and
says whether the run may go on.

While a hook is being called, it is the hook that has the machine in its hands,
and it can do whatever the host can do. It may also step the machine, or begin a
run in the midst of the one that has called it, with hooks of its own. So there
may be several runs under way, one inside the other, and only the innermost one
waits for an answer. Nothing is said of how a host or a hook decides what to do
next: they act, one act after the other.
-/

import Octet.Machine.Dump
import Octet.Machine.Run

namespace Octet

/-! ### Changes -/

/-- A change that is made to a machine from outside. -/
inductive Change where
  | pc (value : Int)
  | acc (value : Int)
  | reset
  | write (address value : Int)
  | load (data : List Int) (address : Int)
deriving DecidableEq

/-- The machine behind a change. A register that is assigned takes the lowest eight bits. -/
def Machine.change (machine : Machine) : Change → Machine
  | .pc value => { machine with pc := .ofInt value }
  | .acc value => { machine with acc := .ofInt value }
  | .reset => machine.reset
  | .write address value => { machine with memory := machine.memory.write address value }
  | .load data address =>
    { machine with memory := machine.memory.load (data.map .ofInt) address }

/-! ### Operations -/

/-- What can be asked of a machine and is done before anything else happens. -/
inductive Operation where
  | step
  /-- A run without a hook. -/
  | run (limit : Option Int)
  | change (change : Change)
  | read (address : Int)
  | block (address length : Int)
  | string (address : Int)
  | dump (start : Int) (length : Option Int) (width : Int)
  | snapshot
deriving DecidableEq

/-- What those are told who act. -/
inductive Response where
  | done
  /-- Whether the machine is still running behind a step. -/
  | stepped (running : Bool)
  | ended (outcome : Outcome) (steps : Nat)
  | fault (fault : Fault)
  | bytes (bytes : List UInt8)
  | text (text : String)
  | refused (error : DumpError)
  /-- A hook is called, and with what. -/
  | called (pc opcode : UInt8)
  /-- A hook has failed, and its run with it. -/
  | abandoned
deriving DecidableEq

/-- What is told of the end of a run. -/
def Response.ofOutcome (steps : Nat) : Outcome → Response
  | .fault met => .fault met
  | outcome => .ended outcome steps

/-- What comes of an operation: the machine as it is left, the text that was printed, and the
answer. -/
structure Reply where
  machine : Machine
  printed : String
  answer : Response

namespace Machine

/-- Does what is asked for. -/
def serve (machine : Machine) : Operation → Reply
  | .step =>
    match machine.step with
    | .ok (next, text) => ⟨next, text, .stepped !next.halted⟩
    | .error fault => ⟨machine, "", .fault fault⟩
  | .run limit =>
    let (run, outcome) := machine.run .blind () limit
    ⟨run.machine, run.printed, .ofOutcome run.steps outcome⟩
  | .change change => ⟨machine.change change, "", .done⟩
  | .read address => ⟨machine, "", .bytes [machine.memory.read address]⟩
  | .block address length => ⟨machine, "", .bytes (machine.memory.block address length.toNat)⟩
  | .string address => ⟨machine, "", .text (machine.memory.textAt address)⟩
  | .dump start length width =>
    ⟨machine, "",
      match machine.memory.dump start length width with
      | .ok text => .text text
      | .error error => .refused error⟩
  | .snapshot => ⟨machine, "", .bytes machine.toBytes⟩

/-- The machine behind some operations, one after the other. -/
def serveAll (machine : Machine) (operations : List Operation) : Machine :=
  operations.foldl (fun machine operation => (machine.serve operation).machine) machine

end Machine

/-! ### Runs with hooks -/

/-- A run that waits for its hook: its limit, and the number of instructions executed. -/
structure Pending where
  limit : Option Int
  steps : Nat
deriving DecidableEq

/-- Whether a run has executed all instructions that its limit allows. -/
def Pending.exhausted (run : Pending) : Bool :=
  match run.limit with
  | some limit => limit ≤ run.steps
  | none => false

/-- A machine in use: the text it has printed, and the runs that wait for their hooks, the innermost
first. If there are any, the hook of the innermost one acts next, and the host if there are none. -/
structure Hosted where
  machine : Machine
  printed : String
  pending : List Pending
deriving DecidableEq

/-- An act of a host or of a hook. -/
inductive Act where
  | operate (operation : Operation)
  /-- A run with a hook is begun. -/
  | run (limit : Option Int)
  /-- A hook answers whether its run may go on. -/
  | answer (goesOn : Bool)
  /-- A hook fails instead of answering. -/
  | abandon
deriving DecidableEq

namespace Hosted

/-- A machine that its host has just got. -/
def start (machine : Machine) : Hosted :=
  ⟨machine, "", []⟩

/-- The beginning of a turn: a run is over if the machine has stopped or the limit is reached, and
calls its hook if not. -/
def turn (hosted : Hosted) (run : Pending) : Hosted × Response :=
  if hosted.machine.halted then (hosted, .ended .stopped run.steps)
  else if run.exhausted then (hosted, .ended .stepLimit run.steps)
  else
    ({ hosted with pending := run :: hosted.pending },
      .called hosted.machine.pc hosted.machine.fetched)

/-- A run goes on: it executes the instruction that is there now, whatever its hook has done, and
turns to the next one. -/
def goOn (hosted : Hosted) (run : Pending) : Hosted × Response :=
  match hosted.machine.executeFetched with
  | .ok (machine, text) =>
    { hosted with machine, printed := hosted.printed ++ text }.turn
      { run with steps := run.steps + 1 }
  | .error fault => (hosted, .fault fault)

/-- What comes of an act. A host has no run to answer for, and its answers are lost. -/
def act (hosted : Hosted) : Act → Hosted × Response
  | .operate operation =>
    let reply := hosted.machine.serve operation
    ({ hosted with machine := reply.machine, printed := hosted.printed ++ reply.printed },
      reply.answer)
  | .run limit => hosted.turn ⟨limit, 0⟩
  | .answer goesOn =>
    match hosted.pending with
    | [] => (hosted, .done)
    | run :: outer =>
      if goesOn then { hosted with pending := outer }.goOn run
      else ({ hosted with pending := outer }, .ended .breakpoint run.steps)
  | .abandon =>
    match hosted.pending with
    | [] => (hosted, .done)
    | _ :: outer => ({ hosted with pending := outer }, .abandoned)

/-- What comes of some acts, one after the other. -/
def actAll (hosted : Hosted) (acts : List Act) : Hosted :=
  acts.foldl (fun hosted act => (hosted.act act).1) hosted

end Hosted

end Octet
