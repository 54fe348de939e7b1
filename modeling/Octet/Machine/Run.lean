/-
This file runs the machine: it steps until the machine stops, a limit is
reached, a byte is no instruction, or a watcher asks for a pause. A watcher is
called before each instruction, with the program counter and the byte there. It
sees the machine and keeps notes of its own, and it cannot change the machine.

A run without a limit is followed for as many instructions as the machine has
states. If it has not ended by then, the machine has come back to where it was
and executes on and on: neither a stop nor a fault lies ahead. Only a watcher
could still end the run, one that counts the calls and asks for a pause later
than that. Such a pause is not waited for.
-/

import Octet.Machine.Basic

namespace Octet

/-! ### Watchers -/

/-- Someone who may be called before each instruction of a run. A watcher with a look is shown the
program counter and the byte there; it sees the machine, takes notes, and says whether the run may
go on. -/
structure Watcher (Notes : Type) where
  look : Option (Notes → Machine → (pc opcode : UInt8) → Notes × Bool)

namespace Watcher

/-- The watcher that is never called. -/
def blind : Watcher Unit :=
  ⟨none⟩

/-- The watcher that is called before every instruction. -/
def seeing {Notes : Type} (look : Notes → Machine → (pc opcode : UInt8) → Notes × Bool) :
    Watcher Notes :=
  ⟨some look⟩

/-- Calls the watcher before the next instruction of a machine, if it has a look. -/
def ask {Notes : Type} (watcher : Watcher Notes) (notes : Notes) (machine : Machine) :
    Notes × Bool :=
  match watcher.look with
  | some look => look notes machine machine.pc machine.fetched
  | none => (notes, true)

end Watcher

/-! ### Runs -/

/-- Why a run ended. -/
inductive Outcome where
  | stopped
  | stepLimit
  | breakpoint
  | fault (fault : Fault)
  /-- The machine executes on and on, and the run was followed no further. -/
  | endless
deriving DecidableEq, Repr

/-- A run under way: the machine, the watcher's notes, the text printed and the number of
instructions executed. -/
structure Run (Notes : Type) where
  machine : Machine
  notes : Notes
  printed : String
  steps : Nat

namespace Run

variable {Notes : Type}

/-- A run that has not begun. -/
def start (machine : Machine) (notes : Notes) : Run Notes :=
  ⟨machine, notes, "", 0⟩

/-- One turn of a run: it goes on, or it has ended for a reason. -/
def turn (watcher : Watcher Notes) (run : Run Notes) : Run Notes × Option Outcome :=
  if run.machine.halted then (run, some .stopped)
  else
    let (notes, goesOn) := watcher.ask run.notes run.machine
    let seen := { run with notes }
    if goesOn then
      match run.machine.executeFetched with
      | .ok (machine, text) => (⟨machine, notes, run.printed ++ text, run.steps + 1⟩, none)
      | .error fault => (seen, some (.fault fault))
    else (seen, some .breakpoint)

/-- Goes on for at most `limit` instructions. -/
def upTo (watcher : Watcher Notes) : (limit : Nat) → Run Notes → Run Notes × Outcome
  | 0, run => (run, if run.machine.halted then .stopped else .stepLimit)
  | limit + 1, run =>
    match run.turn watcher with
    | (after, none) => upTo watcher limit after
    | (after, some outcome) => (after, outcome)

/-- The number of states in which a machine has not stopped: 256 cells and two registers of eight
bits each. -/
@[irreducible]
def stateCount : Nat := Nat.pow 2 (8 * 258)

/-- Goes on until the run has ended or its machine has been in every state that it can be in. -/
def toEnd (watcher : Watcher Notes) (run : Run Notes) : Run Notes × Outcome :=
  match run.upTo watcher stateCount with
  | (after, .stepLimit) => (after, .endless)
  | ended => ended

end Run

/-- Runs a machine, up to a limit if there is one; a negative limit allows no instruction. -/
def Machine.run {Notes : Type} (machine : Machine) (watcher : Watcher Notes) (notes : Notes)
    (limit : Option Int) : Run Notes × Outcome :=
  match limit with
  | some limit => (Run.start machine notes).upTo watcher limit.toNat
  | none => (Run.start machine notes).toEnd watcher

end Octet
