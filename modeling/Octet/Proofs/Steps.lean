/-
This file shows what one instruction does to the machine and what that means
for a run. An instruction leaves the memory alone unless it names a
destination, and it leaves the program counter at one of three places. A run is
nothing but instructions one after the other: it ends with a machine that can be
reached by single steps, and it ends with a fault only if one of these does.
-/

import Octet.Machine.Run

namespace Octet

/-! ### What an instruction does to the registers and to the memory -/

namespace Machine

/-- Only an instruction that names a destination changes the memory. -/
theorem memory_execute (machine : Machine) (opcode : Opcode)
    (keeps : .destination ∉ opcode.operands) :
    (machine.execute opcode).1.memory = machine.memory := by
  cases opcode with
  | st => exact absurd List.mem_cons_self keeps
  | sti => exact absurd (List.mem_cons_of_mem _ List.mem_cons_self) keeps
  | mov => exact absurd (List.mem_cons_of_mem _ List.mem_cons_self) keeps
  | jz =>
    simp only [execute]
    split <;> rfl
  | _ => rfl

/-- Where an instruction leaves the program counter: a stop leaves it where it is, a jump that
is taken moves it to its operand, and everything else moves it behind the instruction. -/
theorem pc_execute (machine : Machine) (opcode : Opcode) :
    (machine.execute opcode).1.pc =
      if opcode = .stop then machine.pc
      else if opcode = .jmp ∨ opcode = .jz ∧ machine.acc = 0 then machine.operand 1
      else machine.pc + .ofNat opcode.size := by
  cases opcode with
  | jz =>
    simp only [execute]
    by_cases zero : machine.acc = 0
    · simp [zero]
    · simp only [if_neg zero]
      simp [zero]
      rfl
  | _ => rfl

/-- A step of a machine that has not stopped executes the instruction under the program counter. -/
theorem step_of_running (machine : Machine) (running : machine.halted = false) :
    machine.step = machine.executeFetched := by
  rw [step, running, if_neg Bool.false_ne_true]

theorem step_of_fetched (machine : Machine) {opcode : Opcode} (running : machine.halted = false)
    (fetched : machine.fetched = opcode.byte) : machine.step = .ok (machine.execute opcode) := by
  rw [machine.step_of_running running, executeFetched, fetched, Opcode.ofByte?_byte]

/-- A machine that has stopped stays as it is. -/
theorem step_of_halted (machine : Machine) (halted : machine.halted = true) :
    machine.step = .ok (machine, "") := by
  rw [step, halted, if_pos rfl]

/-! ### Reached machines, and runs -/

/-- The machines that a machine turns into, one instruction after the other. -/
inductive Reaches (start : Machine) : Machine → Prop
  | start : Reaches start start
  | step {machine next : Machine} {text : String} (reached : Reaches start machine)
      (executed : machine.step = .ok (next, text)) : Reaches start next

/-- A property that holds in the beginning and is kept by every instruction holds for every
machine that is reached. -/
theorem Reaches.invariant {start : Machine} (Holds : Machine → Prop) (first : Holds start)
    (kept : ∀ machine next text, Holds machine → machine.step = .ok (next, text) → Holds next)
    {reached : Machine} (reaches : Reaches start reached) : Holds reached := by
  induction reaches with
  | start => exact first
  | step _ executed inductionHypothesis => exact kept _ _ _ inductionHypothesis executed

end Machine

namespace Run

variable {Notes : Type} (watcher : Watcher Notes)

/-- What one turn can do. The watcher is asked before every instruction, and before that it is seen
whether the machine has stopped. -/
inductive Turns (run : Run Notes) : Run Notes × Option Outcome → Prop
  | stopped (halted : run.machine.halted = true) : Turns run (run, some .stopped)
  | paused {notes : Notes} (running : run.machine.halted = false)
      (refused : watcher.ask run.notes run.machine = (notes, false)) :
      Turns run ({ run with notes }, some .breakpoint)
  | faulted {notes : Notes} {fault : Fault} (running : run.machine.halted = false)
      (allowed : watcher.ask run.notes run.machine = (notes, true))
      (unknown : run.machine.step = .error fault) :
      Turns run ({ run with notes }, some (.fault fault))
  | executed {notes : Notes} {next : Machine} {text : String}
      (running : run.machine.halted = false)
      (allowed : watcher.ask run.notes run.machine = (notes, true))
      (executed : run.machine.step = .ok (next, text)) :
      Turns run (⟨next, notes, run.printed ++ text, run.steps + 1⟩, none)

theorem turns_turn (run : Run Notes) : Turns watcher run (run.turn watcher) := by
  unfold turn
  cases halted : run.machine.halted with
  | true => exact .stopped halted
  | false =>
    rw [if_neg Bool.false_ne_true, ← run.machine.step_of_running halted]
    rcases asked : watcher.ask run.notes run.machine with ⟨notes, _ | _⟩
    · exact .paused halted asked
    · cases executed : run.machine.step with
      | ok result => exact .executed halted asked executed
      | error fault => exact .faulted halted asked executed

/-- A run ends with a machine that the first one reaches. If no such machine faults, neither
does the run. -/
theorem upTo_reaches (start : Machine)
    (safe : ∀ machine, start.Reaches machine → ∃ next, machine.step = .ok next)
    (limit : Nat) (run : Run Notes) (reached : start.Reaches run.machine) :
    start.Reaches (run.upTo watcher limit).1.machine ∧
      ∀ fault, (run.upTo watcher limit).2 ≠ .fault fault := by
  induction limit generalizing run with
  | zero =>
    refine ⟨reached, fun fault => ?_⟩
    rw [upTo]
    split <;> exact Outcome.noConfusion
  | succ limit inductionHypothesis =>
    rw [upTo]
    generalize turned : run.turn watcher = result
    cases turned ▸ turns_turn watcher run with
    | stopped => exact ⟨reached, fun fault => Outcome.noConfusion⟩
    | paused => exact ⟨reached, fun fault => Outcome.noConfusion⟩
    | faulted _ _ unknown =>
      obtain ⟨next, executed⟩ := safe _ reached
      rw [unknown] at executed
      cases executed
    | executed _ _ executed => exact inductionHypothesis _ (reached.step executed)

end Run

/-! ### Runs with and without a limit -/

/-- The number of steps that a limit allows. A negative limit allows none, and no limit allows as
many as the machine has states. -/
def Run.allowance : (limit : Option Int) → Nat
  | some limit => limit.toNat
  | none => stateCount

/-- What is said of a run whose limit was reached, if there was none. -/
def Outcome.told : (limit : Option Int) → Outcome → Outcome
  | none, .stepLimit => .endless
  | _, outcome => outcome

/-- Nothing else is said of a run that ended by itself or was paused. -/
theorem Outcome.told_eq_iff (limit : Option Int) (outcome : Outcome) {other : Outcome}
    (limited : other ≠ .stepLimit) (ended : other ≠ .endless) :
    outcome.told limit = other ↔ outcome = other := by
  cases limit with
  | some limit => rfl
  | none =>
    cases outcome with
    | stepLimit => exact iff_of_false ended.symm limited.symm
    | _ => rfl

/-- A run is as many turns as its limit allows. -/
theorem Machine.run_eq {Notes : Type} (machine : Machine) (watcher : Watcher Notes)
    (notes : Notes) (limit : Option Int) :
    machine.run watcher notes limit =
      (((Run.start machine notes).upTo watcher (Run.allowance limit)).1,
        ((Run.start machine notes).upTo watcher (Run.allowance limit)).2.told limit) := by
  cases limit with
  | some limit => rfl
  | none =>
    rw [run, Run.toEnd, Run.allowance]
    rcases (Run.start machine notes).upTo watcher Run.stateCount with ⟨after, outcome⟩
    cases outcome <;> rfl

/-- A run from a machine ends with a machine that it reaches. If no such machine faults, neither
does the run, whatever the limit and the watcher. -/
theorem Machine.run_reaches {Notes : Type} (machine : Machine)
    (safe : ∀ reached, machine.Reaches reached → ∃ next, reached.step = .ok next)
    (watcher : Watcher Notes) (notes : Notes) (limit : Option Int) :
    machine.Reaches (machine.run watcher notes limit).1.machine ∧
      ∀ fault, (machine.run watcher notes limit).2 ≠ .fault fault := by
  have ended := Run.upTo_reaches watcher machine safe (Run.allowance limit)
    (Run.start machine notes) .start
  rw [run_eq]
  refine ⟨ended.1, fun fault => ?_⟩
  rw [Ne, Outcome.told_eq_iff _ _ Outcome.noConfusion Outcome.noConfusion]
  exact ended.2 fault

end Octet
