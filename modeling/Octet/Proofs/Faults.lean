/-
This file shows that a fault is atomic and stable. A run that meets one has done
what a caller does who steps the machine by hand up to there, and nothing more:
the fetch of a byte that is no instruction changes neither the machine nor what
was printed. Whoever tries again meets the same fault again, however often he
tries and whatever he looks at in between, until the machine is changed from
outside.

A fault is also the only way to fail. Every other run either returns and tells
the truth about why, or it has no limit and never ends.
-/

import Octet.Machine.Host
import Octet.Proofs.Endless
import Octet.Proofs.Instructions
import Octet.Proofs.Watching

namespace Octet

/-! ### Trying again -/

/-- Whether a host tries to make the machine execute something: with a step, or with a run that
nobody watches and that is allowed one instruction at least. -/
inductive Operation.Tries : Operation → Prop
  | step : Tries .step
  | run (limit : Option Int) (allowed : ∀ count, limit = some count → 1 ≤ count) :
      Tries (.run limit)

/-- Whether a host only looks at the machine. -/
def Operation.Looks : Operation → Prop
  | read _ | block _ _ | string _ | dump _ _ _ | snapshot => True
  | _ => False

/-- A machine is stuck with a fault. The fault tells the program counter and the byte there, which
is in no row of the table. Every try is answered by this fault and leaves the machine as it is,
whatever was tried and looked at before. -/
structure Fault.Stuck (fault : Fault) (machine : Machine) : Prop where
  running : machine.halted = false
  pc : fault.pc = machine.pc.toNat
  opcode : fault.opcode = (machine.memory.get machine.pc).toNat
  unknown : ∀ opcode : Opcode, (opcode.byte.toNat : Int) ≠ fault.opcode
  stable : ∀ operations : List Operation,
    (∀ operation ∈ operations, operation.Tries ∨ operation.Looks) →
      machine.serveAll operations = machine ∧
        ∀ operation : Operation, operation.Tries →
          (machine.serveAll operations).serve operation = ⟨machine, "", .fault fault⟩

namespace Machine

variable {machine : Machine} {fault : Fault}

/-- Only a machine that has not halted meets a fault. -/
theorem running_of_fault (unknown : machine.step = .error fault) : machine.halted = false := by
  cases halted : machine.halted with
  | false => rfl
  | true =>
    rw [machine.step_of_halted halted] at unknown
    cases unknown

/-- A run that nobody watches meets a fault at once and leaves everything as it is. -/
theorem run_of_fault (unknown : machine.step = .error fault) {limit : Option Int}
    (allowed : ∀ count, limit = some count → 1 ≤ count) :
    machine.run .blind () limit = (Run.start machine (), .fault fault) := by
  obtain ⟨more, allowance⟩ := Nat.exists_eq_add_of_le' (Run.le_allowance (by decide) allowed)
  have turned : (Run.start machine ()).turn .blind =
      (Run.start machine (), some (.fault fault)) :=
    Run.Turns.eq_turn (.faulted (running_of_fault unknown) rfl unknown)
  rw [run_eq, allowance, Run.upTo, turned]
  cases limit <;> rfl

theorem serve_of_fault (unknown : machine.step = .error fault) {operation : Operation}
    (tries : operation.Tries) : machine.serve operation = ⟨machine, "", .fault fault⟩ := by
  cases tries with
  | step => rw [serve, unknown]
  | run limit allowed =>
    rw [serve, run_of_fault unknown allowed]
    rfl

theorem serve_of_looks {operation : Operation} (looks : operation.Looks) :
    (machine.serve operation).machine = machine := by
  cases operation with
  | step | run | change => exact looks.elim
  | read | block | string | dump | snapshot => rfl

/-- Neither trying nor looking changes a machine that meets a fault. -/
theorem serveAll_of_fault (unknown : machine.step = .error fault) (operations : List Operation)
    (harmless : ∀ operation ∈ operations, operation.Tries ∨ operation.Looks) :
    machine.serveAll operations = machine := by
  induction operations with
  | nil => rfl
  | cons operation rest inductionHypothesis =>
    rw [List.forall_mem_cons] at harmless
    have kept : (machine.serve operation).machine = machine := by
      rcases harmless.1 with tries | looks
      · rw [serve_of_fault unknown tries]
      · exact serve_of_looks looks
    rw [serveAll, List.foldl_cons, kept]
    exact inductionHypothesis harmless.2

/-- A machine that meets a fault is stuck with it. -/
theorem stuck_of_fault (unknown : machine.step = .error fault) : fault.Stuck machine := by
  have running := running_of_fault unknown
  obtain ⟨absent, rfl⟩ := (machine.step_eq_error_iff running fault).mp unknown
  refine ⟨running, rfl, rfl, fun opcode same => ?_, fun operations harmless => ?_⟩
  · exact absent opcode (UInt8.toNat_inj.mp (Int.ofNat_inj.mp same))
  · have kept := serveAll_of_fault unknown operations harmless
    refine ⟨kept, fun operation tries => ?_⟩
    rw [kept]
    exact serve_of_fault unknown tries

end Machine

/-! ### How a run ends -/

/-- A run has met a fault. It is where a caller is who has stepped the machine as often as the run
has executed an instruction, each time with success, and who meets the fault at the next call. -/
structure Run.Faulted {Notes : Type} (start : Machine) (run : Run Notes) (fault : Fault) :
    Prop where
  tracks : start.stepped run.steps = run.progress
  executed : ∀ calls < run.steps, start.ExecutesAt calls
  faults : start.stepped (run.steps + 1) = { run.progress with fault := some fault }
  stuck : fault.Stuck run.machine

/-- What the outcome of a run accounts for. -/
def Outcome.Accounts {Notes : Type} (start : Machine) (limit : Option Int) (run : Run Notes) :
    Outcome → Prop
  | .stopped => run.machine.halted = true
  | .stepLimit =>
    run.machine.halted = false ∧ ∃ count, limit = some count ∧ run.steps = count.toNat
  | .breakpoint => run.machine.halted = false
  | .fault met => run.Faulted start met
  | .endless => limit = none ∧ ∀ calls, start.ExecutesAt calls

section

variable {machine : Machine} {Notes : Type} {run : Run Notes}

/-- A run that has met a fault is where the caller meets it. -/
theorem Run.Faulted.of_tracks {fault : Fault}
    (tracks : machine.stepped run.steps = run.progress) (running : run.machine.halted = false)
    (unknown : run.machine.step = .error fault) : run.Faulted machine fault where
  tracks := tracks
  executed := fun calls before => by
    have busy : (machine.stepped run.steps).steps = run.steps := congrArg Progress.steps tracks
    exact (Machine.executes_of_steps_eq busy before).2
  faults := by
    rw [Machine.stepped, tracks, Progress.call]
    simp [Run.progress, running, unknown]
  stuck := Machine.stuck_of_fault unknown

/-- A run that was not said to be endless has ended in a way that its outcome accounts for. -/
theorem Outcome.Fits.accounts {limit : Option Int} {outcome : Outcome}
    (fits : outcome.Fits run.machine run.steps (Run.allowance limit))
    (tracks : machine.stepped run.steps = run.progress)
    (ended : outcome.told limit ≠ .endless) :
    (outcome.told limit).Accounts machine limit run := by
  cases outcome with
  | stopped => cases limit <;> exact fits.1
  | stepLimit =>
    cases limit with
    | none => exact absurd rfl ended
    | some count => exact ⟨fits.1, count, rfl, fits.2⟩
  | breakpoint => cases limit <;> exact fits.1
  | fault => cases limit <;> exact .of_tracks tracks fits.1 fits.2.1
  | endless => exact fits.elim

end

/-- The run of a machine ends in a way that its outcome accounts for. -/
theorem Machine.run_accounts {Notes : Type} (machine : Machine) (watcher : Watcher Notes)
    (notes : Notes) (limit : Option Int) :
    (machine.run watcher notes limit).2.Accounts machine limit
      (machine.run watcher notes limit).1 := by
  by_cases endless : (machine.run watcher notes limit).2 = .endless
  · rw [endless]
    exact executesAt_of_endless endless
  · have tracks := machine.run_tracks watcher notes limit
    rw [run_eq] at endless tracks ⊢
    exact (Run.start_fits watcher machine notes _).accounts tracks endless

/-! ### Faults are atomic and stable -/

/-- A step either succeeds or meets a fault, with which the machine is stuck. However a run is
watched and whatever its limit, its outcome accounts for how it has ended; a run that has met a
fault has done what the steps before the fault do, and no more. -/
theorem faults_are_atomic_and_stable (machine : Machine) :
    ((∃ next text, machine.step = .ok (next, text)) ∨
        ∃ fault : Fault, machine.step = .error fault ∧ fault.Stuck machine) ∧
      ∀ (Notes : Type) (watcher : Watcher Notes) (notes : Notes) (limit : Option Int),
        (machine.run watcher notes limit).2.Accounts machine limit
          (machine.run watcher notes limit).1 := by
  refine ⟨?_, fun _ => machine.run_accounts⟩
  cases stepped : machine.step with
  | ok result => exact .inl ⟨result.1, result.2, rfl⟩
  | error fault => exact .inr ⟨fault, rfl, Machine.stuck_of_fault stepped⟩

/-- The byte that the program has just stored behind itself is no instruction. The run executes the
store, and whoever tries again meets the same fault. -/
theorem fault_behind_store :
    let machine := Machine.ofMemory (Memory.zero.load [0x13, 0xFF, 0x03] 0)
    let fault : Fault := ⟨0xFF, 3⟩
    let run := (machine.run .blind () (some 9)).1
    (machine.run .blind () (some 9)).2 = .fault fault ∧ run.steps = 1 ∧
      run.Faulted machine fault ∧ run.machine.memory.get 3 = 0xFF ∧
      (run.machine.serveAll [.step, .snapshot, .run none]).serve .step =
        ⟨run.machine, "", .fault fault⟩ := by
  intro machine fault run
  have met : (machine.run .blind () (some 9)).2 = .fault fault := by decide
  have accounts := (faults_are_atomic_and_stable machine).2 Unit .blind () (some 9)
  rw [met] at accounts
  have stable := accounts.stuck.stable [.step, .snapshot, .run none] fun operation member => by
    simp only [List.mem_cons, List.not_mem_nil, or_false] at member
    rcases member with rfl | rfl | rfl
    · exact .inl .step
    · exact .inr trivial
    · exact .inl (.run none fun _ => nofun)
  exact ⟨met, by decide, accounts, by decide, stable.2 .step .step⟩

end Octet
