/-
This file compares a run with a caller who steps the machine by hand, one call
after the other, until there were enough calls, the machine has stopped, or an
instruction is none. Both leave the same machine and the same text, and the
reason for which a run ends can be told from what the caller sees.

What carries the argument is that a run is at every moment where the caller is
after as many calls as the run has taken steps, whoever watches the run. Where
a run ends is then a matter of the caller's machine alone: of two runs from one
machine with one limit, neither of which was paused, both end in the same way.
-/

import Octet.Proofs.Steps

namespace Octet

/-! ### Stepping by hand -/

/-- Where a caller is who steps a machine: the machine, the text printed so far, the number of
instructions executed, and the fault that ended the work, if one did. -/
structure Progress where
  machine : Machine
  printed : String
  steps : Nat
  fault : Option Fault

/-- One more call for a step, unless the machine has stopped or a fault has ended the work. -/
def Progress.call (progress : Progress) : Progress :=
  if progress.machine.halted || progress.fault.isSome then progress
  else
    match progress.machine.step with
    | .ok (machine, text) => ⟨machine, progress.printed ++ text, progress.steps + 1, none⟩
    | .error fault => { progress with fault := some fault }

/-- Where a caller is after so many calls. -/
def Machine.stepped (machine : Machine) : (calls : Nat) → Progress
  | 0 => ⟨machine, "", 0, none⟩
  | calls + 1 => (machine.stepped calls).call

namespace Progress

variable {progress : Progress}

theorem call_of_halted (halted : progress.machine.halted = true) : progress.call = progress := by
  rw [call, halted, Bool.true_or, if_pos rfl]

theorem call_of_fault (faulted : progress.fault.isSome = true) : progress.call = progress := by
  rw [call, faulted, Bool.or_true, if_pos rfl]

/-- A call either changes nothing, or executes an instruction, or meets a fault. -/
theorem call_cases (progress : Progress) :
    progress.call = progress ∨
      (progress.machine.halted = false ∧ progress.fault = none ∧
        ((∃ next text, progress.machine.step = .ok (next, text) ∧
            progress.call = ⟨next, progress.printed ++ text, progress.steps + 1, none⟩) ∨
          ∃ fault, progress.machine.step = .error fault ∧
            progress.call = { progress with fault := some fault })) := by
  cases halted : progress.machine.halted with
  | true => exact Or.inl (call_of_halted halted)
  | false =>
    cases faulted : progress.fault with
    | some fault => exact Or.inl (call_of_fault (by rw [faulted]; rfl))
    | none =>
      refine Or.inr ⟨rfl, rfl, ?_⟩
      rw [call, halted, faulted, Option.isSome_none, Bool.or_false, if_neg Bool.false_ne_true]
      cases progress.machine.step with
      | ok result => exact Or.inl ⟨_, _, rfl, rfl⟩
      | error fault => exact Or.inr ⟨_, rfl, rfl⟩

end Progress

namespace Machine

variable {machine : Machine}

/-- Once a call changes nothing, no later call does. -/
theorem stepped_of_idle {calls more : Nat}
    (idle : (machine.stepped calls).call = machine.stepped calls) (later : calls ≤ more) :
    machine.stepped more = machine.stepped calls := by
  induction later with
  | refl => rfl
  | step _ inductionHypothesis => rw [stepped, inductionHypothesis, idle]

theorem steps_stepped_le (machine : Machine) (calls : Nat) :
    (machine.stepped calls).steps ≤ calls := by
  induction calls with
  | zero => exact Nat.le_refl 0
  | succ calls inductionHypothesis =>
    rw [stepped]
    rcases (machine.stepped calls).call_cases with
      idle | ⟨_, _, ⟨next, text, _, executed⟩ | ⟨fault, _, faulted⟩⟩
    · rw [idle]
      exact Nat.le_succ_of_le inductionHypothesis
    · rw [executed]
      exact Nat.succ_le_succ inductionHypothesis
    · rw [faulted]
      exact Nat.le_succ_of_le inductionHypothesis

/-- If every call up to some point has executed an instruction, then every call before it found a
machine that could execute one. -/
theorem executes_of_steps_eq {calls earlier : Nat}
    (busy : (machine.stepped calls).steps = calls) (before : earlier < calls) :
    (machine.stepped earlier).steps = earlier ∧
      (machine.stepped earlier).machine.halted = false ∧
        ∃ next, (machine.stepped earlier).machine.step = .ok next := by
  induction calls with
  | zero => exact absurd before (Nat.not_lt_zero _)
  | succ calls inductionHypothesis =>
    have bound := machine.steps_stepped_le calls
    rw [stepped] at busy
    rcases (machine.stepped calls).call_cases with
      idle | ⟨running, _, ⟨next, text, executed, called⟩ | ⟨fault, _, called⟩⟩
    · rw [idle] at busy
      omega
    · rw [called] at busy
      have still : (machine.stepped calls).steps = calls := Nat.succ.inj busy
      rcases Nat.lt_succ_iff_lt_or_eq.mp before with less | rfl
      · exact inductionHypothesis still less
      · exact ⟨still, running, _, executed⟩
    · rw [called] at busy
      have same : (machine.stepped calls).steps = calls + 1 := busy
      omega

/-- Going on from where a caller is, is the same as beginning there with the text and the steps of
before. -/
theorem stepped_add {calls : Nat} {middle : Progress} (reached : machine.stepped calls = middle)
    (sound : middle.fault = none) (more : Nat) :
    machine.stepped (calls + more) =
      ⟨(middle.machine.stepped more).machine,
        middle.printed ++ (middle.machine.stepped more).printed,
        middle.steps + (middle.machine.stepped more).steps,
        (middle.machine.stepped more).fault⟩ := by
  induction more with
  | zero =>
    obtain ⟨machine, printed, steps, fault⟩ := middle
    rw [Nat.add_zero, reached]
    simp only at sound
    simp [stepped, sound]
  | succ more inductionHypothesis =>
    rw [← Nat.add_assoc, stepped, inductionHypothesis, stepped]
    simp only [Progress.call]
    split
    · rfl
    · cases (middle.machine.stepped more).machine.step with
      | ok result => simp [String.append_assoc, Nat.add_assoc]
      | error fault => rfl

end Machine

/-! ### A run is where the caller is -/

/-- Where a run is, told without the watcher. -/
def Run.progress {Notes : Type} (run : Run Notes) : Progress :=
  ⟨run.machine, run.printed, run.steps, none⟩

/-- Whether a run with a limit can end in some way with a machine, after so many steps. -/
def Outcome.Fits (machine : Machine) (steps limit : Nat) : Outcome → Prop
  | .stopped => machine.halted = true ∧ steps ≤ limit
  | .stepLimit => machine.halted = false ∧ steps = limit
  | .breakpoint => machine.halted = false ∧ steps < limit
  | .fault found => machine.halted = false ∧ machine.step = .error found ∧ steps < limit
  | .endless => False

namespace Run

variable {Notes : Type}

/-- An instruction that a run executes is one more call. -/
theorem tracks_executed {machine next : Machine} {text : String} {run : Run Notes}
    (tracks : machine.stepped run.steps = run.progress) (running : run.machine.halted = false)
    (executed : run.machine.step = .ok (next, text)) (notes : Notes) :
    machine.stepped (run.steps + 1) =
      (⟨next, notes, run.printed ++ text, run.steps + 1⟩ : Run Notes).progress := by
  rw [Machine.stepped, tracks, Progress.call]
  simp [progress, running, executed]

variable (watcher : Watcher Notes)

/-- A run stays where the caller is after as many calls as the run has taken steps. -/
theorem upTo_tracks (machine : Machine) (limit : Nat) (run : Run Notes)
    (tracks : machine.stepped run.steps = run.progress) :
    machine.stepped (run.upTo watcher limit).1.steps = (run.upTo watcher limit).1.progress := by
  induction limit generalizing run with
  | zero => exact tracks
  | succ limit inductionHypothesis =>
    rw [upTo]
    generalize turned : run.turn watcher = result
    cases turned ▸ turns_turn watcher run with
    | stopped | paused | faulted => exact tracks
    | executed running _ executed =>
      exact inductionHypothesis _ (tracks_executed tracks running executed _)

/-- A run ends in a way that fits the machine it ends with. -/
theorem upTo_fits (limit : Nat) (run : Run Notes) :
    (run.upTo watcher limit).2.Fits (run.upTo watcher limit).1.machine
      (run.upTo watcher limit).1.steps (run.steps + limit) := by
  induction limit generalizing run with
  | zero =>
    rw [upTo]
    cases halted : run.machine.halted with
    | true => exact ⟨halted, Nat.le_refl _⟩
    | false => exact ⟨halted, rfl⟩
  | succ limit inductionHypothesis =>
    rw [upTo]
    generalize turned : run.turn watcher = result
    have less : run.steps < run.steps + (limit + 1) := Nat.lt_add_of_pos_right (Nat.succ_pos _)
    cases turned ▸ turns_turn watcher run with
    | stopped halted => exact ⟨halted, Nat.le_of_lt less⟩
    | paused running _ => exact ⟨running, less⟩
    | faulted running _ unknown => exact ⟨running, unknown, less⟩
    | executed =>
      rw [Nat.add_comm limit, ← Nat.add_assoc]
      exact inductionHypothesis _

/-- A watcher who lets every run go on pauses none. -/
theorem upTo_ne_breakpoint (patient : ∀ notes machine, (watcher.ask notes machine).2 = true)
    (limit : Nat) (run : Run Notes) : (run.upTo watcher limit).2 ≠ .breakpoint := by
  induction limit generalizing run with
  | zero =>
    rw [upTo]
    split <;> exact Outcome.noConfusion
  | succ limit inductionHypothesis =>
    rw [upTo]
    generalize turned : run.turn watcher = result
    cases turned ▸ turns_turn watcher run with
    | stopped | faulted => exact Outcome.noConfusion
    | paused _ refused =>
      have allowed := patient run.notes run.machine
      rw [refused] at allowed
      cases allowed
    | executed => exact inductionHypothesis _

end Run

/-! ### How a run ends -/

namespace Outcome

variable {machine : Machine} {steps limit : Nat} {outcome other : Outcome}

theorem Fits.steps_le (fits : outcome.Fits machine steps limit) : steps ≤ limit := by
  cases outcome with
  | stopped => exact fits.2
  | stepLimit => exact Nat.le_of_eq fits.2
  | breakpoint => exact Nat.le_of_lt fits.2
  | fault => exact Nat.le_of_lt fits.2.2
  | endless => exact fits.elim

/-- With a machine that has stopped a run ends because it has. -/
theorem Fits.eq_stopped (fits : outcome.Fits machine steps limit)
    (halted : machine.halted = true) : outcome = .stopped := by
  cases outcome with
  | stopped => rfl
  | endless => exact fits.elim
  | _ => exact absurd halted (Bool.eq_false_iff.mp fits.1)

/-- A run that was not paused ends in the one way that fits the machine and the number of steps. -/
theorem Fits.unique (fits : outcome.Fits machine steps limit)
    (otherFits : other.Fits machine steps limit) (unpaused : outcome ≠ .breakpoint)
    (otherUnpaused : other ≠ .breakpoint) : outcome = other := by
  cases outcome with
  | stopped => exact (otherFits.eq_stopped fits.1).symm
  | stepLimit =>
    cases other with
    | stepLimit => rfl
    | stopped => exact fits.eq_stopped otherFits.1
    | fault => exact absurd fits.2 (Nat.ne_of_lt otherFits.2.2)
    | breakpoint => exact absurd rfl otherUnpaused
    | endless => exact otherFits.elim
  | fault fault =>
    cases other with
    | fault => rw [Except.error.inj (fits.2.1.symm.trans otherFits.2.1)]
    | stopped => exact fits.eq_stopped otherFits.1
    | stepLimit => exact absurd otherFits.2 (Nat.ne_of_lt fits.2.2)
    | breakpoint => exact absurd rfl otherUnpaused
    | endless => exact otherFits.elim
  | breakpoint => exact absurd rfl unpaused
  | endless => exact fits.elim

/-- What fits a run fits the run with some steps in front of it. -/
theorem Fits.behind (fits : outcome.Fits machine steps limit) (before : Nat) :
    outcome.Fits machine (before + steps) (before + limit) := by
  cases outcome with
  | stopped => exact ⟨fits.1, Nat.add_le_add_left fits.2 before⟩
  | stepLimit => exact ⟨fits.1, congrArg (before + ·) fits.2⟩
  | breakpoint => exact ⟨fits.1, Nat.add_lt_add_left fits.2 before⟩
  | fault => exact ⟨fits.1, fits.2.1, Nat.add_lt_add_left fits.2.2 before⟩
  | endless => exact fits.elim

end Outcome

section

variable {machine : Machine} {limit : Nat} {Notes OtherNotes : Type} {run : Run Notes}
  {other : Run OtherNotes} {outcome otherOutcome : Outcome}

/-- A run that was not paused could not have gone on. -/
theorem Outcome.Fits.not_lt (fits : outcome.Fits run.machine run.steps limit)
    (tracks : machine.stepped run.steps = run.progress) (unpaused : outcome ≠ .breakpoint)
    (otherFits : otherOutcome.Fits other.machine other.steps limit)
    (otherTracks : machine.stepped other.steps = other.progress) : ¬run.steps < other.steps := by
  intro less
  have busy : (machine.stepped other.steps).steps = other.steps :=
    congrArg Progress.steps otherTracks
  obtain ⟨_, running, next, executed⟩ := Machine.executes_of_steps_eq busy less
  rw [tracks] at running executed
  cases outcome with
  | stopped => exact absurd fits.1 (Bool.eq_false_iff.mp running)
  | stepLimit => exact absurd otherFits.steps_le (Nat.not_le_of_lt (fits.2 ▸ less))
  | fault => exact nomatch executed.symm.trans fits.2.1
  | breakpoint => exact absurd rfl unpaused
  | endless => exact fits.elim

/-- Two runs from one machine with one limit, neither of which was paused, end alike. -/
theorem Outcome.Fits.same_end (fits : outcome.Fits run.machine run.steps limit)
    (tracks : machine.stepped run.steps = run.progress) (unpaused : outcome ≠ .breakpoint)
    (otherFits : otherOutcome.Fits other.machine other.steps limit)
    (otherTracks : machine.stepped other.steps = other.progress)
    (otherUnpaused : otherOutcome ≠ .breakpoint) :
    run.progress = other.progress ∧ outcome = otherOutcome := by
  have steps : run.steps = other.steps :=
    Nat.le_antisymm (Nat.le_of_not_lt (otherFits.not_lt otherTracks otherUnpaused fits tracks))
      (Nat.le_of_not_lt (fits.not_lt tracks unpaused otherFits otherTracks))
  have same : run.progress = other.progress := by rw [← tracks, ← otherTracks, steps]
  have machines : run.machine = other.machine := congrArg Progress.machine same
  rw [← steps, ← machines] at otherFits
  exact ⟨same, fits.unique otherFits unpaused otherUnpaused⟩

/-- The fault that a run ended with, if it did. -/
def Outcome.fault? : Outcome → Option Fault
  | .fault found => some found
  | _ => none

/-- After as many calls as the run was allowed to take steps the caller is where the run has
ended, and has met the same fault. -/
theorem Outcome.Fits.stepped_limit (fits : outcome.Fits run.machine run.steps limit)
    (tracks : machine.stepped run.steps = run.progress) (unpaused : outcome ≠ .breakpoint) :
    machine.stepped limit = { run.progress with fault := outcome.fault? } := by
  cases outcome with
  | stopped =>
    have idle : (machine.stepped run.steps).call = machine.stepped run.steps :=
      Progress.call_of_halted (by rw [tracks]; exact fits.1)
    rw [Machine.stepped_of_idle idle fits.2, tracks]
    rfl
  | stepLimit =>
    rw [← fits.2, tracks]
    rfl
  | fault found =>
    have met : machine.stepped (run.steps + 1) = { run.progress with fault := some found } := by
      rw [Machine.stepped, tracks, Progress.call]
      simp [Run.progress, fits.1, fits.2.1]
    have idle : (machine.stepped (run.steps + 1)).call = machine.stepped (run.steps + 1) :=
      Progress.call_of_fault (by rw [met]; rfl)
    rw [Machine.stepped_of_idle idle fits.2.2, met]
    rfl
  | breakpoint => exact absurd rfl unpaused
  | endless => exact fits.elim

end

/-! ### Runs with and without a limit -/

theorem Run.start_fits {Notes : Type} (watcher : Watcher Notes) (machine : Machine)
    (notes : Notes) (limit : Nat) :
    ((Run.start machine notes).upTo watcher limit).2.Fits
      ((Run.start machine notes).upTo watcher limit).1.machine
      ((Run.start machine notes).upTo watcher limit).1.steps limit := by
  have fits := Run.upTo_fits watcher limit (Run.start machine notes)
  rwa [show (Run.start machine notes).steps + limit = limit from Nat.zero_add limit] at fits

namespace Machine

variable {Notes : Type} (machine : Machine) (watcher : Watcher Notes) (notes : Notes)
  (limit : Option Int)

/-- A run is where a caller is after as many calls. -/
theorem run_tracks :
    machine.stepped (machine.run watcher notes limit).1.steps =
      (machine.run watcher notes limit).1.progress := by
  rw [run_eq]
  exact Run.upTo_tracks watcher machine _ _ rfl

/-- A watcher who lets every run go on pauses none, with or without a limit. -/
theorem run_ne_breakpoint (patient : ∀ notes machine, (watcher.ask notes machine).2 = true) :
    (machine.run watcher notes limit).2 ≠ .breakpoint := by
  rw [run_eq, Ne, Outcome.told_eq_iff _ _ Outcome.noConfusion Outcome.noConfusion]
  exact Run.upTo_ne_breakpoint watcher patient _ _

end Machine

/-! ### Runs that nobody watches -/

/-- A run with a limit that nobody watches. -/
abbrev Machine.runFor (machine : Machine) (limit : Nat) : Run Unit × Outcome :=
  machine.run .blind () (some limit)

/-- A run with a limit does what a caller does who steps the machine that often, and its outcome
says how the machine was left. -/
structure Run.Repeats (start : Machine) (limit : Nat) (run : Run Unit) (outcome : Outcome) :
    Prop where
  machine : run.machine = (start.stepped limit).machine
  printed : run.printed = (start.stepped limit).printed
  steps : run.steps = (start.stepped limit).steps
  faults : ∀ fault, outcome = .fault fault ↔ (start.stepped limit).fault = some fault
  stops : outcome = .stopped ↔ ∃ calls ≤ limit, (start.stepped calls).machine.halted = true
  reachesLimit : outcome ≠ .stopped → (start.stepped limit).fault = none →
    outcome = .stepLimit ∧ run.steps = limit
  idle : start.halted = true → outcome = .stopped ∧ run.steps = 0

namespace Machine

variable (machine : Machine)

theorem runFor_tracks (limit : Nat) :
    machine.stepped (machine.runFor limit).1.steps = (machine.runFor limit).1.progress :=
  machine.run_tracks .blind () (some limit)

theorem runFor_fits (limit : Nat) :
    (machine.runFor limit).2.Fits (machine.runFor limit).1.machine
      (machine.runFor limit).1.steps limit :=
  Run.start_fits .blind machine () limit

theorem runFor_ne_breakpoint (limit : Nat) : (machine.runFor limit).2 ≠ .breakpoint :=
  machine.run_ne_breakpoint .blind () (some limit) fun _ _ => rfl

theorem runFor_repeats (limit : Nat) :
    Run.Repeats machine limit (machine.runFor limit).1 (machine.runFor limit).2 := by
  have tracks := machine.runFor_tracks limit
  have fits := machine.runFor_fits limit
  have unpaused := machine.runFor_ne_breakpoint limit
  generalize (machine.runFor limit).1 = run at tracks fits ⊢
  generalize (machine.runFor limit).2 = outcome at fits unpaused ⊢
  have reached := fits.stepped_limit tracks unpaused
  have stops : outcome = .stopped ↔
      ∃ calls ≤ limit, (machine.stepped calls).machine.halted = true := by
    constructor
    · rintro rfl
      exact ⟨run.steps, fits.2, by rw [tracks]; exact fits.1⟩
    · rintro ⟨calls, allowed, halted⟩
      have last := stepped_of_idle (Progress.call_of_halted halted) allowed
      rw [← last, reached] at halted
      exact fits.eq_stopped halted
  refine ⟨by rw [reached]; rfl, by rw [reached]; rfl, by rw [reached]; rfl, fun fault => ?_, stops,
    fun going sound => ?_, fun halted => ?_⟩
  · rw [reached]
    cases outcome with
    | fault found => exact ⟨fun same => congrArg some (Outcome.fault.inj same),
        fun same => congrArg Outcome.fault (Option.some.inj same)⟩
    | _ => exact iff_of_false Outcome.noConfusion (fun same => nomatch same)
  · rw [reached] at sound
    cases outcome with
    | stopped => exact absurd rfl going
    | stepLimit => exact ⟨rfl, fits.2⟩
    | breakpoint => exact absurd rfl unpaused
    | fault => exact nomatch sound
    | endless => exact fits.elim
  · refine ⟨stops.mpr ⟨0, Nat.zero_le _, halted⟩, ?_⟩
    have first : machine.stepped limit = machine.stepped 0 :=
      stepped_of_idle (Progress.call_of_halted halted) (Nat.zero_le _)
    rw [reached] at first
    exact congrArg Progress.steps first

/-- What a run ends with, if nobody watches it, is settled by where it is. -/
theorem runFor_eq {limit : Nat} {run : Run Unit} {outcome : Outcome}
    (tracks : machine.stepped run.steps = run.progress)
    (fits : outcome.Fits run.machine run.steps limit) (unpaused : outcome ≠ .breakpoint) :
    machine.runFor limit = (run, outcome) := by
  have same := (machine.runFor_fits limit).same_end (machine.runFor_tracks limit)
    (machine.runFor_ne_breakpoint limit) fits tracks unpaused
  have runs : (machine.runFor limit).1 = run := by
    have fields := Progress.mk.inj same.1
    generalize (machine.runFor limit).1 = found at fields
    obtain ⟨_, _, _, _⟩ := found
    obtain ⟨_, _, _, _⟩ := run
    simp only at fields
    simp only [fields]
  exact Prod.ext runs same.2

/-- A run that ended with a fault ends with it whatever more is allowed. -/
theorem runFor_add_of_fault {first : Nat} {fault : Fault} (second : Nat)
    (faulted : (machine.runFor first).2 = .fault fault) :
    machine.runFor (first + second) = machine.runFor first := by
  have fits := machine.runFor_fits first
  have still : (machine.runFor first).2.Fits (machine.runFor first).1.machine
      (machine.runFor first).1.steps (first + second) := by
    rw [faulted] at fits ⊢
    exact ⟨fits.1, fits.2.1, Nat.lt_of_lt_of_le fits.2.2 (Nat.le_add_right _ _)⟩
  exact machine.runFor_eq (machine.runFor_tracks first) still (machine.runFor_ne_breakpoint first)

/-- A run that met no fault, and another from where it ended, are together one run. -/
theorem runFor_add {first : Nat} (second : Nat)
    (sound : ∀ fault, (machine.runFor first).2 ≠ .fault fault) :
    machine.runFor (first + second) =
      (⟨((machine.runFor first).1.machine.runFor second).1.machine, (),
        (machine.runFor first).1.printed ++
          ((machine.runFor first).1.machine.runFor second).1.printed,
        (machine.runFor first).1.steps +
          ((machine.runFor first).1.machine.runFor second).1.steps⟩,
        ((machine.runFor first).1.machine.runFor second).2) := by
  have tracks := machine.runFor_tracks first
  have fits := machine.runFor_fits first
  have unpaused := machine.runFor_ne_breakpoint first
  generalize (machine.runFor first).1 = early at tracks fits ⊢
  generalize (machine.runFor first).2 = reason at sound fits unpaused
  have lateTracks := early.machine.runFor_tracks second
  have lateFits := early.machine.runFor_fits second
  have lateUnpaused := early.machine.runFor_ne_breakpoint second
  have idle := (early.machine.runFor_repeats second).idle
  generalize (early.machine.runFor second).1 = late at lateTracks lateFits idle ⊢
  generalize (early.machine.runFor second).2 = ending at lateFits lateUnpaused idle ⊢
  refine machine.runFor_eq ?_ ?_ lateUnpaused
  · rw [stepped_add tracks rfl]
    show Progress.mk (early.machine.stepped late.steps).machine
      (early.printed ++ (early.machine.stepped late.steps).printed)
      (early.steps + (early.machine.stepped late.steps).steps)
      (early.machine.stepped late.steps).fault = _
    rw [lateTracks]
    rfl
  · -- a run that stopped before its limit leaves a machine that takes no further step
    cases reason with
    | stopped =>
      obtain ⟨rfl, none⟩ := idle fits.1
      refine ⟨lateFits.1, ?_⟩
      show early.steps + late.steps ≤ first + second
      rw [none]
      exact Nat.le_add_right_of_le fits.2
    | stepLimit =>
      rw [← fits.2]
      exact lateFits.behind early.steps
    | fault found => exact absurd rfl (sound found)
    | breakpoint => exact absurd rfl unpaused
    | endless => exact fits.elim

end Machine

/-- A run that nobody watches is a step repeated, and runs compose. It leaves what a caller leaves
who steps the machine that often; and running on from where a run ended without a fault is the
same as having allowed the steps of both at once. After a fault more steps change nothing. -/
theorem runs_repeat_steps_and_compose (machine : Machine) :
    (∀ limit : Nat,
      Run.Repeats machine limit (machine.runFor limit).1 (machine.runFor limit).2) ∧
    ∀ first second : Nat,
      let early := machine.runFor first
      let late := early.1.machine.runFor second
      let whole := machine.runFor (first + second)
      (∀ fault, early.2 = .fault fault → whole = early) ∧
        ((∀ fault, early.2 ≠ .fault fault) →
          whole.1.machine = late.1.machine ∧ whole.1.printed = early.1.printed ++ late.1.printed ∧
            whole.1.steps = early.1.steps + late.1.steps ∧ whole.2 = late.2) := by
  refine ⟨machine.runFor_repeats, fun first second => ⟨fun fault faulted => ?_, fun sound => ?_⟩⟩
  · exact machine.runFor_add_of_fault second faulted
  · rw [machine.runFor_add second sound]
    exact ⟨rfl, rfl, rfl, rfl⟩

/-- The limit is reached on the last instruction before a stop, which the next run then executes. -/
theorem runs_compose_at_stop :
    let machine := Machine.ofMemory (((Memory.zero.set 0 0x31).set 1 0x2A).set 2 0x50)
    (∀ fault, (machine.runFor 1).2 ≠ .fault fault) ∧
      (machine.runFor 1).2 = .stepLimit ∧ (machine.runFor 2).2 = .stopped ∧
      (machine.runFor 2).1.steps = 2 ∧ (machine.runFor 2).1.machine.acc = 0x2A := by
  intro machine
  have paused : (machine.runFor 1).2 = .stepLimit := by decide
  have sound : ∀ fault, (machine.runFor 1).2 ≠ .fault fault := by
    intro fault
    rw [paused]
    exact Outcome.noConfusion
  obtain ⟨left, _, steps, outcome⟩ := ((runs_repeat_steps_and_compose machine).2 1 1).2 sound
  refine ⟨sound, paused, outcome.trans (by decide), steps.trans (by decide), ?_⟩
  exact (congrArg Machine.acc left).trans (by decide)

end Octet
