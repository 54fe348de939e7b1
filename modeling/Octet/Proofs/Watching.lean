/-
This file shows that a watcher sees the execution as it is and never disturbs
it. What a watcher is shown are the machines that a caller passes who steps by
hand: the first before any instruction, each later one behind one more. A run
that the watcher pauses has executed exactly what a run without a watcher
executes up to there, and it can be taken up again with a step.

To speak of what a watcher was shown, its notes are kept together with a record
of the calls. The record is an addition only: without it the run is the one of
the watcher itself.
-/

import Octet.Machine.Breakpoint
import Octet.Proofs.Runs

namespace Octet

/-! ### A record of the calls -/

/-- What a watcher was shown at one time, a program counter and a byte, and whether it let the run go
on. -/
structure Call where
  pc : UInt8
  opcode : UInt8
  goesOn : Bool
deriving DecidableEq

/-- A call at which the watcher was shown the program counter of this machine and the byte there. -/
def Machine.called (machine : Machine) (goesOn : Bool) : Call :=
  ⟨machine.pc, machine.fetched, goesOn⟩

/-- The notes of a watcher with a record of its calls, in order. -/
structure Diary (Notes : Type) where
  notes : Notes
  calls : List Call

/-- The watcher who keeps a record of the calls besides the notes. -/
def Watcher.recorded {Notes : Type} (watcher : Watcher Notes) : Watcher (Diary Notes) where
  look := watcher.look.map fun look diary machine pc opcode =>
    let (notes, goesOn) := look diary.notes machine pc opcode
    (⟨notes, diary.calls ++ [⟨pc, opcode, goesOn⟩]⟩, goesOn)

namespace Run

variable {Notes OtherNotes : Type}

/-- The run with other notes. -/
def mapNotes (change : Notes → OtherNotes) (run : Run Notes) : Run OtherNotes :=
  ⟨run.machine, change run.notes, run.printed, run.steps⟩

/-- What a turn can do is what it does. -/
theorem Turns.eq_turn {watcher : Watcher Notes} {run : Run Notes}
    {result : Run Notes × Option Outcome} (turns : Turns watcher run result) :
    run.turn watcher = result := by
  cases turns with
  | stopped halted => rw [turn, halted, if_pos rfl]
  | paused running refused => simp [turn, running, refused]
  | faulted running allowed unknown =>
    rw [run.machine.step_of_running running] at unknown
    simp [turn, running, allowed, unknown]
  | executed running allowed executed =>
    rw [run.machine.step_of_running running] at executed
    simp [turn, running, allowed, executed]

variable {watcher : Watcher Notes} {other : Watcher OtherNotes} {change : Notes → OtherNotes}

/-- Two watchers who say the same whatever they see, and whose notes stay tied, make the same
turns. -/
theorem turn_mapNotes
    (tied : ∀ notes machine, other.ask (change notes) machine =
      (change (watcher.ask notes machine).1, (watcher.ask notes machine).2)) (run : Run Notes) :
    (run.mapNotes change).turn other =
      ((run.turn watcher).1.mapNotes change, (run.turn watcher).2) := by
  have asked : other.ask (run.mapNotes change).notes (run.mapNotes change).machine =
      (change (watcher.ask run.notes run.machine).1, (watcher.ask run.notes run.machine).2) :=
    tied run.notes run.machine
  generalize turned : run.turn watcher = result
  refine Turns.eq_turn ?_
  cases turned ▸ turns_turn watcher run with
  | stopped halted => exact .stopped halted
  | paused running refused =>
    rw [refused] at asked
    exact .paused running asked
  | faulted running allowed unknown =>
    rw [allowed] at asked
    exact .faulted running asked unknown
  | executed running allowed executed =>
    rw [allowed] at asked
    exact .executed running asked executed

/-- Two such watchers also make the same runs. -/
theorem upTo_mapNotes
    (tied : ∀ notes machine, other.ask (change notes) machine =
      (change (watcher.ask notes machine).1, (watcher.ask notes machine).2))
    (limit : Nat) (run : Run Notes) :
    (run.mapNotes change).upTo other limit =
      ((run.upTo watcher limit).1.mapNotes change, (run.upTo watcher limit).2) := by
  induction limit generalizing run with
  | zero => rfl
  | succ limit inductionHypothesis =>
    rw [upTo, upTo, turn_mapNotes tied]
    rcases run.turn watcher with ⟨after, _ | outcome⟩
    · exact inductionHypothesis after
    · rfl

end Run

/-! ### What is recorded -/

/-- The call at which a run was paused, or behind which it met a fault. -/
def Outcome.lastCall (machine : Machine) : Outcome → List Call
  | .breakpoint => [machine.called false]
  | .fault _ => [machine.called true]
  | .stopped | .stepLimit | .endless => []

/-- A run has called its watcher before each instruction that it executed, showing one machine
after the other, and once more if it was paused or met a fault. -/
def Run.Records {Notes : Type} (states : Nat → Machine) (run : Run (Diary Notes))
    (outcome : Outcome) : Prop :=
  run.notes.calls =
    ((List.range run.steps).map fun steps => (states steps).called true) ++
      outcome.lastCall run.machine

namespace Run

variable {Notes : Type} (look : Notes → Machine → UInt8 → UInt8 → Notes × Bool)

/-- The watcher is shown the program counter of the machine and the byte there. -/
theorem calls_of_ask {look : Notes → Machine → UInt8 → UInt8 → Notes × Bool}
    {diary later : Diary Notes} {machine : Machine} {goesOn : Bool}
    (asked : (Watcher.seeing look).recorded.ask diary machine = (later, goesOn)) :
    later.calls = diary.calls ++ [machine.called goesOn] := by
  obtain ⟨rfl, rfl⟩ := Prod.mk.inj asked
  rfl

/-- A run that has recorded every call so far records every further one. -/
theorem upTo_records (machine : Machine) (limit : Nat) (run : Run (Diary Notes))
    (tracks : machine.stepped run.steps = run.progress)
    (calls : run.notes.calls =
      (List.range run.steps).map fun steps => (machine.stepped steps).machine.called true) :
    (run.upTo (Watcher.seeing look).recorded limit).1.Records (fun steps => (machine.stepped steps).machine)
      (run.upTo (Watcher.seeing look).recorded limit).2 := by
  induction limit generalizing run with
  | zero =>
    rw [upTo]
    split <;> exact calls.trans (List.append_nil _).symm
  | succ limit inductionHypothesis =>
    rw [upTo]
    generalize turned : run.turn (Watcher.seeing look).recorded = result
    cases turned ▸ turns_turn (Watcher.seeing look).recorded run with
    | stopped => exact calls.trans (List.append_nil _).symm
    -- a pause and a fault are behind a call of their own, with no instruction behind it
    | paused _ refused =>
      rw [Records, calls_of_ask refused, calls]
      rfl
    | faulted _ allowed _ =>
      rw [Records, calls_of_ask allowed, calls]
      rfl
    | executed running allowed executed =>
      refine inductionHypothesis _ (tracks_executed tracks running executed _) ?_
      have shown : (machine.stepped run.steps).machine = run.machine := by
        rw [tracks]
        rfl
      rw [calls_of_ask allowed, calls, List.range_succ, List.map_append, List.map_singleton,
        shown]

end Run

namespace Outcome

variable (limit : Option Int) (outcome : Outcome)

theorem lastCall_told (machine : Machine) :
    (outcome.told limit).lastCall machine = outcome.lastCall machine := by
  cases limit <;> cases outcome <;> rfl

/-- A pause or a fault is behind a call of its own. -/
theorem length_lastCall (machine : Machine) :
    (outcome.lastCall machine).length =
      if outcome = .breakpoint ∨ outcome.fault?.isSome then 1 else 0 := by
  cases outcome <;> simp [lastCall, fault?]

end Outcome

/-! ### Watched runs -/

namespace Machine

variable {Notes : Type} (machine : Machine) (watcher : Watcher Notes) (notes : Notes)
  (limit : Option Int)

/-- A run that was not paused is the run that nobody watches. -/
theorem run_blind (unpaused : (machine.run watcher notes limit).2 ≠ .breakpoint) :
    machine.run .blind () limit =
      ((machine.run watcher notes limit).1.mapNotes fun _ => (),
        (machine.run watcher notes limit).2) := by
  have tracks := machine.run_tracks watcher notes limit
  rw [run_eq] at unpaused tracks ⊢
  rw [Ne, Outcome.told_eq_iff _ _ Outcome.noConfusion Outcome.noConfusion] at unpaused
  have fits := Run.start_fits watcher machine notes (Run.allowance limit)
  have same : (Run.start machine ()).upTo .blind (Run.allowance limit) =
      (((Run.start machine notes).upTo watcher (Run.allowance limit)).1.mapNotes fun _ => (),
        ((Run.start machine notes).upTo watcher (Run.allowance limit)).2) :=
    machine.runFor_eq tracks fits unpaused
  rw [run_eq machine watcher, same]

/-- A record changes neither what a run does nor the notes of the watcher. -/
theorem run_eq_recorded :
    machine.run watcher notes limit =
      ((machine.run watcher.recorded ⟨notes, []⟩ limit).1.mapNotes Diary.notes,
        (machine.run watcher.recorded ⟨notes, []⟩ limit).2) := by
  have tied : ∀ diary machine, watcher.ask (Diary.notes diary) machine =
      (Diary.notes (watcher.recorded.ask diary machine).1,
        (watcher.recorded.ask diary machine).2) := fun diary machine => by
    rcases watcher with ⟨_ | look⟩ <;> rfl
  have same : (Run.start machine notes).upTo watcher (Run.allowance limit) = _ :=
    Run.upTo_mapNotes tied (Run.allowance limit) (Run.start machine ⟨notes, []⟩)
  rw [run_eq, run_eq, same]

theorem run_records (look : Notes → Machine → UInt8 → UInt8 → Notes × Bool) :
    (machine.run (Watcher.seeing look).recorded ⟨notes, []⟩ limit).1.Records
      (fun steps => (machine.stepped steps).machine)
      (machine.run (Watcher.seeing look).recorded ⟨notes, []⟩ limit).2 := by
  rw [run_eq, Run.Records, Outcome.lastCall_told]
  exact Run.upTo_records look machine _ _ rfl rfl

/-- A run that is paused has not stopped. -/
theorem halted_of_breakpoint (paused : (machine.run watcher notes limit).2 = .breakpoint) :
    (machine.run watcher notes limit).1.machine.halted = false := by
  rw [run_eq] at paused ⊢
  rw [Outcome.told_eq_iff _ _ Outcome.noConfusion Outcome.noConfusion] at paused
  have fits := Run.start_fits watcher machine notes (Run.allowance limit)
  rw [paused] at fits
  exact fits.1

end Machine

/-! ### Taking up a run again -/

/-- A run that was paused is taken up again with a step and a further run, watched by the same
watcher with the notes of before. Together they go on as if the watcher had not been there. -/
structure Run.Resumes {Notes : Type} (start : Machine) (watcher : Watcher Notes)
    (paused : Run (Diary Notes)) : Prop where
  faults : ∀ fault, paused.machine.step = .error fault →
    start.stepped (paused.steps + 1) = { paused.progress with fault := some fault }
  goesOn : ∀ next text, paused.machine.step = .ok (next, text) → ∀ limit : Option Int,
    let resumed := next.run watcher.recorded ⟨paused.notes.notes, []⟩ limit
    start.stepped (paused.steps + 1 + resumed.1.steps) =
        ⟨resumed.1.machine, paused.printed ++ text ++ resumed.1.printed,
          paused.steps + 1 + resumed.1.steps, none⟩ ∧
      resumed.1.Records (fun steps => (start.stepped (paused.steps + 1 + steps)).machine)
        resumed.2 ∧
      (resumed.2 ≠ .breakpoint →
        next.run .blind () limit = (resumed.1.mapNotes fun _ => (), resumed.2))

/-- Every run that has not ended by itself can be taken up again. -/
theorem Run.resumes_of_tracks {Notes : Type} {start : Machine}
    (look : Notes → Machine → UInt8 → UInt8 → Notes × Bool) {paused : Run (Diary Notes)}
    (tracks : start.stepped paused.steps = paused.progress)
    (running : paused.machine.halted = false) : paused.Resumes start (.seeing look) := by
  refine ⟨fun fault unknown => ?_, fun next text executed limit => ?_⟩
  · rw [Machine.stepped, tracks, Progress.call]
    simp [progress, running, unknown]
  · have stepped : start.stepped (paused.steps + 1) =
        ⟨next, paused.printed ++ text, paused.steps + 1, none⟩ :=
      tracks_executed tracks running executed paused.notes
    have behind := Machine.stepped_add stepped rfl
    have records := next.run_records paused.notes.notes limit look
    refine ⟨?_, ?_, next.run_blind (Watcher.seeing look).recorded _ limit⟩
    · rw [behind, next.run_tracks]
      rfl
    · simpa only [behind] using records

/-! ### Observing a run -/

/-- A watched run is the execution as it is, and its record tells of it. The calls show the machines
of a caller who steps by hand, each before its instruction is executed; there is one for each
instruction, and one more at a pause or a fault. -/
structure Run.Observes {Notes : Type} (start : Machine) (watcher : Watcher Notes) (notes : Notes)
    (limit : Option Int) (run : Run (Diary Notes)) (outcome : Outcome) : Prop where
  transparent : start.run watcher notes limit = (run.mapNotes Diary.notes, outcome)
  records : run.Records (fun steps => (start.stepped steps).machine) outcome
  calls : run.notes.calls.length =
    run.steps + if outcome = .breakpoint ∨ outcome.fault?.isSome then 1 else 0
  tracks : start.stepped run.steps = run.progress
  undisturbed : outcome ≠ .breakpoint →
    start.run .blind () limit = (run.mapNotes fun _ => (), outcome)
  patient : (∀ notes machine, (watcher.ask notes machine).2 = true) → outcome ≠ .breakpoint
  resumes : outcome = .breakpoint → run.Resumes start watcher

/-- A watcher observes a run and never disturbs it, whatever it remembers and whenever it asks for a
pause. A run that is not paused is the run that nobody watches; a run that is paused has come as far
as that one had by then, and can be taken up again. -/
theorem watchers_observe_without_disturbing {Notes : Type} (machine : Machine)
    (look : Notes → Machine → UInt8 → UInt8 → Notes × Bool) (notes : Notes) (limit : Option Int) :
    let watcher := Watcher.seeing look
    (machine.run watcher.recorded ⟨notes, []⟩ limit).1.Observes machine watcher notes limit
      (machine.run watcher.recorded ⟨notes, []⟩ limit).2 := by
  intro watcher
  have tracks := machine.run_tracks watcher.recorded ⟨notes, []⟩ limit
  have records := machine.run_records notes limit look
  refine ⟨machine.run_eq_recorded watcher notes limit, records, ?_, tracks,
    machine.run_blind watcher.recorded ⟨notes, []⟩ limit, fun patient => ?_, fun paused => ?_⟩
  · rw [records, List.length_append, List.length_map, List.length_range, Outcome.length_lastCall]
  · exact machine.run_ne_breakpoint watcher.recorded _ limit fun _ _ => patient _ _
  · exact Run.resumes_of_tracks look tracks
      (machine.halted_of_breakpoint watcher.recorded _ limit paused)

/-- A loop is paused when it comes to its jump for the second time, after three instructions and
four calls, and can be taken up again. -/
theorem watcher_pauses_loop :
    let machine := Machine.ofMemory ((((Memory.zero.set 0 0x31).set 1 0x01).set 2 0x20).set 3 0x00)
    let breakpoints : Breakpoints := ⟨[2], [], 1⟩
    let watcher := breakpoints.watcher
    ∃ run, machine.run watcher.recorded ⟨⟨0, []⟩, []⟩ (some 10) = (run, .breakpoint) ∧
      run.steps = 3 ∧ run.notes.calls.map Call.pc = [0, 2, 0, 2] ∧
      (machine.stepped 3).machine = run.machine ∧ run.Resumes machine watcher := by
  intro machine breakpoints watcher
  have observes := watchers_observe_without_disturbing machine breakpoints.look ⟨0, []⟩ (some 10)
  have paused : (machine.run watcher.recorded ⟨⟨0, []⟩, []⟩ (some 10)).2 = .breakpoint := by decide
  have steps : (machine.run watcher.recorded ⟨⟨0, []⟩, []⟩ (some 10)).1.steps = 3 := by decide
  refine ⟨_, Prod.ext rfl paused, steps, by decide, ?_, observes.resumes paused⟩
  rw [← steps]
  exact congrArg Progress.machine observes.tracks

end Octet
