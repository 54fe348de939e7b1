/-
This file shows that the switches of the tool that runs programs do not change
the run. A trace is kept by a watcher, and a watcher never disturbs; everything
else that a switch adds goes to the error output, before the run or behind it.
So all command lines that name the same program and the same limit have one
answer, and it is the one that a caller gets who steps the machine by hand up
to a stop, a fault or the limit.

What such a caller has come to is said with the number of calls. There may be
several numbers that lead to the end, since calls behind a stop or a fault
change nothing, but all of them lead to the same end.
-/

import Octet.Proofs.Faults
import Octet.Proofs.Writing
import Octet.Tool.Execute

namespace Octet

/-! ### The end of a run, called by hand -/

namespace Machine

/-- Whether so many calls are within the limit, if there is one. -/
def Within (limit : Option Nat) (calls : Nat) : Prop :=
  ∀ count, limit = some count → calls ≤ count

/-- So many calls lead to the end of a run: to the limit, or to a stop or a fault within it. -/
def Settles (machine : Machine) (limit : Option Nat) (calls : Nat) : Prop :=
  limit = some calls ∨ Within limit calls ∧
    ((machine.stepped calls).machine.halted = true ∨ (machine.stepped calls).fault.isSome = true)

variable {machine : Machine} {limit : Option Nat} {calls other : Nat}

theorem Settles.within (settles : machine.Settles limit calls) : Within limit calls := by
  rcases settles with rfl | ⟨within, _⟩
  · exact fun count same => Nat.le_of_eq (Option.some_inj.mp same)
  · exact within

/-- Behind the end of a run only the limit can allow further calls, and those change nothing. -/
theorem Settles.stepped_eq_of_le (settles : machine.Settles limit calls)
    (alsoSettles : machine.Settles limit other) (later : calls ≤ other) :
    machine.stepped other = machine.stepped calls := by
  rcases settles with rfl | ⟨_, halted | faulted⟩
  · rw [Nat.le_antisymm (alsoSettles.within calls rfl) later]
  · exact stepped_of_idle (Progress.call_of_halted halted) later
  · exact stepped_of_idle (Progress.call_of_fault faulted) later

/-- All numbers of calls that lead to the end of a run lead to the same end. -/
theorem Settles.stepped_eq (settles : machine.Settles limit calls)
    (alsoSettles : machine.Settles limit other) :
    machine.stepped other = machine.stepped calls := by
  rcases Nat.le_total calls other with later | earlier
  · exact settles.stepped_eq_of_le alsoSettles later
  · exact (alsoSettles.stepped_eq_of_le settles earlier).symm

/-- A machine that executes an instruction at every call comes to no end of its own. -/
theorem not_settles_of_executes (busy : ∀ calls, machine.ExecutesAt calls) :
    ¬machine.Settles none calls := by
  rintro (limited | ⟨_, halted | faulted⟩)
  · cases limited
  · exact Bool.false_ne_true ((busy calls).1.symm.trans halted)
  · have sound := (sound_of_executes fun earlier (_ : earlier < calls) => busy earlier).2
    rw [sound] at faulted
    cases faulted

end Machine

/-! ### The end of a run -/

section

variable {machine : Machine} {limit : Option Nat} {calls : Nat} {run : Run Unit}
  {outcome : Outcome}

/-- A run comes to an end if its outcome fits, unless there is no limit and it was not said to
have stopped or to have met a fault. -/
theorem Outcome.Fits.settles
    (fits : outcome.Fits run.machine run.steps (Run.allowance (limit.map Int.ofNat)))
    (tracks : machine.stepped run.steps = run.progress) (unpaused : outcome ≠ .breakpoint)
    (ended : outcome.told (limit.map Int.ofNat) ≠ .endless) :
    ∃ last, machine.Settles limit last ∧
      machine.stepped last = { run.progress with fault := outcome.fault? } := by
  have within : ∀ last, last ≤ Run.allowance (limit.map Int.ofNat) → Machine.Within limit last := by
    rintro last allowed count rfl
    exact allowed
  cases outcome with
  | stopped =>
    refine ⟨run.steps, .inr ⟨within _ fits.2, .inl ?_⟩, tracks⟩
    rw [tracks]
    exact fits.1
  | stepLimit =>
    cases limit with
    | none => exact absurd rfl ended
    | some count => exact ⟨run.steps, .inl (congrArg some fits.2.symm), tracks⟩
  | fault met =>
    have stepped : machine.stepped (run.steps + 1) = { run.progress with fault := some met } :=
      (Run.Faulted.of_tracks tracks fits.1 fits.2.1).faults
    refine ⟨run.steps + 1, .inr ⟨within _ fits.2.2, .inr ?_⟩, stepped⟩
    rw [stepped]
    rfl
  | breakpoint => exact absurd rfl unpaused
  | endless => exact fits.elim

/-- The status of a run tells whether the machine has stopped. -/
theorem Outcome.Fits.status (fits : outcome.Fits run.machine run.steps
      (Run.allowance (limit.map Int.ofNat))) (unpaused : outcome ≠ .breakpoint)
    (ended : outcome.told (limit.map Int.ofNat) ≠ .endless) :
    (Tool.Execute.verdict (limit.map Int.ofNat) run.machine
      (outcome.told (limit.map Int.ofNat))).1 = if run.machine.halted then 0 else 1 := by
  cases outcome with
  | stopped =>
    rw [if_pos fits.1]
    cases limit <;> rfl
  | stepLimit =>
    rw [if_neg (Bool.eq_false_iff.mp fits.1)]
    cases limit with
    | none => exact absurd rfl ended
    | some count => rfl
  | fault met =>
    rw [if_neg (Bool.eq_false_iff.mp fits.1)]
    cases limit <;> rfl
  | breakpoint => exact absurd rfl unpaused
  | endless => exact fits.elim

/-- A run that nobody watches prints what a caller sees printed up to the end of the run, and its
status is zero if the machine has stopped there, and one if not. -/
theorem Machine.run_settles (settles : machine.Settles limit calls) :
    (machine.run .blind () (limit.map Int.ofNat)).1.printed = (machine.stepped calls).printed ∧
      (Tool.Execute.verdict (limit.map Int.ofNat)
        (machine.run .blind () (limit.map Int.ofNat)).1.machine
        (machine.run .blind () (limit.map Int.ofNat)).2).1 =
          if (machine.stepped calls).machine.halted then 0 else 1 := by
  have ended : (machine.run .blind () (limit.map Int.ofNat)).2 ≠ .endless := by
    intro endless
    obtain ⟨unlimited, busy⟩ := executesAt_of_endless endless
    rw [Option.map_eq_none_iff.mp unlimited] at settles
    exact not_settles_of_executes busy settles
  have tracks := machine.run_tracks .blind () (limit.map Int.ofNat)
  have fits := Run.start_fits .blind machine () (Run.allowance (limit.map Int.ofNat))
  have unpaused := Run.upTo_ne_breakpoint .blind (fun _ _ => rfl)
    (Run.allowance (limit.map Int.ofNat)) (Run.start machine ())
  rw [run_eq] at ended tracks ⊢
  obtain ⟨last, alsoSettles, reached⟩ := fits.settles tracks unpaused ended
  rw [alsoSettles.stepped_eq settles, reached]
  exact ⟨rfl, fits.status unpaused ended⟩

end

/-- A machine that has met a fault has not stopped. -/
theorem Machine.halted_of_fault {machine : Machine} {calls : Nat}
    (faulted : (machine.stepped calls).fault.isSome = true) :
    (machine.stepped calls).machine.halted = false := by
  induction calls with
  | zero => cases faulted
  | succ calls inductionHypothesis =>
    rw [stepped] at faulted ⊢
    rcases (machine.stepped calls).call_cases with
      idle | ⟨running, _, ⟨next, text, _, executed⟩ | ⟨fault, _, met⟩⟩
    · rw [idle] at faulted ⊢
      exact inductionHypothesis faulted
    · rw [executed] at faulted
      cases faulted
    · rw [met]
      exact running

/-! ### Answers -/

/-- What a run of a machine answers, a text and a status: all that is printed up to a stop, a
fault or the limit, and zero only for a stop. -/
structure Machine.Answers (machine : Machine) (limit : Option Nat) (printed : String)
    (status : Nat) : Prop where
  stops : ∀ calls, Within limit calls → (machine.stepped calls).machine.halted = true →
    printed = (machine.stepped calls).printed ∧ status = 0
  faults : ∀ calls, Within limit calls → (machine.stepped calls).fault.isSome = true →
    printed = (machine.stepped calls).printed ∧ status = 1
  reachesLimit : ∀ calls, limit = some calls → (machine.stepped calls).machine.halted = false →
    printed = (machine.stepped calls).printed ∧ status = 1
  succeeds : (∃ calls, machine.Settles limit calls) →
    (status = 0 ↔ ∃ calls, Within limit calls ∧ (machine.stepped calls).machine.halted = true)

/-- A text and a status that are right at the end of a run are what the run answers. -/
theorem Machine.answers_of_settles {machine : Machine} {limit : Option Nat} {printed : String}
    {status : Nat}
    (right : ∀ calls, machine.Settles limit calls → printed = (machine.stepped calls).printed ∧
      status = if (machine.stepped calls).machine.halted then 0 else 1) :
    machine.Answers limit printed status where
  stops := fun calls within halted => by
    obtain ⟨text, told⟩ := right calls (.inr ⟨within, .inl halted⟩)
    exact ⟨text, told.trans (if_pos halted)⟩
  faults := fun calls within faulted => by
    obtain ⟨text, told⟩ := right calls (.inr ⟨within, .inr faulted⟩)
    exact ⟨text, told.trans (if_neg (Bool.eq_false_iff.mp (halted_of_fault faulted)))⟩
  reachesLimit := fun calls limited running => by
    obtain ⟨text, told⟩ := right calls (.inl limited)
    exact ⟨text, told.trans (if_neg (Bool.eq_false_iff.mp running))⟩
  succeeds := fun ⟨calls, settles⟩ => by
    refine ⟨fun success => ⟨calls, settles.within, ?_⟩, fun ⟨last, within, halted⟩ => ?_⟩
    · have told := (right calls settles).2
      rw [success] at told
      exact Decidable.byContradiction fun running => by
        rw [if_neg running] at told
        cases told
    · exact (right last (.inr ⟨within, .inl halted⟩)).2.trans (if_pos halted)

/-! ### Command lines -/

namespace Tool.Execute

/-- How a switch is typed. -/
def Switch.word : Switch → String
  | maxSteps => "--max-steps"
  | trace => "--trace"
  | info => "--info"
  | dumpState => "--dump-state"
  | verbose => "--verbose"
  | version => "--version"

/-- The switches that ask for something on the error output. -/
def Switch.telling : List Switch :=
  [trace, info, dumpState, verbose]

/-- A command line: some switches, the limit as it is typed, if there is one, and the path of a
program. -/
def commandLine (switches : List Switch) (typed : Option String) (path : String) : List String :=
  switches.map Switch.word ++
    ((typed.map fun text => [Switch.maxSteps.word, text]).getD [] ++ ["--", path])

/-- The words are those of a command line that is accepted, and it names a program and a limit, or
none. Nothing is said of its other switches. -/
def Launches (tree : FileTree) (path : String) (typed : Option String) (words : List String) :
    Prop :=
  ∃ request, command.read tree words = .accepted request ∧ request.path = path ∧
    request.value? .maxSteps = typed

variable {tree : FileTree} {words rest : List String} {path : String} {typed : Option String}
  {given : List (Given Switch)} {arguments : List String}

/-- A switch in front of a command line is read as itself. -/
theorem read_word {switch : Switch} (tells : switch ∈ Switch.telling)
    (reads : command.table.read rest = .ok (given, arguments)) :
    command.table.read (switch.word :: rest) = .ok (⟨switch, ""⟩ :: given, arguments) := by
  have word : switch.word ≠ "--" ∧ OptionTable.isOption switch.word = true ∧
      command.table.readWord switch.word rest.head? = .ok ([⟨switch, ""⟩], false) := by
    cases switch with
    | maxSteps | version => exact absurd tells (by decide)
    | trace | info | dumpState | verbose =>
      exact ⟨by decide, by decide, by cases rest.head? <;> rfl⟩
  rw [OptionTable.read, if_neg word.1, if_pos word.2.1, word.2.2]
  simp [bind, Except.bind, reads]

/-- The limit in front of a command line is read as it is typed. -/
theorem read_limit (text : String) (reads : command.table.read rest = .ok (given, arguments)) :
    command.table.read (Switch.maxSteps.word :: text :: rest) =
      .ok (⟨.maxSteps, text⟩ :: given, arguments) := by
  have word : Switch.maxSteps.word ≠ "--" ∧ OptionTable.isOption Switch.maxSteps.word = true ∧
      command.table.readWord Switch.maxSteps.word (text :: rest).head? =
        .ok ([⟨.maxSteps, text⟩], true) :=
    ⟨by decide, by decide, rfl⟩
  rw [OptionTable.read, if_neg word.1, if_pos word.2.1, word.2.2]
  simp [bind, Except.bind, reads]

/-- The request that a command line makes. -/
def requestFor (switches : List Switch) (typed : Option String) (path : String) :
    Request Switch :=
  ⟨path, switches.map (⟨·, ""⟩) ++ (typed.map (⟨.maxSteps, ·⟩)).toList⟩

theorem read_commandLine {switches : List Switch}
    (tell : ∀ switch ∈ switches, switch ∈ Switch.telling) :
    command.table.read (commandLine switches typed path) =
      .ok ((requestFor switches typed path).given, [path]) := by
  induction switches with
  | nil =>
    have last : command.table.read ["--", path] = .ok ([], [path]) := by
      rw [OptionTable.read, if_pos rfl]
    cases typed with
    | none => exact last
    | some text => exact read_limit text last
  | cons switch others inductionHypothesis =>
    rw [List.forall_mem_cons] at tell
    exact read_word tell.1 (inductionHypothesis tell.2)

/-- The only value in such a request is the limit. -/
theorem value?_requestFor {switches : List Switch}
    (tell : ∀ switch ∈ switches, switch ∈ Switch.telling) {option : Switch}
    (other : option ∉ Switch.telling) :
    (requestFor switches typed path).value? option =
      if option = .maxSteps then typed else none := by
  have none : (switches.map fun switch => (⟨switch, ""⟩ : Given Switch)).reverse.find?
      (·.option = option) = none := by
    refine List.find?_eq_none.mpr fun one listed => ?_
    obtain ⟨switch, member, rfl⟩ := List.mem_map.mp (List.mem_reverse.mp listed)
    have different : switch ≠ option := fun same => other (same ▸ tell switch member)
    simpa using different
  rw [Request.value?, requestFor, List.reverse_append, List.find?_append, none, Option.or_none]
  cases typed with
  | none => simp
  | some text =>
    by_cases limits : option = .maxSteps
    · subst limits
      rfl
    · have apart : ¬Switch.maxSteps = option := fun same => limits same.symm
      simp [apart, limits]

/-- A command line that asks for a program and a limit that can be read is accepted, with any of
the switches that ask for something on the error output. -/
theorem launches_commandLine {program : List UInt8} (found : tree.find path = .ok (.file program))
    {limit : Option Nat}
    (understood : typed.map (fun text => Text.readDecimal? text.toList) =
      limit.map fun count => some (Int.ofNat count)) {switches : List Switch}
    (tell : ∀ switch ∈ switches, switch ∈ Switch.telling) :
    Launches tree path typed (commandLine switches typed path) := by
  have limited : (requestFor switches typed path).value? .maxSteps = typed :=
    value?_requestFor tell (by decide)
  have asks : command.Asks (commandLine switches typed path)
      (requestFor switches typed path) := by
    refine ⟨read_commandLine tell, ?_⟩
    rw [Request.has, show command.version = Switch.version from rfl,
      value?_requestFor tell (by decide)]
    rfl
  refine ⟨_, asks.read found fun option value given => ?_, rfl, limited⟩
  cases option with
  | maxSteps =>
    rw [limited] at given
    subst given
    cases limit with
    | none => cases understood
    | some count =>
      have read : Text.readDecimal? value.toList = some (Int.ofNat count) :=
        Option.some_inj.mp understood
      show ValueKind.count.complaint? tree value = none
      rw [ValueKind.complaint?, read]
      exact if_neg (Int.not_lt_of_ge (Int.natCast_nonneg count))
  | _ => rfl

/-! ### What the tool answers -/

variable {program : List UInt8} {request : Request Switch}

/-- The tracer lets every run go on, whether or not it writes. -/
theorem ask_tracer (wanted : Bool) (written : String) (machine : Machine) :
    ((tracer wanted).ask written machine).2 = true := by
  cases wanted <;> rfl

/-- What the tool prints, and its status, are those of a run that nobody watches. -/
theorem execute_eq (tree : FileTree) (request : Request Switch) (program : List UInt8)
    (machine : Machine) :
    (execute tree request program machine).stdout =
        (machine.run .blind () (request.number? .maxSteps)).1.printed ∧
      (execute tree request program machine).status =
        (verdict (request.number? .maxSteps)
          (machine.run .blind () (request.number? .maxSteps)).1.machine
          (machine.run .blind () (request.number? .maxSteps)).2).1 := by
  have unpaused := machine.run_ne_breakpoint (tracer (request.has .trace)) ""
    (request.number? .maxSteps) (ask_tracer _)
  rw [machine.run_blind (tracer (request.has .trace)) "" _ unpaused]
  exact ⟨rfl, rfl⟩

/-- A command line that is accepted makes the tool act on the program that it names. -/
theorem Launches.run_eq (launches : Launches tree path typed words)
    (found : tree.find path = .ok (.file program)) {limit : Option Nat}
    (understood : typed.map (fun text => Text.readDecimal? text.toList) =
      limit.map fun count => some (Int.ofNat count)) :
    ∃ request : Request Switch, request.number? .maxSteps = limit.map Int.ofNat ∧
      run tree words =
        match Machine.ofProgram program with
        | .error tooLarge => failed tree (.program (Cause.sizeMessage tooLarge.size memorySize))
        | .ok machine => execute tree request program machine := by
  obtain ⟨request, accepted, rfl, rfl⟩ := launches
  refine ⟨request, ?_, ?_⟩
  · rw [Request.number?]
    cases given : request.value? .maxSteps with
    | none =>
      rw [given] at understood
      cases limit with
      | none => rfl
      | some count => cases understood
    | some text =>
      rw [given] at understood
      cases limit with
      | none => cases understood
      | some count => exact Option.some_inj.mp understood
  · have read : tree.read request.path = .ok program := by rw [FileTree.read, found]
    rw [run, Command.run, accepted]
    cases loaded : Machine.ofProgram program <;> simp only [act, read, loaded]

end Tool.Execute

/-- The switches of the tool that runs programs do not change the run. All command lines that name
one program and one limit, or none, print the same text and end with the same status; among them is
one for every choice of switches that ask for something on the error output. A program that is too
large answers nothing and a status of one, and any other one answers what its machine does. -/
theorem switches_leave_run_alone {tree : FileTree} {path : String} {program : List UInt8}
    (found : tree.find path = .ok (.file program)) {typed : Option String} {limit : Option Nat}
    (understood : typed.map (fun text => Text.readDecimal? text.toList) =
      limit.map fun count => some (Int.ofNat count)) :
    ∃ printed status,
      (∀ words, Tool.Execute.Launches tree path typed words →
        (Tool.Execute.run tree words).stdout = printed ∧
          (Tool.Execute.run tree words).status = status) ∧
      (∀ switches : List Tool.Execute.Switch,
        (∀ switch ∈ switches, switch ∈ Tool.Execute.Switch.telling) →
          Tool.Execute.Launches tree path typed
            (Tool.Execute.commandLine switches typed path)) ∧
      (memorySize < program.length → printed = "" ∧ status = 1) ∧
      (program.length ≤ memorySize → ∃ machine, Machine.ofProgram program = .ok machine ∧
        machine.Answers limit printed status) := by
  have accepted := fun (switches : List Tool.Execute.Switch)
    (tell : ∀ switch ∈ switches, switch ∈ Tool.Execute.Switch.telling) =>
      Tool.Execute.launches_commandLine found understood tell
  by_cases fits : program.length ≤ memorySize
  · have loaded := Machine.ofProgram_of_length_le fits
    refine ⟨_, _, fun words launches => ?_, accepted,
      fun large => absurd fits (Nat.not_le_of_lt large), fun _ => ⟨_, loaded,
        Machine.answers_of_settles fun _ => Machine.run_settles⟩⟩
    obtain ⟨request, limited, ran⟩ := launches.run_eq found understood
    rw [ran, loaded, ← limited]
    exact Tool.Execute.execute_eq tree request program _
  · have refused : Machine.ofProgram program = .error ⟨program.length⟩ := by
      rw [Machine.ofProgram, Memory.ofProgram, if_neg fits]
      rfl
    refine ⟨"", 1, fun words launches => ?_, accepted, fun _ => ⟨rfl, rfl⟩,
      fun small => absurd small fits⟩
    obtain ⟨request, _, ran⟩ := launches.run_eq found understood
    rw [ran, refused]
    exact ⟨rfl, rfl⟩

/-- A program that prints a letter and then meets a fault, with all switches and with none. -/
theorem switches_leave_fault_alone :
    let tree : FileTree := .ofFiles [] [("letter.bin", [0x40, 0x03, 0xFF, 0x01, 0x41])]
    let report := Tool.Execute.run tree ["--max-steps", "9", "--", "letter.bin"]
    let traced := Tool.Execute.run tree
      ["--trace", "--info", "--dump-state", "--max-steps", "9", "--", "letter.bin"]
    (traced.stdout = report.stdout ∧ traced.status = report.status) ∧
      report.stdout = "A\n" ∧ report.status = 1 := by
  intro tree report traced
  have found : tree.find "letter.bin" = .ok (.file [0x40, 0x03, 0xFF, 0x01, 0x41]) := by
    decide +kernel
  have understood : (some "9").map (fun text => Text.readDecimal? text.toList) =
      (some 9).map fun count => some (Int.ofNat count) := by
    decide +kernel
  obtain ⟨printed, status, same, accepted, _, answers⟩ := switches_leave_run_alone found understood
  obtain ⟨machine, loaded, answered⟩ := answers (by decide)
  obtain rfl := Except.ok.inj loaded
  have plain := same _ (accepted [] fun _ none => absurd none List.not_mem_nil)
  have dressed := same _ (accepted [.trace, .info, .dumpState] (by decide))
  obtain ⟨text, failure⟩ := answered.faults 2
    (fun count limited => by rw [← Option.some_inj.mp limited]; decide) (by decide)
  refine ⟨⟨dressed.1.trans plain.1.symm, dressed.2.trans plain.2.symm⟩, ?_, plain.2.trans failure⟩
  exact plain.1.trans (text.trans (by decide +kernel))

end Octet
