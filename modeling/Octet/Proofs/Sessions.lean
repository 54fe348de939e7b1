/-
This file shows that a session keeps no history. It may be asked to read and to
assemble sources in any order, and some of these may be bad. What it answers is
always what a session answers that has never been asked anything, and what it
keeps of each kind is what the last job left behind that left any.

A job leaves something behind only if its source can be read: reading it leaves
its program, and assembling it leaves its program and its image, whether or not
this can be encoded. The same encoder has made all the images, and it takes
nothing over from one to the next. So an image depends on one source only,
whatever came before.
-/

import Octet.Assembly.Session

namespace Octet

/-! ### Jobs -/

/-- What a session may be asked to do with a source. -/
inductive Job where
  | read (source : String)
  | assemble (source : String)
deriving DecidableEq, Repr

/-- The source that a job is about. -/
def Job.source : Job → String
  | read source | assemble source => source

/-- What comes out of a job. -/
inductive Answer where
  | program (outcome : Except (List Diagnostic) Program)
  | code (outcome : Except (List Diagnostic) (List UInt8))

namespace Session

/-- Does what a job asks for. -/
def serve (session : Session) : Job → Session × Answer
  | .read source =>
    let (after, outcome) := session.read source
    (after, .program outcome)
  | .assemble source =>
    let (after, outcome) := session.assemble source
    (after, .code outcome)

/-- Does what some jobs ask for, one after the other. -/
def serveAll (session : Session) : List Job → Session × List Answer
  | [] => (session, [])
  | job :: rest =>
    let (next, answer) := session.serve job
    let (last, answers) := next.serveAll rest
    (last, answer :: answers)

end Session

/-! ### What one job leaves behind -/

/-- The program that a job leaves behind: that of its source, if this can be read. -/
def Job.program? (job : Job) : Option Program :=
  (Program.ofSource job.source).toOption

/-- The image that a job leaves behind: the one that a fresh session makes of its source, if it
assembles one that can be read. -/
def Job.image? : Job → Option Image
  | read _ => none
  | assemble source =>
    (Program.ofSource source).toOption.map fun _ => (Session.fresh.assemble source).1.image

section

variable {job : Job} {source : String} {program : Program} {diagnostics : List Diagnostic}

theorem Job.program?_of_failed (failed : Program.ofSource job.source = .error diagnostics) :
    job.program? = none := by
  rw [program?, failed]
  rfl

theorem Job.program?_of_parsed (parsed : Program.ofSource job.source = .ok program) :
    job.program? = some program := by
  rw [program?, parsed]
  rfl

theorem Job.image?_of_failed (failed : Program.ofSource job.source = .error diagnostics) :
    job.image? = none := by
  cases job with
  | read source => rfl
  | assemble source =>
    rw [image?, show Program.ofSource source = .error diagnostics from failed]
    rfl

theorem Job.image?_of_parsed (parsed : Program.ofSource source = .ok program) :
    (Job.assemble source).image? = some (Session.fresh.assemble source).1.image := by
  rw [image?, parsed]
  rfl

end

namespace Session

/-- What becomes of a session in one job. -/
inductive Becomes (before : Session) : Job → Session → Prop
  /-- A source that cannot be read leaves everything as it was. -/
  | unread {job : Job} {diagnostics : List Diagnostic}
      (failed : Program.ofSource job.source = .error diagnostics) : Becomes before job before
  /-- Reading a source replaces the program and nothing else. -/
  | read {source : String} {program : Program} (parsed : Program.ofSource source = .ok program) :
      Becomes before (.read source) ⟨some program, before.image⟩
  /-- Assembling a source that can be read leaves what a fresh session would be left with. -/
  | assembled {source : String} {program : Program}
      (parsed : Program.ofSource source = .ok program) :
      Becomes before (.assemble source) ⟨some program, (fresh.assemble source).1.image⟩

/-- A job replaces what it leaves behind, keeps the rest, and is answered as if it were the
first. -/
theorem serve_eq (session : Session) (job : Job) :
    session.serve job =
      (⟨job.program?.or session.program, job.image?.getD session.image⟩,
        (fresh.serve job).2) := by
  cases parsed : Program.ofSource job.source with
  | error diagnostics =>
    rw [Job.program?_of_failed parsed, Job.image?_of_failed parsed]
    cases job with
    | read source | assemble source =>
      replace parsed : Program.ofSource source = .error diagnostics := parsed
      simp only [serve, Session.read, assemble, parsed]
      rfl
  | ok program =>
    rw [Job.program?_of_parsed parsed]
    cases job with
    | read source =>
      replace parsed : Program.ofSource source = .ok program := parsed
      simp only [serve, Session.read, parsed]
      rfl
    | assemble source =>
      replace parsed : Program.ofSource source = .ok program := parsed
      rw [Job.image?_of_parsed parsed]
      simp only [serve, assemble_of_parsed _ parsed]
      rfl

/-- What becomes of a session in one job is what the source of the job lets become of it. -/
theorem serve_becomes (session : Session) (job : Job) :
    session.Becomes job (session.serve job).1 := by
  rw [serve_eq]
  cases parsed : Program.ofSource job.source with
  | error diagnostics =>
    rw [Job.program?_of_failed parsed, Job.image?_of_failed parsed]
    exact .unread parsed
  | ok program =>
    rw [Job.program?_of_parsed parsed]
    cases job with
    | read source => exact .read parsed
    | assemble source =>
      replace parsed : Program.ofSource source = .ok program := parsed
      rw [Job.image?_of_parsed parsed]
      exact .assembled parsed

end Session

/-! ### What some jobs leave behind -/

/-- The last thing that is kept of a list is kept of its tail, or else of its head. -/
theorem getLast?_filterMap_cons {Given Kept : Type} (select : Given → Option Kept) (head : Given)
    (rest : List Given) :
    ((head :: rest).filterMap select).getLast? =
      (rest.filterMap select).getLast?.or (select head) := by
  rw [List.filterMap_cons]
  cases select head with
  | none => exact Option.or_none.symm
  | some kept =>
    rw [List.getLast?_cons]
    cases (rest.filterMap select).getLast? <;> rfl

namespace Session

/-- After some jobs there is the program of the last source that could be read, and the image of
the last of these that was assembled. Each job is answered as if it were the first. -/
theorem serveAll_eq (session : Session) (jobs : List Job) :
    session.serveAll jobs =
      (⟨(jobs.filterMap Job.program?).getLast?.or session.program,
          (jobs.filterMap Job.image?).getLast?.getD session.image⟩,
        jobs.map fun job => (fresh.serve job).2) := by
  induction jobs generalizing session with
  | nil => rfl
  | cons job rest inductionHypothesis =>
    rw [serveAll, serve_eq]
    simp only [inductionHypothesis, getLast?_filterMap_cons, Option.or_assoc, List.map_cons]
    cases (rest.filterMap Job.image?).getLast? <;> rfl

/-- Some jobs and then others are done as if they were asked for together. -/
theorem serveAll_append (session : Session) (earlier later : List Job) :
    session.serveAll (earlier ++ later) =
      (((session.serveAll earlier).1.serveAll later).1,
        (session.serveAll earlier).2 ++ ((session.serveAll earlier).1.serveAll later).2) := by
  induction earlier generalizing session with
  | nil => rfl
  | cons job rest inductionHypothesis =>
    simp only [List.cons_append, serveAll, inductionHypothesis]

end Session

/-! ### Sessions keep no history -/

/-- Sessions keep no history. In any sequence of jobs, each is answered as a fresh session would
answer it, and each leaves behind only what it is meant to: all or nothing, if its source is
assembled, and never an image if it is read. What is left in the end comes from two jobs at most:
the program from the last whose source could be read, and the image from the last of these that
assembled it. -/
theorem sessions_keep_no_history (session : Session) (jobs : List Job) :
    (session.serveAll jobs).2 = jobs.map (fun job => (Session.fresh.serve job).2) ∧
      (∀ earlier job later, jobs = earlier ++ job :: later →
        (session.serveAll earlier).1.Becomes job (session.serveAll (earlier ++ [job])).1) ∧
      (session.serveAll jobs).1.program =
        (jobs.filterMap Job.program?).getLast?.or session.program ∧
      (session.serveAll jobs).1.image =
        (jobs.filterMap Job.image?).getLast?.getD session.image := by
  rw [Session.serveAll_eq]
  refine ⟨rfl, fun earlier job later _ => ?_, rfl, rfl⟩
  rw [Session.serveAll_append]
  exact Session.serve_becomes _ job

/-- The image is that of the one source that is assembled between a source that cannot be encoded
and one that cannot be read, and the program is that of the source read last. -/
theorem sessions_forget_failures :
    let jobs : List Job :=
      [.assemble "jmp far", .read "stop $", .assemble ".a:\nstop", .assemble "%", .read "nop"]
    let session := (Session.fresh.serveAll jobs).1
    session.image = (Session.fresh.assemble ".a:\nstop").1.image ∧ session.image.code = [0x50] ∧
      session.program = some [⟨.instruction ⟨.nop, [], rfl⟩, 0, 0, "nop"⟩] := by
  intro jobs session
  let jump : Program :=
    [⟨.instruction ⟨.jmp, [⟨.label "far", some ⟨4, 7, by decide⟩, false⟩], rfl⟩, 0, 0, "jmp far"⟩]
  let stop : Program :=
    [⟨.label "a" (some ⟨1, 2, by decide⟩), 0, 0, ".a:"⟩,
      ⟨.instruction ⟨.stop, [], rfl⟩, 1, 4, "stop"⟩]
  let idle : Program := [⟨.instruction ⟨.nop, [], rfl⟩, 0, 0, "nop"⟩]
  have kept : (jobs.map Job.program?, jobs.map Job.image?,
      (Session.fresh.assemble ".a:\nstop").1.image) =
      ([some jump, none, some stop, none, some idle],
        [some (Image.ofProgram jump), none, some (Image.ofProgram stop), none, none],
        Image.ofProgram stop) := by
    decide +kernel
  obtain ⟨programs, made⟩ := Prod.mk.inj kept
  obtain ⟨images, alone⟩ := Prod.mk.inj made
  obtain ⟨-, -, program, image⟩ := sessions_keep_no_history Session.fresh jobs
  rw [← Function.id_comp Job.program?, ← List.filterMap_map, programs] at program
  rw [← Function.id_comp Job.image?, ← List.filterMap_map, images] at image
  refine ⟨?_, ?_, program⟩
  · rw [alone]
    exact image
  · show (Session.fresh.serveAll jobs).1.image.code = [0x50]
    rw [image]
    rfl

end Octet
