/-
This file shows that the image of a program depends on what its statements say
and not on the places where they stand: its size, the addresses of its names,
its code and whether its arguments stand for bytes are those of the statements
that it says.

The same holds for what is wrong with a program, except that a report names
places. Two programs that say the same are compared with the program that is
left when all places are taken away, and nothing but the places of the reports
is lost on the way there.
-/

import Octet.Proofs.Mistakes
import Octet.Proofs.Reading

namespace Octet

variable {program : Program} {statements : List Statement}

/-! ### One statement -/

@[simp]
theorem Statement.bytes_unplaced (address? : String → Option Nat) (statement : Statement) :
    statement.unplaced.bytes address? = statement.bytes address? := by
  cases statement with
  | label name span => rfl
  | byte value => rfl
  | instruction held =>
    simp only [Statement.unplaced, Instruction.unplaced, Statement.bytes, List.mapM_map]
    rfl

@[simp]
theorem Statement.resolved_unplaced (address? : String → Option Nat) (statement : Statement) :
    statement.unplaced.Resolved address? ↔ statement.Resolved address? := by
  cases statement with
  | label name span => exact Iff.rfl
  | byte value => exact Iff.rfl
  | instruction held =>
    simp only [Statement.unplaced, Instruction.unplaced, Statement.Resolved, List.mapM_map]
    exact Iff.rfl

/-! ### All statements of a program -/

theorem Statement.sizes_unplaced (statements : List Statement) :
    Statement.sizes (statements.map Statement.unplaced) = Statement.sizes statements := by
  induction statements with
  | nil => rfl
  | cons statement rest inductionHypothesis =>
    rw [List.map_cons, Statement.sizes_cons, Statement.sizes_cons, statement.size_unplaced,
      inductionHypothesis]

theorem Statement.code_unplaced (address? : String → Option Nat) (statements : List Statement) :
    Statement.code address? (statements.map Statement.unplaced) =
      Statement.code address? statements := by
  simp only [Statement.code, List.flatMap_map, Statement.bytes_unplaced]

theorem Statement.boundFrom?_unplaced (name : String) (start : Nat) (statements : List Statement) :
    Statement.boundFrom? name start (statements.map Statement.unplaced) =
      Statement.boundFrom? name start statements := by
  induction statements generalizing start with
  | nil => rfl
  | cons statement rest inductionHypothesis =>
    rw [List.map_cons, Statement.boundFrom?, Statement.boundFrom?, statement.defined?_unplaced,
      statement.size_unplaced, inductionHypothesis]

namespace Program.Says

/-- A program is as long as the statements that it says. -/
theorem size (meaning : program.Says statements) : program.size = Statement.sizes statements := by
  rw [← Program.sizes_statements, ← Statement.sizes_unplaced, meaning, Statement.sizes_unplaced]

/-- A name is bound where the statements that a program says define it first. -/
theorem address? (meaning : program.Says statements) (name : String) :
    (Image.ofProgram program).labels.address? name =
      Statement.boundFrom? name 0 statements := by
  rw [Image.labels_ofProgram, Program.address?_labels, ← Statement.boundFrom?_unplaced, meaning,
    Statement.boundFrom?_unplaced]

/-- The code of a program is that of the statements that it says. -/
theorem code (meaning : program.Says statements) :
    (Image.ofProgram program).code =
      Statement.code (Image.ofProgram program).labels.address? statements := by
  rw [Image.code_ofProgram, ← Statement.code_unplaced, meaning, Statement.code_unplaced]

theorem defined? (meaning : program.Says statements) :
    program.statements.filterMap Statement.defined? = statements.filterMap Statement.defined? := by
  have unplaced : ∀ list : List Statement, list.filterMap Statement.defined? =
      (list.map Statement.unplaced).filterMap Statement.defined? := by
    intro list
    rw [List.filterMap_map]
    exact congrArg (fun select => list.filterMap select)
      (funext fun statement => statement.defined?_unplaced.symm)
  rw [unplaced, meaning, ← unplaced]

/-- If the statements that a program says define no name twice and all of their arguments stand
for bytes, nothing but the size can be wrong with the program. -/
theorem diagnostics (meaning : program.Says statements)
    (distinct : (statements.filterMap Statement.defined?).Nodup)
    (resolved : ∀ statement ∈ statements,
      statement.Resolved (Image.ofProgram program).labels.address?) :
    (Image.ofProgram program).diagnostics = Image.oversize program := by
  have inTime : program.labels.2 = [] :=
    Labels.late_eq_nil [] 0 program (meaning.defined? ▸ distinct) fun _ _ => rfl
  have right : program.filterMap program.labels.1.mistake? = [] := by
    refine List.filterMap_eq_nil_iff.mpr fun entry member => ?_
    rw [Labels.mistake?_eq_none_iff, ← Statement.resolved_unplaced]
    have listed : entry.statement.unplaced ∈ statements.map Statement.unplaced := by
      rw [← meaning]
      exact List.mem_map_of_mem (List.mem_map_of_mem member)
    obtain ⟨statement, said, same⟩ := List.mem_map.mp listed
    rw [← same, Statement.resolved_unplaced]
    exact resolved statement said
  rw [Image.diagnostics_ofProgram, inTime, right, List.nil_append, List.append_nil]

end Program.Says

/-! ### What is wrong with a program, apart from places -/

/-- What a report says without its place: the kind of the mistake and the message. -/
def Diagnostic.gist (diagnostic : Diagnostic) : Kind × String :=
  (diagnostic.cause.kind, diagnostic.cause.message)

/-- The entry without places. -/
def Entry.unplaced (entry : Entry) : Entry :=
  ⟨entry.statement.unplaced, 0, 0, ""⟩

/-- The program without places. -/
def Program.unplaced (program : Program) : Program :=
  program.map Entry.unplaced

theorem Program.statements_unplaced (program : Program) :
    program.unplaced.statements = program.statements.map Statement.unplaced := by
  rw [Program.unplaced, Program.statements, Program.statements, List.map_map, List.map_map]
  rfl

/-- Without its places a program is what it says. -/
theorem Program.says_unplaced (program : Program) : program.unplaced.Says program.statements := by
  rw [Program.Says, Program.statements_unplaced, List.map_map]
  refine List.map_congr_left fun statement _ => ?_
  cases statement with
  | label name span => rfl
  | byte value => rfl
  | instruction held =>
    simp only [Function.comp, Statement.unplaced, Instruction.unplaced, List.map_map]
    rfl

/-- Programs that say the same are the same without their places. -/
theorem Program.Says.unplaced {again : Program} (meaning : again.Says program.statements) :
    again.unplaced = program.unplaced := by
  have wrapped : ∀ program : Program, program.unplaced =
      (program.statements.map Statement.unplaced).map fun statement => ⟨statement, 0, 0, ""⟩ := by
    intro program
    rw [Program.unplaced, Program.statements, List.map_map, List.map_map]
    rfl
  rw [wrapped, wrapped, meaning]

theorem Program.Says.names (meaning : program.Says statements) :
    program.names = (statements.filterMap Statement.defined?).eraseDups := by
  rw [Program.names, meaning.defined?]

theorem Program.Says.bound? (meaning : program.Says statements) (name : String) :
    Statement.boundFrom? name 0 program.statements = Statement.boundFrom? name 0 statements := by
  rw [← Statement.boundFrom?_unplaced, meaning, Statement.boundFrom?_unplaced]

/-- The labels of programs that say the same are the same, with their addresses and in order. -/
theorem Program.Says.bindings {again : Program} (meaning : again.Says program.statements) :
    again.labels.1.bindings = program.labels.1.bindings := by
  rw [Program.bindings_labels, Program.bindings_labels, meaning.names, Program.names]
  exact List.filterMap_congr fun name _ => by rw [meaning.bound?]

theorem Entry.defines_unplaced (name : String) (entry : Entry) :
    entry.unplaced.defines name = entry.defines name := by
  rw [Entry.defines, Entry.unplaced, Statement.defined?_unplaced, Entry.defines]

theorem Entry.gist_late? (before : Program) (entry : Entry) :
    (entry.unplaced.late? before.unplaced).map Diagnostic.gist =
      (entry.late? before).map Diagnostic.gist := by
  obtain ⟨statement, line⟩ := entry
  cases statement with
  | label name span =>
    have found : before.unplaced.find? (Entry.defines name) =
        (before.find? (Entry.defines name)).map Entry.unplaced := by
      rw [Program.unplaced, List.find?_map]
      exact congrArg (fun test => (before.find? test).map Entry.unplaced)
        (funext fun entry => entry.defines_unplaced name)
    simp only [Entry.unplaced, Statement.unplaced, Entry.late?]
    rw [found]
    cases before.find? (Entry.defines name) with
    | none => rfl
    | some first => rfl
  | byte value => rfl
  | instruction held => rfl

theorem Program.gist_badArg? (program : Program) (arg : Arg) :
    (program.unplaced.badArg? arg.unplaced).map Diagnostic.gist =
      (program.badArg? arg).map Diagnostic.gist := by
  obtain ⟨content, span, bracketed⟩ := arg
  cases content with
  | value number => rfl
  | label name =>
    simp only [Arg.unplaced, Program.badArg?, program.says_unplaced.bound?]
    cases Statement.boundFrom? name 0 program.statements with
    | none => rfl
    | some address =>
      by_cases outside : memorySize ≤ address
      · simp only [if_pos outside]
        rfl
      · simp only [if_neg outside]

theorem Program.gist_badEntry? (program : Program) (entry : Entry) :
    (program.unplaced.badEntry? entry.unplaced).map Diagnostic.gist =
      (program.badEntry? entry).map Diagnostic.gist := by
  obtain ⟨statement, line⟩ := entry
  cases statement with
  | label name span => rfl
  | byte value => rfl
  | instruction held =>
    have gist : ∀ (found : Option Diagnostic) (text : String) (number : Int),
        (found.map (·.onLine text number)).map Diagnostic.gist = found.map Diagnostic.gist := by
      intro found text number
      cases found <;> rfl
    have args : (held.args.map Arg.unplaced).findSome?
        (Option.map Diagnostic.gist ∘ program.unplaced.badArg?) =
          held.args.findSome? (Option.map Diagnostic.gist ∘ program.badArg?) := by
      rw [List.findSome?_map]
      exact congrArg (fun select => held.args.findSome? select)
        (funext fun arg => program.gist_badArg? arg)
    simp only [Entry.unplaced, Statement.unplaced, Instruction.unplaced, Program.badEntry?]
    rw [gist, gist, List.map_findSome?, List.map_findSome?, args]

theorem Program.gists_unplaced (program : Program) :
    program.unplaced.mistakes.map Diagnostic.gist = program.mistakes.map Diagnostic.gist := by
  have size : program.unplaced.size = program.size := by
    rw [program.says_unplaced.size, Program.sizes_statements]
  have late : program.unplaced.lateDefinitions.map Diagnostic.gist =
      program.lateDefinitions.map Diagnostic.gist := by
    rw [Program.lateDefinitions, Program.lateDefinitions, List.map_filterMap, List.map_filterMap,
      Program.unplaced, List.zipIdx_map, List.filterMap_map]
    refine List.filterMap_congr fun (entry, place) _ => ?_
    simp only [Function.comp, Prod.map, id, ← List.map_take]
    exact entry.gist_late? (program.take place)
  have bad : (program.unplaced.filterMap program.unplaced.badEntry?).map Diagnostic.gist =
      (program.filterMap program.badEntry?).map Diagnostic.gist := by
    have entries : program.unplaced.filterMap program.unplaced.badEntry? =
        program.filterMap (program.unplaced.badEntry? ∘ Entry.unplaced) := List.filterMap_map
    rw [entries, List.map_filterMap, List.map_filterMap]
    exact List.filterMap_congr fun entry _ => program.gist_badEntry? entry
  simp only [Program.mistakes, List.map_append, late, bad, Program.excess, size]

/-- The same is wrong with programs that say the same, apart from places. -/
theorem Program.Says.gists {again : Program} (meaning : again.Says program.statements) :
    again.mistakes.map Diagnostic.gist = program.mistakes.map Diagnostic.gist := by
  rw [← again.gists_unplaced, meaning.unplaced, program.gists_unplaced]

end Octet
