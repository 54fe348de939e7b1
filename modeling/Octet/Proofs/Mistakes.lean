/-
This file shows that encoding a program reports what is wrong with it: all of
it, nothing else, and in one order. Definitions that come too late stand first,
then the size of the program, then the instructions with an argument that
stands for no address.

What is wrong is described without the passes. Whether a definition comes too
late is a question to the entries before it, and where a name is bound is a
question to the statements of the whole program. The first pass answers the
first question from its table of labels, so the invariant of that pass is that
the table knows the entries it has seen: their names in the order of their
first definitions, and the lines of these.
-/

import Mathlib.Data.List.Induction
import Mathlib.Data.List.Nodup
import Octet.Proofs.Encoding

namespace Octet

/-! ### What is wrong with a program -/

/-- Whether an entry defines a name. -/
def Entry.defines (name : String) (entry : Entry) : Bool :=
  entry.statement.defined? = some name

/-- What is wrong with an entry behind some others: it defines a name that one of them defines. -/
def Entry.late? (before : Program) (entry : Entry) : Option Diagnostic :=
  match entry.statement with
  | .label name span =>
    (before.find? (Entry.defines name)).map fun first =>
      ⟨.duplicateLabel name (some first.line.number), span, some entry.line.text,
        some entry.line.number⟩
  | _ => none

namespace Program

/-- The definitions of names that have been defined before, in the order of the program. -/
def lateDefinitions (program : Program) : List Diagnostic :=
  program.zipIdx.filterMap fun (entry, place) => entry.late? (program.take place)

/-- The complaint about a program that is longer than the memory. -/
def excess (program : Program) : List Diagnostic :=
  if memorySize < program.size then [⟨.programTooLarge program.size, none, none, none⟩] else []

/-- The names that a program defines, in the order of their first definitions. -/
def names (program : Program) : List String :=
  (program.statements.filterMap Statement.defined?).eraseDups

/-- What is wrong with an argument of a program: it is a label without a definition, or one that
is defined behind the last address. -/
def badArg? (program : Program) (arg : Arg) : Option Diagnostic :=
  match arg.content with
  | .value _ => none
  | .label name =>
    match Statement.boundFrom? name 0 program.statements with
    | none =>
      some ⟨.undefinedLabel name (Text.suggestions name program.names 3), arg.span, none, none⟩
    | some address =>
      if memorySize ≤ address then some ⟨.outsideMemory name address, arg.span, none, none⟩
      else none

/-- What is wrong with the first bad argument of an instruction, if there is one. -/
def badEntry? (program : Program) (entry : Entry) : Option Diagnostic :=
  match entry.statement with
  | .instruction held =>
    (held.args.findSome? program.badArg?).map (·.onLine entry.line.text entry.line.number)
  | _ => none

/-- Everything that is wrong with a program. -/
def mistakes (program : Program) : List Diagnostic :=
  program.lateDefinitions ++ program.excess ++ program.filterMap program.badEntry?

end Program

/-! ### The names of a program -/

theorem Program.names_append (before : Program) (entry : Entry) :
    Program.names (before ++ [entry]) =
      before.names ++ entry.statement.defined?.toList.filter (· ∉ before.names) := by
  have added : Program.statements (before ++ [entry]) = before.statements ++ [entry.statement] := by
    rw [Program.statements, List.map_append]
    rfl
  have single : List.filterMap Statement.defined? [entry.statement] =
      entry.statement.defined?.toList := by
    cases defines : entry.statement.defined? with
    | none => rw [List.filterMap_cons_none defines]; rfl
    | some name => rw [List.filterMap_cons_some defines]; rfl
  have alone : ∀ names : List String, (entry.statement.defined?.toList.removeAll names).eraseDups =
      entry.statement.defined?.toList.filter (· ∉ names.eraseDups) := by
    intro names
    cases entry.statement.defined? with
    | none => rfl
    | some name =>
      by_cases known : name ∈ names <;> simp [List.removeAll, List.eraseDups_cons, known]
  rw [Program.names, added, List.filterMap_append, single, List.eraseDups_append, alone]
  rfl

/-- No name of a program is listed twice. -/
theorem Program.nodup_names (program : Program) : program.names.Nodup := by
  induction program using List.reverseRecOn with
  | nil => exact List.nodup_nil
  | append_singleton before entry inductionHypothesis =>
    rw [Program.names_append]
    refine inductionHypothesis.append ?_ fun name listed added => ?_
    · cases entry.statement.defined? with
      | none => exact List.nodup_nil
      | some name => exact (List.nodup_singleton name).filter _
    · exact of_decide_eq_true (List.mem_filter.mp added).2 listed

/-- An entry of a program defines a name exactly if the name is one of the program's. -/
theorem Program.find?_defines_eq_none_iff (program : Program) (name : String) :
    program.find? (Entry.defines name) = none ↔ name ∉ program.names := by
  simp [Program.names, Program.statements, Entry.defines]

/-- The labels with their addresses, in the order of their definitions. -/
def Labels.bindings (labels : Labels) : List (String × Nat) :=
  labels.map fun label => (label.name, label.address)

/-- In a table without repetitions every label is found by its name. -/
theorem Labels.find?_name {labels : Labels} (distinct : (labels.map Label.name).Nodup)
    {label : Label} (member : label ∈ labels) : labels.find? label.name = some label := by
  cases found : labels.find? label.name with
  | none => exact absurd (List.find?_eq_none.mp found label member) (by simp)
  | some other =>
    have same : other.name = label.name := by simpa using List.find?_some found
    rw [List.inj_on_of_nodup_map distinct (List.mem_of_find?_eq_some found) member same]

theorem Labels.find?_eq_none_iff (labels : Labels) (name : String) :
    labels.find? name = none ↔ name ∉ labels.map Label.name := by
  simp [Labels.find?]

/-! ### The first pass knows what it has seen -/

/-- A table of labels knows some entries: it has their names in the order of their first
definitions, and the lines of these. -/
structure Labels.Knows (labels : Labels) (before : Program) : Prop where
  names : labels.map Label.name = before.names
  lines : ∀ name, (labels.find? name).map Label.line =
    (before.find? (Entry.defines name)).map fun first => first.line.number

theorem Labels.knows_nil : Labels.Knows [] [] :=
  ⟨rfl, fun _ => rfl⟩

namespace Labels.Knows

variable {labels : Labels} {before : Program} {entry : Entry}

theorem find?_eq_none_iff (knows : labels.Knows before) (name : String) :
    labels.find? name = none ↔ name ∉ before.names := by
  rw [Labels.find?_eq_none_iff, knows.names]

/-- An entry that defines nothing adds nothing to be known. -/
theorem append_idle (knows : labels.Knows before) (idle : entry.statement.defined? = none) :
    labels.Knows (before ++ [entry]) := by
  refine ⟨?_, fun name => ?_⟩
  · rw [knows.names, Program.names_append, idle]
    exact (List.append_nil _).symm
  · rw [knows.lines, List.find?_append]
    simp [Entry.defines, idle]

/-- A second definition of a name adds nothing to be known. -/
theorem append_late (knows : labels.Knows before) {name : String}
    (defines : entry.statement.defined? = some name) (listed : name ∈ before.names) :
    labels.Knows (before ++ [entry]) := by
  refine ⟨?_, fun other => ?_⟩
  · rw [knows.names, Program.names_append, defines]
    simp [listed]
  · rw [knows.lines, List.find?_append]
    by_cases same : name = other
    · subst same
      have found : before.find? (Entry.defines name) ≠ none :=
        fun none => (before.find?_defines_eq_none_iff name).mp none listed
      obtain ⟨first, found⟩ := Option.ne_none_iff_exists'.mp found
      rw [found, Option.some_or]
    · simp [Entry.defines, defines, same]

/-- A first definition makes its name known. -/
theorem append_first (knows : labels.Knows before) {name : String} (address : Nat)
    (defines : entry.statement.defined? = some name) (fresh : name ∉ before.names) :
    Labels.Knows (labels ++ [⟨name, address, entry.line.number⟩]) (before ++ [entry]) := by
  refine ⟨?_, fun other => ?_⟩
  · rw [List.map_append, knows.names, Program.names_append, defines]
    simp [fresh]
  · have lines := knows.lines other
    rw [Labels.find?] at lines ⊢
    rw [List.find?_append, List.find?_append, Option.map_or, Option.map_or, lines]
    by_cases same : name = other <;> simp [Entry.defines, defines, same]

/-- Having seen some entries, the first pass reports about the others exactly the definitions of
names that have been defined before, and knows them all in the end. -/
theorem collect (knows : labels.Knows before) (address : Nat) (rest : Program) :
    (Labels.collect labels (rest.placedFrom address)).1.Knows (before ++ rest) ∧
      (Labels.collect labels (rest.placedFrom address)).2 =
        (rest.zipIdx before.length).filterMap fun (entry, place) =>
          entry.late? ((before ++ rest).take place) := by
  induction rest generalizing labels before address with
  | nil => exact ⟨(List.append_nil before).symm ▸ knows, rfl⟩
  | cons entry rest inductionHypothesis =>
    have further : before ++ entry :: rest = (before ++ [entry]) ++ rest := by
      rw [List.append_assoc, List.singleton_append]
    have place : before.length + 1 = (before ++ [entry]).length := by
      rw [List.length_append, List.length_singleton]
    have seen : ((before ++ [entry]) ++ rest).take before.length = before := by
      rw [← further, List.take_left]
    rw [List.zipIdx_cons, List.filterMap_cons, place, further]
    simp only [seen]
    obtain ⟨statement, line⟩ := entry
    cases statement with
    | label name span =>
      have defines : (⟨.label name span, line⟩ : Entry).statement.defined? = some name := rfl
      by_cases listed : name ∈ before.names
      · have again := inductionHypothesis (knows.append_late defines listed) address
        obtain ⟨first, known⟩ := Option.ne_none_iff_exists'.mp
          fun none => (knows.find?_eq_none_iff name).mp none listed
        obtain ⟨earlier, found, line⟩ : ∃ earlier, before.find? (Entry.defines name) =
            some earlier ∧ earlier.line.number = first.line :=
          Option.map_eq_some_iff.mp (by rw [← knows.lines, known, Option.map_some])
        simp only [Program.placedFrom, Labels.collect, known, Entry.late?, found, Option.map_some,
          line]
        exact ⟨again.1, congrArg _ again.2⟩
      · have again := inductionHypothesis (knows.append_first address defines listed) address
        have fresh := (knows.find?_eq_none_iff name).mpr listed
        have unseen := (before.find?_defines_eq_none_iff name).mpr listed
        simp only [Program.placedFrom, Labels.collect, fresh, Entry.late?, unseen, Option.map_none]
        exact again
    | byte value => exact inductionHypothesis (knows.append_idle rfl) _
    | instruction held => exact inductionHypothesis (knows.append_idle rfl) _

end Labels.Knows

namespace Program

variable (program : Program)

theorem knows_labels : program.labels.1.Knows program ∧
    program.labels.2 = program.lateDefinitions :=
  Labels.knows_nil.collect 0 program

/-- The labels of a program are its names, in the order of their first definitions, each bound to
the place of the first. -/
theorem bindings_labels : program.labels.1.bindings = program.names.filterMap fun name =>
    (Statement.boundFrom? name 0 program.statements).map (name, ·) := by
  have names := program.knows_labels.1.names
  have distinct : (program.labels.1.map Label.name).Nodup := names ▸ program.nodup_names
  rw [← names, List.filterMap_map, Labels.bindings, ← List.filterMap_eq_map]
  refine List.filterMap_congr fun label member => ?_
  simp only [Function.comp, ← program.address?_labels, Labels.address?,
    Labels.find?_name distinct member, Option.map_some]

/-! ### The second pass reports the first bad argument of an instruction -/

/-- An argument is resolved exactly if nothing is wrong with it. -/
theorem resolve_eq (arg : Arg) :
    (∃ number, program.labels.1.resolve arg = .ok number ∧ program.badArg? arg = none) ∨
      ∃ diagnostic, program.labels.1.resolve arg = .error diagnostic ∧
        program.badArg? arg = some diagnostic := by
  obtain ⟨content, span, bracketed⟩ := arg
  cases content with
  | value number => exact Or.inl ⟨number, rfl, rfl⟩
  | label name =>
    have bound := program.address?_labels name
    rw [Labels.address?] at bound
    simp only [Labels.resolve, badArg?, ← bound, program.knows_labels.1.names]
    cases program.labels.1.find? name with
    | none => exact Or.inr ⟨_, rfl, rfl⟩
    | some label =>
      by_cases inside : label.address < memorySize
      · exact Or.inl ⟨label.address, by simp only [if_pos inside],
          by simp only [Option.map_some, if_neg (Nat.not_le_of_lt inside)]⟩
      · refine Or.inr ⟨⟨.outsideMemory name label.address, span, none, none⟩, ?_, ?_⟩
        · simp only [if_neg inside]
        · simp only [Option.map_some, if_pos (Nat.le_of_not_lt inside)]

/-- Resolving arguments one after the other fails with what is wrong with the first bad one. -/
theorem mapM_resolve_eq (args : List Arg) :
    (∃ numbers, args.mapM program.labels.1.resolve = .ok numbers ∧
      args.findSome? program.badArg? = none) ∨
      ∃ diagnostic, args.mapM program.labels.1.resolve = .error diagnostic ∧
        args.findSome? program.badArg? = some diagnostic := by
  induction args with
  | nil => exact Or.inl ⟨[], rfl, rfl⟩
  | cons arg rest inductionHypothesis =>
    rw [List.mapM_cons, List.findSome?_cons]
    rcases program.resolve_eq arg with ⟨number, resolved, right⟩ | ⟨diagnostic, failed, wrong⟩
    · rw [resolved, right]
      rcases inductionHypothesis with ⟨numbers, others, clean⟩ | ⟨diagnostic, failed, wrong⟩
      · exact Or.inl ⟨number :: numbers, by rw [others]; rfl, clean⟩
      · exact Or.inr ⟨diagnostic, by rw [failed]; rfl, wrong⟩
    · exact Or.inr ⟨diagnostic, by rw [failed]; rfl, by rw [wrong]⟩

theorem mistake?_labels (entry : Entry) :
    program.labels.1.mistake? entry = program.badEntry? entry := by
  obtain ⟨statement, line⟩ := entry
  cases statement with
  | label name span => rfl
  | byte value => rfl
  | instruction held =>
    simp only [Labels.mistake?, Labels.encode, badEntry?]
    rcases program.mapM_resolve_eq held.args with ⟨numbers, resolved, clean⟩ |
      ⟨diagnostic, failed, wrong⟩
    · rw [resolved, clean]
      rfl
    · rw [failed, wrong]
      rfl

theorem oversize_eq_excess : Image.oversize program = program.excess := by
  unfold Image.oversize excess
  by_cases fits : program.size ≤ memorySize
  · rw [if_pos fits, if_neg (Nat.not_lt_of_le fits)]
  · rw [if_neg fits, if_pos (Nat.lt_of_not_le fits)]

/-- What encoding a program finds wrong is what is wrong with it. -/
theorem diagnostics_eq_mistakes : (Image.ofProgram program).diagnostics = program.mistakes := by
  rw [Image.diagnostics_ofProgram, program.knows_labels.2, oversize_eq_excess, mistakes,
    funext program.mistake?_labels]

end Program

/-! ### Exactly the right mistakes are reported -/

theorem Image.result_eq_error_iff (image : Image) (diagnostics : List Diagnostic) :
    image.result = .error diagnostics ↔
      diagnostics ≠ [] ∧ diagnostics = image.diagnostics := by
  rw [result]
  cases image.diagnostics with
  | nil => simp
  | cons first others =>
    constructor
    · rintro ⟨⟩
      exact ⟨List.cons_ne_nil _ _, rfl⟩
    · rintro ⟨_, rfl⟩
      rfl

/-- What comes out of an image depends on its code and on what is wrong, seen as one likes. -/
theorem Image.result_mapError_eq {Report : Type} (report : Diagnostic → Report)
    {image other : Image} (code : image.code = other.code)
    (same : image.diagnostics.map report = other.diagnostics.map report) :
    image.result.mapError (List.map report) = other.result.mapError (List.map report) := by
  rw [result, result, code]
  generalize image.diagnostics = wrong at same ⊢
  generalize other.diagnostics = wrongOther at same ⊢
  cases wrong with
  | nil =>
    obtain rfl := List.map_eq_nil_iff.mp same.symm
    rfl
  | cons first others =>
    obtain ⟨second, more, rfl, -⟩ := List.map_eq_cons_iff.mp same.symm
    exact congrArg Except.error same

/-- Encoding a program fails exactly if something is wrong with it, and then it reports just
that: the definitions that come too late, then the size, then for each instruction its first
argument that stands for no address. -/
theorem encoding_reports_mistakes (program : Program) (diagnostics : List Diagnostic) :
    (Image.ofProgram program).result = .error diagnostics ↔
      diagnostics ≠ [] ∧ diagnostics = program.mistakes := by
  rw [Image.result_eq_error_iff, program.diagnostics_eq_mistakes]

/-- An instruction is reported once, however many of its arguments are bad. -/
example :
    let move : Instruction :=
      ⟨.mov, [⟨.label "here", none, false⟩, ⟨.label "there", none, false⟩], rfl⟩
    let program : Program := [⟨.label "top" none, 0, 0, ".top:"⟩,
      ⟨.label "top" none, 1, 6, ".top:"⟩, ⟨.instruction move, 2, 12, "mov here there"⟩]
    program.mistakes.map (fun diagnostic => (diagnostic.cause.message, diagnostic.lineNumber)) =
      [("label 'top' is defined multiple times", some 1), ("undefined label 'here'", some 2)] := by
  decide

end Octet
