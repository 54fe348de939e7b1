/-
This file shows that the names of labels do not matter. A name is looked up in
the table of labels and compared with nothing else, so a renaming that keeps
apart the names of a program finds the same definitions. Both passes go through
the renamed program as they go through the program, one step after the other.

Two things do depend on spelling: the order in which a table is sorted, and the
names that a report suggests for one without a definition. The table that is
compared here is the one in the order of definitions, and reports are compared
without their suggestions.
-/

import Mathlib.Data.List.Find
import Octet.Proofs.Relocation

namespace Octet

/-! ### Renaming -/

section

variable (rename : String → String)

/-- The content with its name renamed. -/
def Content.renamed : Content → Content
  | .value number => .value number
  | .label name => .label (rename name)

/-- The argument with its name renamed. -/
def Arg.renamed (arg : Arg) : Arg :=
  { arg with content := arg.content.renamed rename }

/-- The instruction with the names of its arguments renamed. -/
def Instruction.renamed (held : Instruction) : Instruction :=
  ⟨held.opcode, held.args.map (Arg.renamed rename), by rw [List.length_map]; exact held.complete⟩

/-- The statement with the name that it defines and those that it mentions renamed. -/
def Statement.renamed : Statement → Statement
  | .label name span => .label (rename name) span
  | .byte value => .byte value
  | .instruction held => .instruction (held.renamed rename)

/-- The entry with its names renamed, on the same line. -/
def Entry.renamed (entry : Entry) : Entry :=
  { entry with statement := entry.statement.renamed rename }

/-- The program with all of its names renamed. -/
def Program.renamed (program : Program) : Program :=
  program.map (Entry.renamed rename)

/-- The label with another name. -/
def Label.renamed (label : Label) : Label :=
  { label with name := rename label.name }

/-- The labels with other names, in the same order. -/
def Labels.renamed (labels : Labels) : Labels :=
  labels.map (Label.renamed rename)

/-- What is wrong, with its names renamed and without the names that resemble one. -/
def Cause.renamed : Cause → Cause
  | .duplicateLabel name firstLine => .duplicateLabel (rename name) firstLine
  | .undefinedLabel name _ => .undefinedLabel (rename name) []
  | .outsideMemory name address => .outsideMemory (rename name) address
  | cause => cause

/-- The mistake with its names renamed and without suggestions. -/
def Diagnostic.renamed (diagnostic : Diagnostic) : Diagnostic :=
  { diagnostic with cause := diagnostic.cause.renamed rename }

/-- The emission with the names in its mistakes renamed. -/
def Emission.renamed (emission : Emission) : Emission :=
  { emission with diagnostics := emission.diagnostics.map (Diagnostic.renamed rename) }

/-- The image with all of its names renamed and without suggestions. -/
def Image.renamed (image : Image) : Image :=
  { image with
    labels := image.labels.renamed rename
    diagnostics := image.diagnostics.map (Diagnostic.renamed rename) }

end

/-- The names that a statement defines or mentions. -/
def Statement.occurring (statement : Statement) : List String :=
  statement.defined?.toList ++ statement.mentioned

/-- The names that occur in a program. -/
def Program.occurring (program : Program) : List String :=
  program.flatMap fun entry => entry.statement.occurring

/-- The kind of a mistake, and where it was found. -/
def Diagnostic.site (diagnostic : Diagnostic) :
    Kind × Option Span × Option String × Option Int :=
  (diagnostic.cause.kind, diagnostic.span, diagnostic.lineText, diagnostic.lineNumber)

/-! ### What a renaming leaves as it is -/

section

variable {rename : String → String}

@[simp]
theorem Statement.size_renamed (statement : Statement) :
    (statement.renamed rename).size = statement.size := by
  cases statement <;> rfl

theorem Program.size_renamed (program : Program) :
    (program.renamed rename).size = program.size := by
  induction program with
  | nil => rfl
  | cons entry rest inductionHypothesis =>
    have front : (entry.renamed rename).statement.size = entry.statement.size :=
      entry.statement.size_renamed
    rw [Program.renamed, List.map_cons, Program.size, front, Program.size, ← inductionHypothesis]
    rfl

theorem Labels.renamed_id (labels : Labels) : labels.renamed id = labels :=
  List.map_id _

/-- Suggestions are taken away once and for all. -/
theorem Diagnostic.renamed_renamed (diagnostic : Diagnostic) :
    (diagnostic.renamed rename).renamed id = diagnostic.renamed rename := by
  obtain ⟨cause, span, text, number⟩ := diagnostic
  cases cause <;> rfl

theorem Diagnostic.site_renamed (diagnostic : Diagnostic) :
    (diagnostic.renamed rename).site = diagnostic.site := by
  obtain ⟨cause, span, text, number⟩ := diagnostic
  cases cause <;> rfl

end

/-! ### The passes over a renamed program -/

section

variable {rename : String → String} {known : Set String}

/-- A name is found in a renamed table where it was found before. -/
theorem Labels.find?_renamed (injective : Set.InjOn rename known) {labels : Labels}
    (listed : ∀ label ∈ labels, label.name ∈ known) {name : String} (occurs : name ∈ known) :
    (labels.renamed rename).find? (rename name) =
      (labels.find? name).map (Label.renamed rename) := by
  rw [Labels.renamed, Labels.find?, Labels.find?, List.find?_map]
  refine congrArg (Option.map (Label.renamed rename)) ?_
  refine List.find?_congr fun label member => ?_
  have same := injective.eq_iff (listed label member) occurs
  simp only [Function.comp, Label.renamed, beq_eq_beq, same]

/-- The first pass binds the renamed names to the same addresses, and the same definitions come
too late. -/
theorem Labels.collect_renamed (injective : Set.InjOn rename known) {labels : Labels}
    (listed : ∀ label ∈ labels, label.name ∈ known) (address : Nat) {program : Program}
    (occur : ∀ name ∈ program.occurring, name ∈ known) :
    Labels.collect (labels.renamed rename) ((program.renamed rename).placedFrom address) =
      ((Labels.collect labels (program.placedFrom address)).1.renamed rename,
        (Labels.collect labels (program.placedFrom address)).2.map
          (Diagnostic.renamed rename)) := by
  induction program generalizing labels address with
  | nil => rfl
  | cons entry rest inductionHypothesis =>
    obtain ⟨statement, line⟩ := entry
    have placed : Program.renamed rename (⟨statement, line⟩ :: rest) =
        ⟨statement.renamed rename, line⟩ :: Program.renamed rename rest := rfl
    rw [Program.occurring, List.flatMap_cons, List.forall_mem_append] at occur
    obtain ⟨here, further⟩ := occur
    rw [placed, Program.placedFrom, Program.placedFrom]
    cases statement with
    | label name span =>
      have occurs : name ∈ known := here name List.mem_cons_self
      have found := Labels.find?_renamed injective listed occurs
      cases first : labels.find? name with
      | none =>
        rw [first] at found
        have more : ∀ label ∈ labels ++ [⟨name, address, line.number⟩], label.name ∈ known :=
          List.forall_mem_append.mpr ⟨listed, List.forall_mem_singleton.mpr occurs⟩
        have added : labels.renamed rename ++ [⟨rename name, address, line.number⟩] =
            Labels.renamed rename (labels ++ [⟨name, address, line.number⟩]) := by
          rw [Labels.renamed, Labels.renamed, List.map_append]
          rfl
        simp only [Statement.renamed, Labels.collect, found, first, Option.map_none, added]
        exact inductionHypothesis more _ further
      | some label =>
        rw [first] at found
        have others := inductionHypothesis listed (address + 0) further
        simp only [Statement.renamed, Labels.collect, found, first, Option.map_some, List.map_cons,
          Statement.size, others]
        rfl
    | byte value => exact inductionHypothesis listed _ further
    | instruction held => exact inductionHypothesis listed _ further

/-- Two computations that agree when their mistakes are changed go on to agree. -/
theorem bind_mapError_eq {Mistake Change First Second : Type}
    {change changeOther : Mistake → Change}
    {one other : Except Mistake First} {next after : First → Except Mistake Second}
    (same : one.mapError change = other.mapError changeOther)
    (further : ∀ value, (next value).mapError change = (after value).mapError changeOther) :
    (one >>= next).mapError change = (other >>= after).mapError changeOther := by
  cases one with
  | error mistake =>
    cases other with
    | error another => exact congrArg Except.error (Except.error.inj same)
    | ok value => cases same
  | ok value =>
    cases other with
    | error mistake => cases same
    | ok another =>
      obtain rfl : value = another := Except.ok.inj same
      exact further value

/-- A renamed argument stands for the same number, or the same is wrong with it. -/
theorem Labels.resolve_renamed (injective : Set.InjOn rename known) {labels : Labels}
    (listed : ∀ label ∈ labels, label.name ∈ known) {arg : Arg}
    (occur : ∀ name ∈ arg.label?, name ∈ known) :
    ((labels.renamed rename).resolve (arg.renamed rename)).mapError (Diagnostic.renamed id) =
      (labels.resolve arg).mapError (Diagnostic.renamed rename) := by
  obtain ⟨content, span, bracketed⟩ := arg
  cases content with
  | value number => rfl
  | label name =>
    have found := Labels.find?_renamed injective listed (occur name rfl)
    simp only [Arg.renamed, Content.renamed, Labels.resolve, found]
    cases labels.find? name with
    | none => rfl
    | some label =>
      by_cases inside : label.address < memorySize
      · simp only [Option.map_some, Label.renamed, if_pos inside]
        rfl
      · simp only [Option.map_some, Label.renamed, if_neg inside]
        rfl

/-- Renamed arguments stand for the same numbers, or the same is wrong with the first bad one. -/
theorem Labels.mapM_resolve_renamed (injective : Set.InjOn rename known) {labels : Labels}
    (listed : ∀ label ∈ labels, label.name ∈ known) {args : List Arg}
    (occur : ∀ name ∈ args.filterMap Arg.label?, name ∈ known) :
    ((args.map (Arg.renamed rename)).mapM (labels.renamed rename).resolve).mapError
        (Diagnostic.renamed id) =
      (args.mapM labels.resolve).mapError (Diagnostic.renamed rename) := by
  induction args with
  | nil => rfl
  | cons arg rest inductionHypothesis =>
    rw [List.filterMap_cons] at occur
    have here : ∀ name ∈ arg.label?, name ∈ known := by
      intro name mentions
      rw [Option.mem_def.mp mentions] at occur
      exact occur name List.mem_cons_self
    have further : ∀ name ∈ rest.filterMap Arg.label?, name ∈ known := by
      cases mentions : arg.label? with
      | none => rwa [mentions] at occur
      | some name =>
        rw [mentions] at occur
        exact fun other member => occur other (List.mem_cons_of_mem _ member)
    rw [List.map_cons, List.mapM_cons, List.mapM_cons]
    refine bind_mapError_eq (Labels.resolve_renamed injective listed here) fun number => ?_
    exact bind_mapError_eq (inductionHypothesis further) fun numbers => rfl

/-- A renamed statement has the same bytes, or the same is wrong with it. -/
theorem Labels.encode_renamed (injective : Set.InjOn rename known) {labels : Labels}
    (listed : ∀ label ∈ labels, label.name ∈ known) {statement : Statement}
    (occur : ∀ name ∈ statement.occurring, name ∈ known) :
    ((labels.renamed rename).encode (statement.renamed rename)).mapError (Diagnostic.renamed id) =
      (labels.encode statement).mapError (Diagnostic.renamed rename) := by
  cases statement with
  | label name span => rfl
  | byte value => rfl
  | instruction held =>
    exact bind_mapError_eq (Labels.mapM_resolve_renamed injective listed occur) fun numbers => rfl

/-- The second pass emits a renamed entry as it emits the entry. -/
theorem Emission.emit_renamed (injective : Set.InjOn rename known) {labels : Labels}
    (listed : ∀ label ∈ labels, label.name ∈ known) {entry : Entry}
    (occur : ∀ name ∈ entry.statement.occurring, name ∈ known) {emission again : Emission}
    (same : again.renamed id = emission.renamed rename) :
    (again.emit (labels.renamed rename) (entry.renamed rename)).renamed id =
      (emission.emit labels entry).renamed rename := by
  obtain ⟨position, code, rows, diagnostics⟩ := emission
  obtain ⟨positionAgain, codeAgain, rowsAgain, diagnosticsAgain⟩ := again
  simp only [Emission.renamed, Emission.mk.injEq] at same
  obtain ⟨rfl, rfl, rfl, mistakes⟩ := same
  have encoded := Labels.encode_renamed injective listed occur
  have line : (entry.renamed rename).line = entry.line := rfl
  have statement : (entry.renamed rename).statement = entry.statement.renamed rename := rfl
  simp only [Emission.emit, line, statement]
  cases outcome : (labels.renamed rename).encode (entry.statement.renamed rename) with
  | ok bytes =>
    cases original : labels.encode entry.statement with
    | ok others =>
      rw [outcome, original] at encoded
      obtain rfl : bytes = others := Except.ok.inj encoded
      simp only [Emission.lay, Emission.note, Emission.renamed, mistakes]
    | error diagnostic =>
      rw [outcome, original] at encoded
      cases encoded
  | error diagnostic =>
    cases original : labels.encode entry.statement with
    | ok bytes =>
      rw [outcome, original] at encoded
      cases encoded
    | error another =>
      rw [outcome, original] at encoded
      have reported : ((diagnostic.onLine entry.line.text entry.line.number).renamed id) =
          (another.onLine entry.line.text entry.line.number).renamed rename :=
        congrArg (·.onLine entry.line.text entry.line.number) (Except.error.inj encoded)
      simp only [Emission.fillTo, Emission.report, Emission.note, Emission.renamed,
        Statement.size_renamed, List.map_append, mistakes, List.map_cons, List.map_nil, reported]

theorem Emission.foldl_emit_renamed (injective : Set.InjOn rename known) {labels : Labels}
    (listed : ∀ label ∈ labels, label.name ∈ known) {program : Program}
    (occur : ∀ name ∈ program.occurring, name ∈ known) {emission again : Emission}
    (same : again.renamed id = emission.renamed rename) :
    ((program.renamed rename).foldl (Emission.emit (labels.renamed rename)) again).renamed id =
      (program.foldl (Emission.emit labels) emission).renamed rename := by
  induction program generalizing emission again with
  | nil => exact same
  | cons entry rest inductionHypothesis =>
    rw [Program.occurring, List.flatMap_cons, List.forall_mem_append] at occur
    rw [Program.renamed, List.map_cons, List.foldl_cons, List.foldl_cons]
    exact inductionHypothesis occur.2 (Emission.emit_renamed injective listed occur.1 same)

/-! ### The image of a renamed program -/

/-- Every label of a program has a name that occurs in it. -/
theorem Program.occurs_of_mem_labels (program : Program) :
    ∀ label ∈ program.labels.1, label.name ∈ program.occurring := by
  intro label member
  have listed : label.name ∈ program.labels.1.map Label.name := List.mem_map_of_mem member
  rw [program.knows_labels.1.names, Program.names, List.mem_eraseDups, List.mem_filterMap] at listed
  obtain ⟨statement, stated, defines⟩ := listed
  obtain ⟨entry, placed, rfl⟩ := List.mem_map.mp stated
  refine List.mem_flatMap.mpr ⟨entry, placed, List.mem_append_left _ ?_⟩
  rw [defines]
  exact List.mem_singleton_self _

/-- The image of a renamed program is that of the program, renamed, but for suggestions. -/
theorem Image.ofProgram_renamed {program : Program}
    (injective : Set.InjOn rename {name | name ∈ program.occurring}) :
    (Image.ofProgram (program.renamed rename)).renamed id =
      (Image.ofProgram program).renamed rename := by
  have collected : (program.renamed rename).labels =
      (program.labels.1.renamed rename, program.labels.2.map (Diagnostic.renamed rename)) :=
    Labels.collect_renamed injective (List.forall_mem_nil _) 0 fun _ occurs => occurs
  have empty : Emission.empty.renamed id = Emission.empty.renamed rename := rfl
  have emitted := Emission.foldl_emit_renamed injective program.occurs_of_mem_labels
    (fun _ occurs => occurs) empty
  obtain ⟨-, code, rows, diagnostics⟩ := Emission.mk.inj emitted
  have late : (program.labels.2.map (Diagnostic.renamed rename)).map (Diagnostic.renamed id) =
      program.labels.2.map (Diagnostic.renamed rename) := by
    rw [List.map_map]
    exact List.map_congr_left fun diagnostic _ => diagnostic.renamed_renamed
  have oversize : (Image.oversize (program.renamed rename)).map (Diagnostic.renamed id) =
      (Image.oversize program).map (Diagnostic.renamed rename) := by
    rw [Image.oversize, Image.oversize, Program.size_renamed]
    split <;> rfl
  simp only [Image.ofProgram, Image.renamed, collected, Labels.renamed_id, code, rows,
    List.map_append, late, oversize, diagnostics]

/-! ### Names do not matter -/

theorem Image.sites_renamed (image : Image) :
    (image.renamed rename).diagnostics.map Diagnostic.site =
      image.diagnostics.map Diagnostic.site := by
  rw [Image.renamed, List.map_map]
  exact List.map_congr_left fun diagnostic _ => diagnostic.site_renamed

/-- Whatever was encoded before, a program and the same program under a renaming that keeps its
names apart are encoded to the same code at the same addresses, whether or not something is wrong.
The labels are renamed and stay in order. Either nothing is wrong with both, or the same number of
mistakes of the same kinds at the same places, which are those of the program but for names and
suggestions. -/
theorem label_names_do_not_matter (image : Image) {program : Program} {rename : String → String}
    (injective : Set.InjOn rename {name | name ∈ program.occurring}) :
    let original := image.next program
    let again := image.next (program.renamed rename)
    again.code = original.code ∧ again.rows = original.rows ∧
      again.labels = original.labels.renamed rename ∧
      again.result.mapError (List.map Diagnostic.site) =
        original.result.mapError (List.map Diagnostic.site) ∧
      again.diagnostics.map (Diagnostic.renamed id) =
        original.diagnostics.map (Diagnostic.renamed rename) := by
  simp only [Image.next_eq]
  have same := Image.ofProgram_renamed injective
  obtain ⟨code, rows, labels, diagnostics⟩ := Image.mk.inj same
  have sites : (Image.ofProgram (program.renamed rename)).diagnostics.map Diagnostic.site =
      (Image.ofProgram program).diagnostics.map Diagnostic.site := by
    rw [← Image.sites_renamed, same, Image.sites_renamed]
  refine ⟨code, rows, ?_, ?_, diagnostics⟩
  · rwa [Labels.renamed_id] at labels
  · exact Image.result_mapError_eq Diagnostic.site code sites

/-- Two names change places. One is defined twice, the other nowhere. -/
theorem swapped_names_do_not_matter :
    let place : Span := ⟨4, 7, by decide⟩
    let jump (name : String) : Statement :=
      .instruction ⟨.jmp, [⟨.label name, some place, false⟩], rfl⟩
    let program : Program :=
      [⟨.label "top" none, 0, 0, ".top:"⟩, ⟨jump "end", 1, 6, "jmp end"⟩,
        ⟨.label "top" none, 2, 14, ".top:"⟩, ⟨jump "top", 3, 20, "jmp top"⟩]
    let swap (name : String) : String := if name = "top" then "end" else "top"
    let again := Image.empty.next (program.renamed swap)
    Set.InjOn swap {name | name ∈ program.occurring} ∧
      again.code = [0, 0, Opcode.jmp.byte, 0] ∧ again.labels = [⟨"end", 0, 0⟩] ∧
      again.result.mapError (List.map Diagnostic.site) =
        (Image.empty.next program).result.mapError (List.map Diagnostic.site) ∧
      (Image.empty.next program).diagnostics.map Diagnostic.site =
        [(.duplicateLabel, none, some ".top:", some 2),
          (.undefinedLabel, some place, some "jmp end", some 1)] := by
  intro place jump program swap again
  have distinct : ∀ first ∈ program.occurring, ∀ second ∈ program.occurring,
      swap first = swap second → first = second := by decide
  have apart : Set.InjOn swap {name | name ∈ program.occurring} :=
    fun first occurs second occursToo => distinct first occurs second occursToo
  obtain ⟨code, -, labels, result, -⟩ := label_names_do_not_matter Image.empty apart
  refine ⟨apart, ?_, ?_, result, by decide +kernel⟩
  · rw [code]
    decide
  · rw [labels]
    decide

end

end Octet
