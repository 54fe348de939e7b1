/-
This file shows that the assembler writes files for those sources only that
assemble. Reading the file, reading its lines and both passes over the program
come before the first file is written, so whatever goes wrong in them leaves the
files alone, and the error output tells all of it.

If nothing goes wrong the files hold the code, the listing and the symbols of
the source. That takes that all of them can be written, and that no two of them,
and none of them and the source, are at one place.
-/

import Octet.Proofs.Mistakes
import Octet.Proofs.Toolchain
import Octet.Proofs.Wellformed

namespace Octet

/-! ### What a bulletin emits -/

/-- A bulletin of which nothing has been emitted emits every diagnostic, in order. -/
theorem Bulletin.emit_ofDiagnostics (colouring : Colouring) (diagnostics : List Diagnostic) :
    ((ofDiagnostics diagnostics).emit colouring).2.1 =
      String.join (diagnostics.map (·.emitted colouring)) := by
  induction diagnostics with
  | nil => rfl
  | cons diagnostic rest inductionHypothesis =>
    rw [List.map_cons, String.join_cons, ← inductionHypothesis]
    rfl

/-! ### Sources with mistakes -/

/-- If a source cannot be read, something is wrong with its lines, and all of it is reported. -/
theorem Program.survey_of_error {source : String} {diagnostics : List Diagnostic}
    (failed : Program.ofSource source = .error diagnostics) :
    (Program.survey source).2 = diagnostics ∧ diagnostics ≠ [] := by
  rw [Program.ofSource_eq] at failed
  by_cases clean : (Program.survey source).2 = []
  · rw [if_pos clean] at failed
    cases failed
  · rw [if_neg clean] at failed
    obtain rfl := Except.error.inj failed
    exact ⟨rfl, clean⟩

namespace Tool.Assemble

variable {tree : FileTree} {words : List String} {request : Request Switch}

/-- What the error output says about a source with mistakes: some lines of a log, if they are
asked for, every mistake in order, and how many there are. -/
def Tells (request : Request Switch) (diagnostics : List Diagnostic) (stderr : String) : Prop :=
  ∃ log : List String, stderr = String.join (log.map (logLine (request.has .verbose))) ++
    (String.join (diagnostics.map (·.emitted (colouring request))) ++
      echo ("Assembly error: " ++ assemblyFailed diagnostics))

/-- There is no log unless it is asked for. -/
theorem join_logLine_quiet (log : List String) : String.join (log.map (logLine false)) = "" := by
  induction log with
  | nil => rfl
  | cons message rest inductionHypothesis =>
    rw [List.map_cons, String.join_cons, inductionHypothesis]
    rfl

theorem mistakes_eq (colouring : Colouring) (diagnostics : List Diagnostic) :
    mistakes colouring diagnostics =
      String.join (diagnostics.map (·.emitted colouring)) ++
        echo ("Assembly error: " ++ assemblyFailed diagnostics) := by
  rw [mistakes, Bulletin.emit_ofDiagnostics]
  rfl

/-- The work on a source that does not assemble: nothing is written but its mistakes. -/
theorem assemble_of_error (tree : FileTree) (request : Request Switch) (log : String)
    {source : String} {diagnostics : List Diagnostic}
    (failed : Octet.assemble source = .error diagnostics) :
    ∃ more : List String, assemble tree request log source =
      .silent tree 1 (log ++ String.join (more.map (logLine (request.has .verbose))) ++
        mistakes (colouring request) diagnostics) := by
  cases parsed : Program.ofSource source with
  | error wrong =>
    have same : wrong = diagnostics := by
      simpa only [Octet.assemble, Session.assemble, parsed, Except.error.injEq] using failed
    obtain ⟨surveyed, something⟩ := Program.survey_of_error parsed
    rw [same] at surveyed something
    refine ⟨["Assembling " ++ Path.tidy request.path,
      Assemble.surveyed (Program.survey source).1 diagnostics], ?_⟩
    simp only [assemble, surveyed, List.isEmpty_iff, something, List.map_cons, List.map_nil,
      String.join_cons, String.join_nil, String.append_empty, String.append_assoc, if_false]
  | ok program =>
    rw [Octet.assemble, Session.fresh.assemble_of_parsed parsed, Image.result_eq_error_iff]
      at failed
    obtain ⟨something, rfl⟩ := failed
    refine ⟨["Assembling " ++ Path.tidy request.path, surveyed program [],
      "Generated " ++ toString (Image.ofProgram program).code.length ++ " bytes, " ++
        toString (Image.ofProgram program).labels.length ++ " symbols, " ++
        toString (Image.ofProgram program).diagnostics.length ++ " errors"], ?_⟩
    simp only [assemble, Program.survey_of_ofSource parsed, List.isEmpty_nil, List.isEmpty_iff,
      something, List.map_cons, List.map_nil, String.join_cons, String.join_nil,
      String.append_empty, String.append_assoc, if_true, if_false]

theorem stdout_assemble (log source : String) : (assemble tree request log source).stdout = "" := by
  simp only [assemble]
  split
  · split
    · split <;> rfl
    · rfl
  · rfl

/-- Unless it shows how lines are read, the assembler has nothing for its standard output. -/
theorem stdout_act (assembles : request.has .dump = false) : (act tree request).stdout = "" := by
  simp only [act, assembles, Bool.false_eq_true, if_false]
  split
  · rfl
  · split
    · rfl
    · exact stdout_assemble _ _

/-- A file that holds no text: an error without a place in the program. -/
theorem act_of_malformed {content : List UInt8} (read : tree.read request.path = .ok content)
    (foreign : ∀ text, Utf8.encode text ≠ content) :
    (act tree request).status = 3 ∧ (act tree request).tree = tree := by
  have decoded : ∃ malformed, textOfFile content = .error malformed := by
    cases outcome : Utf8.decode content with
    | error malformed => exact ⟨malformed, by rw [textOfFile, outcome]; rfl⟩
    | ok text => exact absurd (Utf8.decode_eq_ok_iff.mp outcome) (foreign text)
  obtain ⟨malformed, outcome⟩ := decoded
  simp only [act, read, outcome]
  exact ⟨rfl, rfl⟩

/-- A file that holds a source with mistakes. -/
theorem act_of_error {content : List UInt8} {source : String} {diagnostics : List Diagnostic}
    (read : tree.read request.path = .ok content) (text : textOfFile content = .ok source)
    (assembles : request.has .dump = false)
    (failed : Octet.assemble source = .error diagnostics) :
    (act tree request).status = 1 ∧ (act tree request).tree = tree ∧
      Tells request diagnostics (act tree request).stderr := by
  obtain ⟨more, ended⟩ := assemble_of_error tree request
    (logLine (request.has .verbose) ("Assembling " ++ Path.tidy request.path ++ "...")) failed
  have acted : act tree request = .silent tree 1
      (logLine (request.has .verbose) ("Assembling " ++ Path.tidy request.path ++ "...") ++
        String.join (more.map (logLine (request.has .verbose))) ++
          mistakes (colouring request) diagnostics) := by
    rw [← ended, act]
    simp only [read, text, assembles]
    rfl
  rw [acted]
  refine ⟨rfl, rfl, ("Assembling " ++ Path.tidy request.path ++ "...") :: more, ?_⟩
  rw [List.map_cons, String.join_cons, ← mistakes_eq]
  rfl

/-! ### Sources that assemble -/

/-- Files that go to different places hold what is written to each of them. -/
theorem writeAll_apart (verbose : Bool) {outputs : List Output}
    (lead : ∀ output ∈ outputs, ∃ place, tree.Leads output.path place)
    (apart : outputs.Pairwise fun one other => tree.locate one.path ≠ tree.locate other.path) :
    ∃ after log, writeAll verbose tree outputs = (after, log, none) ∧
      tree.SameDirectories after ∧
      (∀ place, (∀ output ∈ outputs, tree.locate output.path ≠ .ok place) →
        after.node? place = tree.node? place) ∧
      ∀ output ∈ outputs, after.read output.path = .ok output.content := by
  obtain ⟨after, log, written, same, others, last⟩ := writeAll_spec verbose lead
  refine ⟨after, log, written, same, fun place misses => others place fun output member leads =>
    misses output member leads.found, fun output member => ?_⟩
  obtain ⟨front, back, split⟩ := List.append_of_mem member
  obtain ⟨place, leads⟩ := lead output member
  have held := last front back output place split leads fun later behind elsewhere => by
    rw [split, List.pairwise_append, List.pairwise_cons] at apart
    exact apart.2.1.1 later behind (leads.found.trans elsewhere.found.symm)
  exact (FileTree.read_of_locate (same.locate leads.found) held).2

/-- The path of a file besides the binary, if it is asked for. -/
def sidePath (request : Request Switch) (switch : Switch) : List String :=
  ((request.value? switch).map Path.tidy).toList

/-- The paths of all files that are written. -/
def targets (request : Request Switch) : List String :=
  binaryPath request :: (sidePath request .listing ++ sidePath request .symbols)

theorem path_sideOutput (request : Request Switch) (switch : Switch) (text note : String) :
    (sideOutput request switch text note).map Output.path = sidePath request switch := by
  rw [sideOutput, sidePath]
  cases request.value? switch <;> rfl

theorem path_outputs (request : Request Switch) (image : Image) :
    (outputs request image).map Output.path = targets request := by
  obtain ⟨notes, split⟩ := outputs_eq request image
  rw [split, List.map_cons, List.map_append, path_sideOutput, path_sideOutput]
  rfl

/-- The words ask for a source to be assembled, all files can be written, and the source and all of
them are at different places. -/
structure Separate (tree : FileTree) (words : List String) (request : Request Switch) : Prop where
  asks : command.Asks words request
  assembles : request.has .dump = false
  leads : ∀ path ∈ targets request, ∃ place, tree.Leads path place
  apart : ((request.path :: targets request).map tree.locate).Nodup

/-- The files hold a binary, a listing and a symbol table, as far as they are asked for, and all
other files are as they were. -/
structure Written (tree after : FileTree) (request : Request Switch) (binary : List UInt8)
    (listing symbols : String) : Prop where
  binary : after.read (binaryPath request) = .ok binary
  listing : ∀ path ∈ sidePath request .listing, after.read path = .ok (Utf8.encode listing)
  symbols : ∀ path ∈ sidePath request .symbols, after.read path = .ok (Utf8.encode symbols)
  others : ∀ place, (∀ path ∈ targets request, tree.locate path ≠ .ok place) →
    after.node? place = tree.node? place

theorem mem_sideOutput {switch : Switch} {path : String} (asked : path ∈ sidePath request switch)
    (text note : String) :
    ∃ notes, ⟨path, Utf8.encode text, notes⟩ ∈ sideOutput request switch text note := by
  rw [sidePath, Option.mem_toList, Option.map_eq_some_iff] at asked
  obtain ⟨typed, given, rfl⟩ := asked
  rw [sideOutput, given]
  exact ⟨_, List.mem_singleton_self _⟩

namespace Separate

variable (separate : Separate tree words request)

include separate

/-- Nothing is in the way of the files. -/
theorem ready : ∃ binary, Ready tree words request binary := by
  obtain ⟨binary, leads⟩ := separate.leads _ List.mem_cons_self
  refine ⟨binary, separate.asks, separate.assembles, leads, fun switch besides typed given => ?_⟩
  have member : Path.tidy typed ∈ sidePath request .listing ++ sidePath request .symbols := by
    rw [List.mem_append]
    rcases besides with rfl | rfl
    · exact .inl (by rw [sidePath, given]; exact List.mem_singleton_self _)
    · exact .inr (by rw [sidePath, given]; exact List.mem_singleton_self _)
  obtain ⟨place, leadsSide⟩ := separate.leads _ (List.mem_cons_of_mem _ member)
  refine ⟨place, leadsSide, ?_⟩
  rintro rfl
  have distinct := (List.nodup_cons.mp separate.apart).2
  rw [targets, List.map_cons, List.nodup_cons] at distinct
  exact distinct.1 (List.mem_map.mpr
    ⟨_, member, leadsSide.found.trans leads.found.symm⟩)

/-- The work on a source that assembles. -/
theorem act_of_ok {content code : List UInt8} {source : String} {program : Program}
    (read : tree.read request.path = .ok content) (text : textOfFile content = .ok source)
    (parsed : Program.ofSource source = .ok program)
    (made : (Image.ofProgram program).result = .ok code) :
    (act tree request).status = 0 ∧
      Written tree (act tree request).tree request code (Image.ofProgram program).listing
        (Image.ofProgram program).symbolFile := by
  have code := ((Image.result_eq_ok_iff _ _).mp made).2
  have paths := path_outputs request (Image.ofProgram program)
  have lead : ∀ output ∈ outputs request (Image.ofProgram program),
      ∃ place, tree.Leads output.path place := fun output member =>
    separate.leads _ (paths ▸ List.mem_map_of_mem member)
  have apart : (outputs request (Image.ofProgram program)).Pairwise
      fun one other => tree.locate one.path ≠ tree.locate other.path := by
    have distinct := (List.nodup_cons.mp separate.apart).2
    rw [← paths, List.map_map] at distinct
    exact List.pairwise_map.mp distinct
  obtain ⟨after, log, written, _, others, held⟩ :=
    writeAll_apart (request.has .verbose) lead apart
  obtain ⟨status, left⟩ := act_of_written read text separate.assembles parsed made written
  obtain ⟨notes, split⟩ := outputs_eq request (Image.ofProgram program)
  rw [left]
  rw [split, List.forall_mem_cons, List.forall_mem_append] at held
  refine ⟨status, code ▸ held.1, fun path asked => ?_, fun path asked => ?_,
    fun place misses => others place fun output member => ?_⟩
  · obtain ⟨_, member⟩ := mem_sideOutput asked (Image.ofProgram program).listing "listing"
    simpa only using held.2.1 _ member
  · obtain ⟨_, member⟩ := mem_sideOutput asked (Image.ofProgram program).symbolFile "symbols"
    simpa only using held.2.2 _ member
  · exact misses _ (paths ▸ List.mem_map_of_mem member)

end Separate

end Tool.Assemble

/-- The assembler writes files for sources that assemble, and for nothing else. If the content of
the source file is no text, the status is three; if it is the text of a source that does not
assemble, the status is one, and the error output tells every mistake in order. In both cases all
files are as they were. If the source assembles, the status is zero, the files hold its code, its
listing and its symbols, and all other files are as they were. It takes that all files can be
written, and that they and the source are at different places. -/
theorem files_are_written_for_assembled_sources {tree : FileTree} {words : List String}
    {request : Request Tool.Assemble.Switch}
    (separate : Tool.Assemble.Separate tree words request) {content : List UInt8}
    (read : tree.read request.path = .ok content) :
    let report := Tool.Assemble.run tree words
    report.stdout = "" ∧
      ((∀ text, Utf8.encode text ≠ content) → report.status = 3 ∧ report.tree = tree) ∧
      ∀ text, Utf8.encode text = content →
        (∀ diagnostics, assemble (Text.unifyNewlines text) = .error diagnostics →
          report.status = 1 ∧ report.tree = tree ∧
            Tool.Assemble.Tells request diagnostics report.stderr) ∧
        ∀ code, assemble (Text.unifyNewlines text) = .ok code →
          let image := (Session.fresh.assemble (Text.unifyNewlines text)).1.image
          report.status = 0 ∧
            Tool.Assemble.Written tree report.tree request code image.listing image.symbolFile := by
  intro report
  have ran : report = Tool.Assemble.act tree request := by
    obtain ⟨binary, ready⟩ := separate.ready
    show Tool.Assemble.run tree words = _
    rw [Tool.Assemble.run, Command.run, ready.read (FileTree.find_of_read read)]
  rw [ran]
  refine ⟨Tool.Assemble.stdout_act separate.assembles, Tool.Assemble.act_of_malformed read,
    fun text encoded => ?_⟩
  have source : textOfFile content = .ok (Text.unifyNewlines text) := by
    rw [textOfFile, Utf8.decode_eq_ok_iff.mpr encoded]
    rfl
  refine ⟨fun diagnostics failed =>
    Tool.Assemble.act_of_error read source separate.assembles failed, fun code assembled => ?_⟩
  obtain ⟨program, parsed, made⟩ := (assemble_eq_ok_iff _ _).mp assembled
  rw [Session.fresh.assemble_of_parsed parsed]
  exact separate.act_of_ok read source parsed made

/-- A source that takes two bytes, written as a binary, a listing and a symbol table, and a source
of which nothing is written but its two mistakes. -/
theorem files_are_written_for_loop :
    let tree : FileTree := .ofFiles []
      [("loop.t8", Utf8.encode ".loop:\n jmp loop"), ("slips.t8", Utf8.encode "ldi $\n jmp")]
    let report := Tool.Assemble.run tree ["-l", "loop.lst", "-s", "loop.sym", "loop.t8"]
    let refused := Tool.Assemble.run tree ["slips.t8"]
    report.status = 0 ∧ report.tree.read "loop.bin" = .ok [0x20, 0x00] ∧
      report.tree.read "loop.lst" = .ok (Utf8.encode ("tiny8 Assembler Listing\n" ++
        "============================================================\n\n" ++
        "Addr  Code       Line  Source\n" ++
        "------------------------------------------------------------\n" ++
        "$00                 1  .loop:\n" ++
        "$00   20 00         2   jmp loop\n\n" ++
        "Symbol Table\n" ++
        "------------------------------\n" ++
        "loop                 = $00")) ∧
      report.tree.read "loop.sym" =
        .ok (Utf8.encode "# Symbol table\n# Generated by t8asm\nloop $00\n") ∧
      refused.status = 1 ∧ refused.tree = tree ∧
      refused.stderr =
        "error: empty literal\n" ++
        "1 | ldi $\n" ++
        "  |     ^\n" ++
        "  = note: expected hexadecimal digits after '$'\n\n" ++
        "error: unexpected end of line, expected literal or ident\n" ++
        "2 |  jmp\n" ++
        "  |     ^\n\n" ++
        "Assembly error: assembly failed with 2 errors\n" := by
  intro tree report refused
  let request : Request Tool.Assemble.Switch :=
    ⟨"loop.t8", [⟨.listing, "loop.lst"⟩, ⟨.symbols, "loop.sym"⟩]⟩
  have targets : Tool.Assemble.targets request = ["loop.bin", "loop.lst", "loop.sym"] := by
    decide +kernel
  have separate : Tool.Assemble.Separate tree
      ["-l", "loop.lst", "-s", "loop.sym", "loop.t8"] request := by
    refine ⟨⟨by decide +kernel, rfl⟩, rfl, ?_, by decide +kernel⟩
    rw [targets]
    exact List.forall_mem_cons.mpr ⟨⟨["loop.bin"], by decide +kernel, by decide +kernel⟩,
      List.forall_mem_cons.mpr ⟨⟨["loop.lst"], by decide +kernel, by decide +kernel⟩,
        List.forall_mem_singleton.mpr ⟨["loop.sym"], by decide +kernel, by decide +kernel⟩⟩⟩
  have read : tree.read request.path = .ok (Utf8.encode ".loop:\n jmp loop") := by decide +kernel
  have assembled : assemble (Text.unifyNewlines ".loop:\n jmp loop") = .ok [0x20, 0x00] := by
    decide +kernel
  obtain ⟨status, written⟩ :=
    ((files_are_written_for_assembled_sources separate read).2.2 _ rfl).2 _ assembled
  have binary := written.binary
  rw [show Tool.Assemble.binaryPath request = "loop.bin" by decide +kernel] at binary
  have listing := written.listing "loop.lst" (by decide +kernel)
  have symbols := written.symbols "loop.sym" (by decide +kernel)
  have separateSlips : Tool.Assemble.Separate tree ["slips.t8"] ⟨"slips.t8", []⟩ := by
    refine ⟨⟨by decide +kernel, rfl⟩, rfl, ?_, by decide +kernel⟩
    exact List.forall_mem_singleton.mpr ⟨["slips.bin"], by decide +kernel, by decide +kernel⟩
  have readSlips : tree.read "slips.t8" = .ok (Utf8.encode "ldi $\n jmp") := by decide +kernel
  have failed : assemble (Text.unifyNewlines "ldi $\n jmp") =
      .error [⟨.emptyLiteral, some ⟨4, 5, by decide⟩, some "ldi $", some 0⟩,
        ⟨.unexpectedEnd .literalOrIdent, some ⟨4, 5, by decide⟩, some " jmp", some 1⟩] := by
    decide +kernel
  obtain ⟨statusSlips, same, log, told⟩ :=
    ((files_are_written_for_assembled_sources separateSlips readSlips).2.2 _ rfl).1 _ failed
  refine ⟨status, binary, listing.trans (congrArg (Except.ok ∘ Utf8.encode) ?_),
    symbols.trans (congrArg (Except.ok ∘ Utf8.encode) ?_), statusSlips, same, told.trans ?_⟩
  · decide +kernel
  · decide +kernel
  · have quiet : Request.has (⟨"slips.t8", []⟩ : Request Tool.Assemble.Switch) .verbose = false :=
      rfl
    rw [quiet, Tool.Assemble.join_logLine_quiet]
    decide +kernel

end Octet
