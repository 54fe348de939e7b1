/-
This file shows what the two tools that write files leave behind when nothing
is in their way. A command line is accepted if its words are understood and
its values suit; the assembler then writes all its files, one after the other,
and the disassembler its one.

Everything that may be in the way is asked of the files as they are before the
tool is run, since writing changes no directory. Where two files go to the same
place, the one that is written last is found there.
-/

import Octet.Proofs.Encoding
import Octet.Proofs.Files
import Octet.Proofs.Joining
import Octet.Tool.Assemble
import Octet.Tool.Disassemble

namespace Octet

variable {tree : FileTree} {words : List String}

/-! ### Accepted command lines -/

namespace FileTree.Leads

variable {typed : String} {place : Place}

/-- A path whose tidy form leads to a place for a file is no directory. -/
theorem suits (leads : tree.Leads (Path.tidy typed) place) :
    ValueKind.filePath.complaint? tree typed = none := by
  rw [ValueKind.complaint?]
  split
  · rename_i held
    obtain ⟨reached, found, directory⟩ := FileTree.locate_of_find_directory held
    rw [Except.ok.inj ((FileTree.locate_tidy found).symm.trans leads.found)] at directory
    exact absurd directory leads.free
  · rfl

end FileTree.Leads

namespace Command

variable {Opt : Type} [DecidableEq Opt] {command : Command Opt} {request : Request Opt}

/-- The words of a command line make a request, and it is not for the version. -/
structure Asks (command : Command Opt) (words : List String) (request : Request Opt) : Prop where
  reads : command.table.read words = .ok (request.given, [request.path])
  version : request.has command.version = false

/-- A request is accepted if there is the file that it names and all values suit their options. -/
theorem Asks.read (asks : command.Asks words request) {content : List UInt8}
    (found : tree.find request.path = .ok (.file content))
    (suits : ∀ option value, request.value? option = some value →
      (command.kind option).complaint? tree value = none) :
    command.read tree words = .accepted request := by
  have options : (request.given.findSome? fun one =>
      command.optionComplaint? tree request one.option) = none := by
    refine List.findSome?_eq_none_iff.mpr fun one _ => ?_
    rw [optionComplaint?]
    cases given : request.value? one.option with
    | none => rfl
    | some value =>
      rw [Option.bind_some, suits _ value given]
      rfl
  have argument : command.argumentComplaint? tree [request.path] = none := by
    rw [argumentComplaint?, ValueKind.complaint?, found]
    rfl
  have same : (⟨[request.path].headD "", request.given⟩ : Request Opt) = request := rfl
  rw [Command.read, asks.reads]
  simp only [same, asks.version, options, argument, extraComplaint?]
  rfl

end Command

/-! ### The assembler -/

namespace Tool.Assemble

/-- Files that can all be written are written, and nothing else is changed. A place holds what was
written to it last. -/
theorem writeAll_spec (verbose : Bool) {outputs : List Output}
    (lead : ∀ output ∈ outputs, ∃ place, tree.Leads output.path place) :
    ∃ after log, writeAll verbose tree outputs = (after, log, none) ∧
      tree.SameDirectories after ∧
      (∀ place, (∀ output ∈ outputs, ¬tree.Leads output.path place) →
        after.node? place = tree.node? place) ∧
      ∀ (front back : List Output) (output : Output) (place : Place),
        outputs = front ++ output :: back → tree.Leads output.path place →
          (∀ later ∈ back, ¬tree.Leads later.path place) →
            after.node? place = some (.file output.content) := by
  induction outputs generalizing tree with
  | nil => exact ⟨tree, "", rfl, .refl tree, fun _ _ => rfl, fun _ _ _ _ split => by simp at split⟩
  | cons first rest inductionHypothesis =>
    rw [List.forall_mem_cons] at lead
    obtain ⟨⟨spot, leads⟩, leadRest⟩ := lead
    have same := FileTree.sameDirectories_put leads.free first.content
    obtain ⟨after, log, written, sameRest, others, last⟩ :=
      inductionHypothesis fun output member =>
        (leadRest output member).imp fun _ leads => leads.of_same same
    have still : ∀ (place : Place) (output : Output), ¬tree.Leads output.path place →
        ¬(tree.put spot (.file first.content)).Leads output.path place :=
      fun _ _ misses leads => misses (leads.of_same same.symm)
    refine ⟨after, String.join (first.notes.map (logLine verbose)) ++ log, ?_,
      same.trans sameRest, fun place misses => ?_, ?_⟩
    · rw [writeAll, leads.write]
      simp only [written]
    · rw [List.forall_mem_cons] at misses
      have elsewhere : place ≠ spot := fun here => misses.1 (here ▸ leads)
      rw [others place fun output member => still place output (misses.2 output member),
        FileTree.node?_put_other elsewhere]
    · intro front back output place split outputLeads later
      cases front with
      | nil =>
        obtain ⟨rfl, rfl⟩ := List.cons.inj split
        rw [others place fun output member => still place output (later output member),
          outputLeads.unique leads]
        exact FileTree.node?_put_self leads.free _
      | cons head more =>
        obtain ⟨rfl, rfl⟩ := List.cons.inj split
        exact last more back output place rfl (outputLeads.of_same same)
          fun output member => still place output (later output member)

variable {request : Request Switch} {binary : Place}

/-- The path of the binary: the one that is given, or that of the source with its own extension. -/
def binaryPath (request : Request Switch) : String :=
  match request.value? .output with
  | some typed => Path.tidy typed
  | none => Path.withExtension request.path ".bin"

/-- A file that is written besides the binary, if it was asked for. -/
def sideOutput (request : Request Switch) (switch : Switch) (text note : String) : List Output :=
  match request.value? switch with
  | some typed =>
    [⟨Path.tidy typed, Utf8.encode text, ["Wrote " ++ note ++ " to " ++ Path.tidy typed]⟩]
  | none => []

theorem outputs_eq (request : Request Switch) (image : Image) :
    ∃ notes, outputs request image = ⟨binaryPath request, image.code, notes⟩ ::
      (sideOutput request .listing image.listing "listing" ++
        sideOutput request .symbols image.symbolFile "symbols") :=
  ⟨_, rfl⟩

/-- The assembler is asked for a binary at some place, and nothing is in the way of its files. No
other file goes to the place of the binary. -/
structure Ready (tree : FileTree) (words : List String) (request : Request Switch)
    (binary : Place) : Prop where
  asks : command.Asks words request
  assembles : request.has .dump = false
  leads : tree.Leads (binaryPath request) binary
  side : ∀ switch, switch = .listing ∨ switch = .symbols →
    ∀ typed, request.value? switch = some typed →
      ∃ place, tree.Leads (Path.tidy typed) place ∧ place ≠ binary

theorem Ready.of_same {other : FileTree} (ready : Ready tree words request binary)
    (same : tree.SameDirectories other) : Ready other words request binary where
  asks := ready.asks
  assembles := ready.assembles
  leads := ready.leads.of_same same
  side := fun switch besides typed given => by
    obtain ⟨place, leads, apart⟩ := ready.side switch besides typed given
    exact ⟨place, leads.of_same same, apart⟩

theorem Ready.read (ready : Ready tree words request binary) {content : List UInt8}
    (found : tree.find request.path = .ok (.file content)) :
    command.read tree words = .accepted request := by
  refine ready.asks.read found fun switch typed given => ?_
  cases switch with
  | output =>
    have leads := ready.leads
    rw [binaryPath, given] at leads
    exact leads.suits
  | listing =>
    obtain ⟨place, leads, _⟩ := ready.side .listing (.inl rfl) typed given
    exact leads.suits
  | symbols =>
    obtain ⟨place, leads, _⟩ := ready.side .symbols (.inr rfl) typed given
    exact leads.suits
  | _ => rfl

/-- A file besides the binary goes to a place of its own. -/
theorem Ready.sideOutput (ready : Ready tree words request binary) {switch : Switch}
    (besides : switch = .listing ∨ switch = .symbols) (text note : String) :
    ∀ output ∈ sideOutput request switch text note,
      ∃ place, tree.Leads output.path place ∧ place ≠ binary := by
  intro output member
  rw [Assemble.sideOutput] at member
  cases given : request.value? switch with
  | none =>
    rw [given] at member
    exact absurd member List.not_mem_nil
  | some typed =>
    rw [given] at member
    rw [List.mem_singleton.mp member]
    exact ready.side switch besides typed given

/-- The tool on a source that assembles, if all files can be written. -/
theorem act_of_written {content code : List UInt8} {source : String} {program : Program}
    (read : tree.read request.path = .ok content) (text : textOfFile content = .ok source)
    (assembles : request.has .dump = false) (parsed : Program.ofSource source = .ok program)
    (made : (Image.ofProgram program).result = .ok code) {after : FileTree} {log : String}
    (written : writeAll (request.has .verbose) tree (outputs request (Image.ofProgram program)) =
      (after, log, none)) :
    (act tree request).status = 0 ∧ (act tree request).tree = after := by
  have clean := ((Image.result_eq_ok_iff _ _).mp made).1
  rw [act]
  simp only [read, text, assembles, assemble, Program.survey_of_ofSource parsed, clean, written]
  exact ⟨rfl, rfl⟩

/-- The assembler writes the code of a source that assembles, and the symbols if it is asked to. -/
theorem run_of_ready (ready : Ready tree words request binary) {content code : List UInt8}
    {source : String} {program : Program} (read : tree.read request.path = .ok content)
    (text : textOfFile content = .ok source) (parsed : Program.ofSource source = .ok program)
    (made : (Image.ofProgram program).result = .ok code) :
    (run tree words).status = 0 ∧ tree.SameDirectories (run tree words).tree ∧
      (run tree words).tree.node? binary = some (.file code) ∧
      ∀ typed place, request.value? .symbols = some typed → tree.Leads (Path.tidy typed) place →
        (run tree words).tree.node? place =
          some (.file (Utf8.encode (Image.ofProgram program).symbolFile)) := by
  have image := ((Image.result_eq_ok_iff _ _).mp made).2
  have listing := ready.sideOutput (.inl rfl) (Image.ofProgram program).listing "listing"
  have symbols := ready.sideOutput (.inr rfl) (Image.ofProgram program).symbolFile "symbols"
  have sides := List.forall_mem_append.mpr ⟨listing, symbols⟩
  obtain ⟨notes, split⟩ := outputs_eq request (Image.ofProgram program)
  have lead : ∀ output ∈ outputs request (Image.ofProgram program),
      ∃ place, tree.Leads output.path place := by
    rw [split]
    exact List.forall_mem_cons.mpr ⟨⟨binary, ready.leads⟩,
      fun output member => (sides output member).imp fun _ leads => leads.1⟩
  obtain ⟨after, log, written, same, _, last⟩ := writeAll_spec (request.has .verbose) lead
  have ran : run tree words = act tree request := by
    rw [run, Command.run, ready.read (FileTree.find_of_read read)]
  obtain ⟨status, left⟩ := act_of_written read text ready.assembles parsed made written
  rw [ran, left]
  refine ⟨status, same, ?_, fun typed place given leads => ?_⟩
  · have held := last [] _ _ binary split ready.leads fun later member elsewhere => by
      obtain ⟨place, leads, apart⟩ := sides later member
      exact apart (leads.unique elsewhere)
    rw [held, image]
  · rw [sideOutput.eq_def request .symbols, given, ← List.cons_append] at split
    exact last _ [] _ place split leads fun _ none => absurd none List.not_mem_nil

end Tool.Assemble

/-! ### The disassembler -/

namespace Tool.Disassemble

variable {request : Request Switch} {data symbols written : Place}

/-- The disassembler is asked to write a source for the file at one place, with the symbols in the
file at another place, and nothing is in the way of what it writes. -/
structure Ready (tree : FileTree) (words : List String) (request : Request Switch)
    (data symbols written : Place) : Prop where
  asks : command.Asks words request
  source : request.has .source = true
  count : ∀ typed, request.value? .count = some typed →
    (Text.readDecimal? typed.toList).isSome = true
  data : tree.locate request.path = .ok data
  symbols : ∃ typed, request.value? .symbols = some typed ∧ tree.locate typed = .ok symbols
  output : ∃ typed, request.value? .output = some typed ∧ tree.Leads (Path.tidy typed) written

theorem Ready.of_same {other : FileTree} (ready : Ready tree words request data symbols written)
    (same : tree.SameDirectories other) : Ready other words request data symbols written where
  asks := ready.asks
  source := ready.source
  count := ready.count
  data := same.locate ready.data
  symbols := ready.symbols.imp fun _ named => ⟨named.1, same.locate named.2⟩
  output := ready.output.imp fun _ named => ⟨named.1, named.2.of_same same⟩

variable {code file : List UInt8}

theorem Ready.read (ready : Ready tree words request data symbols written)
    (held : tree.node? data = some (.file code)) (named : tree.node? symbols = some (.file file)) :
    command.read tree words = .accepted request := by
  have found := (FileTree.read_of_locate ready.data held).1
  refine ready.asks.read found fun switch typed given => ?_
  cases switch with
  | output =>
    obtain ⟨path, asked, leads⟩ := ready.output
    rw [Option.some_inj.mp (given.symm.trans asked)]
    exact leads.suits
  | count =>
    obtain ⟨number, known⟩ := Option.isSome_iff_exists.mp (ready.count typed given)
    show ValueKind.integer.complaint? tree typed = none
    rw [ValueKind.complaint?, known]
  | symbols =>
    obtain ⟨path, asked, leads⟩ := ready.symbols
    rw [Option.some_inj.mp (given.symm.trans asked)]
    show ValueKind.presentFile.complaint? tree path = none
    rw [ValueKind.complaint?, (FileTree.read_of_locate leads named).1]
  | _ => rfl

/-- The disassembler writes a source for the code, with the names that the symbol file holds. -/
theorem run_of_ready (ready : Ready tree words request data symbols written)
    (held : tree.node? data = some (.file code)) (filled : code ≠ [])
    (named : tree.node? symbols = some (.file file)) {names : AddressNames}
    (table : AddressNames.ofFile file = .ok names) :
    (run tree words).status = 0 ∧ tree.SameDirectories (run tree words).tree ∧
      (run tree words).tree.node? written =
        some (.file (Utf8.encode (sourceOutput request.path names code))) := by
  obtain ⟨symbolPath, symbolsGiven, toSymbols⟩ := ready.symbols
  obtain ⟨typed, outputGiven, leads⟩ := ready.output
  have dataRead := (FileTree.read_of_locate ready.data held).2
  have symbolsRead := (FileTree.read_of_locate toSymbols named).2
  have known : namesFor tree request = .ok names := by
    simp only [namesFor, symbolsGiven, symbolsRead, table]
  have left : (run tree words).status = 0 ∧ (run tree words).tree =
      tree.put written (.file (Utf8.encode (sourceOutput request.path names code))) := by
    rw [run, Command.run, ready.read held named]
    obtain ⟨first, rest, rfl⟩ := List.exists_cons_of_ne_nil filled
    simp only [act, dataRead, known, disassemble, ready.source, outputGiven, if_pos,
      leads.write]
    exact ⟨rfl, rfl⟩
  rw [left.2]
  exact ⟨left.1, FileTree.sameDirectories_put leads.free _, FileTree.node?_put_self leads.free _⟩

end Tool.Disassemble

end Octet
