/-
This file is the tool that assembles: it reads a source file and writes the
program, and on request a listing and a symbol file, or it shows how each line
was read. Nothing is written unless the whole source assembles; then the files
are written one after another, and the first that cannot be written ends the
work.
-/

import Octet.Assembly.Listing
import Octet.Diagnostic.Bulletin
import Octet.Tool.Command
import Octet.Tool.TextFile

namespace Octet.Tool.Assemble

/-! ### The command line -/

/-- The options of the tool. -/
inductive Switch where
  | output
  | listing
  | symbols
  | dump
  | colour
  | noColour
  | verbose
  | version
deriving DecidableEq, Repr

/-- What the tool wants on its command line. -/
def command : Command Switch where
  name := "t8asm"
  argument := "INPUT_FILE"
  spellings :=
    [("-o", .output), ("--output", .output), ("-l", .listing), ("--listing", .listing),
      ("-s", .symbols), ("--symbols", .symbols), ("--dump", .dump), ("--color", .colour),
      ("--no-color", .noColour), ("-v", .verbose), ("--verbose", .verbose),
      ("--version", .version)]
  kind := fun switch =>
    match switch with
    | .output | .listing | .symbols => .filePath
    | _ => .nothing
  version := .version

/-- Whether reports go out in colour: the switch given last decides. -/
def colouring (request : Request Switch) : Colouring :=
  match request.given.reverse.find? fun one => one.option = .colour || one.option = .noColour with
  | some ⟨.colour, _⟩ => .always
  | some _ => .never
  | none => .automatic

/-! ### Writing -/

/-- A file to be written, and what the log says when it has been. -/
structure Output where
  path : String
  content : List UInt8
  notes : List String

/-- Writes files in order. The answer is the tree, the log, and the failure that ended it. -/
def writeAll (verbose : Bool) (tree : FileTree) :
    List Output → FileTree × String × Option Failure
  | [] => (tree, "", none)
  | output :: rest =>
    match tree.write output.path output.content with
    | .error error => (tree, "", some (.ofFileError error output.path))
    | .ok after =>
      let (last, log, failure) := writeAll verbose after rest
      (last, String.join (output.notes.map (logLine verbose)) ++ log, failure)

/-- The files that an image is written to. -/
def outputs (request : Request Switch) (image : Image) : List Output :=
  let path :=
    match request.value? .output with
    | some path => Path.tidy path
    | none => Path.withExtension request.path ".bin"
  let written := "Wrote " ++ toString image.code.length ++ " bytes to " ++ path
  let side (switch : Switch) (text note : String) : List Output :=
    match request.value? switch with
    | some typed =>
      [⟨Path.tidy typed, Utf8.encode text, ["Wrote " ++ note ++ " to " ++ Path.tidy typed]⟩]
    | none => []
  ⟨path, image.code, [written, written]⟩ :: side .listing image.listing "listing" ++
    side .symbols image.symbolFile "symbols"

/-! ### The work -/

/-- The last lines about a source with mistakes: every report, and how many there are. -/
def mistakes (colouring : Colouring) (diagnostics : List Diagnostic) : String :=
  ((Bulletin.ofDiagnostics diagnostics).emit colouring).2.1 ++
    echo ((Failure.program (assemblyFailed diagnostics)).line (some "Assembly"))

/-- The report of a tool that ends with a failure after writing to its log. -/
def failed (tree : FileTree) (log : String) (failure : Failure) : Report :=
  .silent tree failure.status (log ++ echo (failure.line (some "Assembly")))

/-- What the log says when a source has been read. -/
def surveyed (program : Program) (diagnostics : List Diagnostic) : String :=
  "Parsed " ++ toString program.length ++ " lines, " ++ toString diagnostics.length ++ " errors"

/-- Shows how each line of a source was read. -/
def dump (tree : FileTree) (verbose : Bool) (colouring : Colouring) (source : String) : Report :=
  let (program, diagnostics) := Program.survey source
  let log := logLine verbose (surveyed program diagnostics)
  if diagnostics.isEmpty then
    ⟨0, String.join (program.map fun entry => echo entry.text), log, tree, none⟩
  else .silent tree 1 (log ++ mistakes colouring diagnostics)

/-- Assembles a source and writes what was asked for. -/
def assemble (tree : FileTree) (request : Request Switch) (log source : String) : Report :=
  let verbose := request.has .verbose
  let file := Path.tidy request.path
  let (program, diagnostics) := Program.survey source
  let log := log ++ logLine verbose ("Assembling " ++ file) ++
    logLine verbose (surveyed program diagnostics)
  if diagnostics.isEmpty then
    let image := Image.ofProgram program
    let size := toString image.code.length
    let log := log ++ logLine verbose ("Generated " ++ size ++ " bytes, " ++
      toString image.labels.length ++ " symbols, " ++
      toString image.diagnostics.length ++ " errors")
    if image.diagnostics.isEmpty then
      let log := log ++ logLine verbose ("Generated " ++ size ++ " bytes of code from " ++ file)
      let (after, written, failure) := writeAll verbose tree (outputs request image)
      match failure with
      | some failure => failed after (log ++ written) failure
      | none =>
        .silent after 0 (log ++ written ++ logLine verbose ("Assembly complete: " ++ size ++
          " bytes, " ++ toString image.labels.length ++ " symbols"))
    else .silent tree 1 (log ++ mistakes (colouring request) image.diagnostics)
  else .silent tree 1 (log ++ mistakes (colouring request) diagnostics)

/-- The tool, on a command line that has been accepted. -/
def act (tree : FileTree) (request : Request Switch) : Report :=
  let verbose := request.has .verbose
  let log :=
    if request.has .dump then ""
    else logLine verbose ("Assembling " ++ Path.tidy request.path ++ "...")
  match tree.read request.path with
  | .error error => failed tree log (.ofFileError error (Path.tidy request.path))
  | .ok content =>
    match textOfFile content with
    | .error malformed => failed tree log (.other malformed.message)
    | .ok source =>
      if request.has .dump then dump tree verbose (colouring request) source
      else assemble tree request log source

/-- The tool, on the words of a command line. -/
def run (tree : FileTree) (words : List String) : Report :=
  command.run act tree words

end Octet.Tool.Assemble
