/-
This file is the tool that disassembles: it shows a program as a listing, with
or without its bytes, or as a source that assembles to the same program. Names
for addresses come from a symbol file, and the text goes to a file or to the
standard output.
-/

import Octet.Disassembly.Source
import Octet.Tool.Command
import Octet.Tool.TextFile

namespace Octet.Tool.Disassemble

/-! ### The command line -/

/-- The options of the tool. -/
inductive Switch where
  | output
  | count
  | symbols
  | source
  | noBytes
  | verbose
  | version
deriving DecidableEq, Repr

/-- What the tool wants on its command line. -/
def command : Command Switch where
  name := "t8disasm"
  argument := "INPUT_FILE"
  spellings :=
    [("-o", .output), ("--output", .output), ("-c", .count), ("--count", .count),
      ("-s", .symbols), ("--symbols", .symbols), ("--source", .source), ("--no-bytes", .noBytes),
      ("-v", .verbose), ("--verbose", .verbose), ("--version", .version)]
  kind := fun switch =>
    match switch with
    | .output => .filePath
    | .count => .integer
    | .symbols => .presentFile
    | _ => .nothing
  version := .version

/-! ### The text -/

/-- The text of a program as a source. -/
def sourceOutput (path : String) (names : AddressNames) (data : List UInt8) : String :=
  let source := (sourceText names data true).toList.reverse.dropWhile (· = '\n')
  "; Disassembly of " ++ Path.name path ++ "\n" ++ String.ofList source.reverse ++ "\n"

/-- The text of a program as a listing. -/
def listingOutput (path : String) (names : AddressNames) (data : List UInt8)
    (decoded : List Decoded) (noBytes : Bool) : String :=
  let rows := decoded.map (if noBytes then Decoded.shortText names else Decoded.text names)
  let head := ["; Disassembly of " ++ Path.name path,
    "; Size: " ++ toString data.length ++ " bytes", ""]
  "\n".intercalate (head ++ rows) ++ "\n"

/-! ### The work -/

/-- A line for the error output, if the tool is to be talkative. -/
def remark (verbose : Bool) (text : String) : String :=
  if verbose then echo text else ""

/-- Shows a program, given names for its addresses. -/
def disassemble (tree : FileTree) (request : Request Switch) (names : AddressNames)
    (data : List UInt8) : Report :=
  let verbose := request.has .verbose
  let decoded := Octet.decodeUpTo data 0 (request.number? .count) none
  let text :=
    if request.has .source then sourceOutput request.path names data
    else listingOutput request.path names data decoded (request.has .noBytes)
  let before := remark verbose
    ("Input file: " ++ Path.tidy request.path ++ " (" ++ toString data.length ++ " bytes)")
  let after :=
    if request.has .source then ""
    else remark verbose ("Instructions disassembled: " ++ toString decoded.length)
  match request.value? .output with
  | none => ⟨0, Text.plain text, before ++ after, tree, none⟩
  | some typed =>
    let path := Path.tidy typed
    match tree.write path (Utf8.encode text) with
    | .error error =>
      .silent tree 2 (before ++ echo ("Error writing " ++ path ++ ": " ++ error.message path))
    | .ok written =>
      .silent written 0 (before ++ remark verbose ("Output written to: " ++ path) ++ after)

/-- The names that a symbol file holds; none if there is no such file to be read. -/
def namesFor (tree : FileTree) (request : Request Switch) : Except SymbolFileError AddressNames :=
  match request.value? .symbols with
  | none => .ok []
  | some path =>
    match tree.read path with
    | .ok content => AddressNames.ofFile content
    | .error _ => .ok []

/-- The tool, on a command line that has been accepted. -/
def act (tree : FileTree) (request : Request Switch) : Report :=
  let file := Path.tidy request.path
  match tree.read request.path with
  | .error error =>
    .silent tree 2 (echo ("Error reading " ++ file ++ ": " ++ error.message file))
  | .ok [] => .silent tree 1 (echo ("Error: " ++ file ++ " is empty"))
  | .ok data =>
    match namesFor tree request with
    | .ok names => disassemble tree request names data
    | .error (.badSymbol bad) =>
      let path := Path.tidy ((request.value? .symbols).getD "")
      .silent tree 2 (command.usage ("Invalid value: " ++ bad.message path))
    | .error (.malformed malformed) => ⟨1, "", "", tree, some malformed⟩

/-- The tool, on the words of a command line. -/
def run (tree : FileTree) (words : List String) : Report :=
  command.run act tree words

end Octet.Tool.Disassemble
