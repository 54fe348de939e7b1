/-
This file is the command line. Its first word names a tool and the others are
the tool's own. The files that those mention are read, the tool is run on what
was read, and the files that it changed are written.
-/

import Octet.Tool

namespace Octet.Main

/-- What a path leads to in the file system, if anything. -/
def nodeAt (path : String) : IO (Option Node) := do
  try
    let content ← IO.FS.readBinFile path
    return some (.file content.toList)
  catch error =>
    match error with
    | .inappropriateType .. => return some .directory
    | _ => return none

/-- Adds what is found along a path to a tree: at each step, as far as directories go. -/
def survey (tree : FileTree) (place : Place) : List String → IO FileTree
  | [] => return tree
  | piece :: rest => do
    if piece = "" || piece = "." then survey tree place rest
    else if piece = ".." then survey tree (FileTree.around place) rest
    else
      let inner := place ++ [piece]
      match ← nodeAt ("/".intercalate inner) with
      | none => return tree
      | some node => survey (tree.put inner node) inner rest

/-- The tree of everything that some paths lead to. -/
def treeOf (paths : List String) : IO FileTree :=
  paths.foldlM (fun tree path =>
    match Path.pieces path with
    | "" :: rest => survey tree ["/"] rest
    | pieces => survey tree [] pieces) ⟨[]⟩

/-- The paths that a tool may touch: those that its command line mentions, and what they become
with the extension of a program. -/
def touched (tool : Tool) (words : List String) : List String :=
  (tool.paths words).flatMap fun path => [path, Path.withExtension path ".bin"]

/-- Runs a tool on real files. -/
def runTool (tool : Tool) (words : List String) : IO UInt32 := do
  let tree ← treeOf (touched tool words)
  let report := tool.run tree words
  for (path, content) in report.tree.newSince tree do
    IO.FS.writeBinFile path ⟨content.toArray⟩
  IO.print report.stdout
  IO.eprint report.stderr
  match report.crash with
  | some malformed => IO.eprintln malformed.message
  | none => pure ()
  return report.status.toUInt32

end Octet.Main

/-- Runs the tool that the first word names. -/
def main (words : List String) : IO UInt32 :=
  match words with
  | [] => do
    IO.eprintln "expected the name of a tool: t8asm, t8vm or t8disasm"
    return 2
  | name :: rest =>
    match Octet.Tool.named? name with
    | some tool => Octet.Main.runTool tool rest
    | none => do
      IO.eprintln ("no such tool: " ++ name)
      return 2
