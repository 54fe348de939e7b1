/-
This file is what the tools see of a file system: files and directories below
a working directory, found by walking along a path. A path is walked the way
it is typed, and shown in a tidy form without empty and idle parts. Walking
through a file, past something that is not there, or along a name that is too
long ends in an error of its own.
-/

import Octet.Text.Quoted
import Octet.Text.Utf8

namespace Octet

/-! ### Paths -/

namespace Path

/-- The parts of a path between slashes. -/
def pieces (path : String) : List String :=
  (path.toList.splitOn '/').map String.ofList

/-- The parts that lead somewhere: not the empty ones, and not the single dots. -/
def steps (path : String) : List String :=
  (pieces path).filter fun piece => piece ≠ "" && piece ≠ "."

/-- The slashes in front of an absolute path. Exactly two of them are kept. -/
def root (path : String) : String :=
  match path.toList.takeWhile (· = '/') with
  | [] => ""
  | ['/', '/'] => "//"
  | _ => "/"

/-- A path from its root and its steps; an empty one is the working directory. -/
def build (root : String) (steps : List String) : String :=
  let text := root ++ "/".intercalate steps
  if text.isEmpty then "." else text

/-- The tidy form of a path. -/
def tidy (path : String) : String :=
  build (root path) (steps path)

/-- The last step of a path. -/
def name (path : String) : String :=
  (steps path).getLastD ""

/-- A name without its extension. An extension begins with the last dot, unless that is the
first or the last character. -/
def stem (name : List Char) : List Char :=
  let extension := name.reverse.takeWhile (· ≠ '.')
  let stemLength := name.length - extension.length - 1
  if extension.length < name.length && 0 < stemLength && !extension.isEmpty then
    name.take stemLength
  else name

/-- The tidy form of a path with another extension. -/
def withExtension (path extension : String) : String :=
  let last := String.ofList (stem (name path).toList) ++ extension
  build (root path) ((steps path).dropLast ++ [last])

end Path

/-! ### Errors -/

/-- Why a path cannot be used. -/
inductive FileError where
  | missing
  | notDirectory
  | isDirectory
  | nameTooLong
deriving DecidableEq, Repr

/-- The error with its number, and the path in question. -/
def FileError.message (error : FileError) (path : String) : String :=
  (match error with
    | missing => "[Errno 2] No such file or directory: "
    | notDirectory => "[Errno 20] Not a directory: "
    | isDirectory => "[Errno 21] Is a directory: "
    | nameTooLong => "[Errno 36] File name too long: ") ++ Text.quoted path

/-! ### Trees -/

/-- What a place holds. -/
inductive Node where
  | directory
  | file (content : List UInt8)
deriving DecidableEq, Repr

/-- A place: the names that lead to it from the working directory, after a slash if it is
reached from the top, and after as many double dots as it lies outside. -/
abbrev Place := List String

/-- Files and directories at their places. -/
structure FileTree where
  nodes : List (Place × Node)
deriving DecidableEq, Repr

namespace FileTree

/-- Whether a place is a directory in every tree: the working directory, those around it, and
the top. -/
def isGround (place : Place) : Bool :=
  place = ["/"] || place.all (· = "..")

/-- What a place holds. -/
def node? (tree : FileTree) (place : Place) : Option Node :=
  if isGround place then some .directory else tree.nodes.lookup place

/-- The place around a place. -/
def around (place : Place) : Place :=
  if place = ["/"] then place
  else if isGround place then place ++ [".."]
  else place.dropLast

/-- Walks from a directory along some pieces of a path. The place where the path ends need not
hold anything, but every place before it must be a directory. -/
def walk (tree : FileTree) (place : Place) : List String → Except FileError Place
  | [] => .ok place
  | piece :: rest =>
    match tree.node? place with
    | none => .error .missing
    | some (.file _) => .error .notDirectory
    | some .directory =>
      if piece = "" || piece = "." then walk tree place rest
      else if piece = ".." then walk tree (around place) rest
      else if 255 < (Utf8.encode piece).length then .error .nameTooLong
      else walk tree (place ++ [piece]) rest

/-- The place that a path leads to. A slash behind a name asks for a directory. -/
def locate (tree : FileTree) (path : String) : Except FileError Place :=
  match Path.pieces path with
  | [""] => .error .missing
  | "" :: rest => tree.walk ["/"] rest
  | pieces => tree.walk [] pieces

/-- What a path leads to. -/
def find (tree : FileTree) (path : String) : Except FileError Node :=
  match tree.locate path with
  | .error error => .error error
  | .ok place =>
    match tree.node? place with
    | some node => .ok node
    | none => .error .missing

/-- The content of the file that a path leads to. -/
def read (tree : FileTree) (path : String) : Except FileError (List UInt8) :=
  match tree.find path with
  | .ok (.file content) => .ok content
  | .ok .directory => .error .isDirectory
  | .error error => .error error

/-- The tree with a node at a place; what was there before is gone. -/
def put (tree : FileTree) (place : Place) (node : Node) : FileTree :=
  ⟨tree.nodes.filter (·.1 ≠ place) ++ [(place, node)]⟩

/-- Writes a file. Its directory must be there, and it must not be a directory itself. -/
def write (tree : FileTree) (path : String) (content : List UInt8) : Except FileError FileTree :=
  match tree.locate path with
  | .error error => .error error
  | .ok place =>
    match tree.node? place with
    | some .directory => .error .isDirectory
    | _ => .ok (tree.put place (.file content))

/-- Creates the directories that a path leads through. -/
def makeDirectories (tree : FileTree) (place : Place) : List String → FileTree
  | [] => tree
  | step :: rest =>
    let inner := place ++ [step]
    let grown := if (tree.node? inner).isNone then tree.put inner .directory else tree
    makeDirectories grown inner rest

/-- The tree of some directories and files, given by their paths. -/
def ofFiles (directories : List String) (files : List (String × List UInt8)) : FileTree :=
  let bare := directories.foldl (fun tree path => tree.makeDirectories [] (Path.steps path)) ⟨[]⟩
  files.foldl (fun tree (path, content) =>
    (tree.makeDirectories [] (Path.steps path).dropLast).put (Path.steps path) (.file content)) bare

/-- The files of a tree that another one does not have in the same form, sorted by path. -/
def newSince (tree before : FileTree) : List (String × List UInt8) :=
  (tree.nodes.filterMap fun (place, node) =>
    match node with
    | .directory => none
    | .file content =>
      if before.node? place = some node then none
      else some ("/".intercalate place, content)).mergeSort fun first second => first.1 ≤ second.1

end FileTree

end Octet
