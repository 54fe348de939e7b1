/-
This file turns a command line into a request or a refusal. A request has one
argument, the path of a file to read, and options whose values have been
checked. A refusal says what is wrong: with the words themselves first, then
with the options in the order in which they were given, then with the
argument. A request for the version comes before all checks of values.
-/

import Octet.Text.Numeral
import Octet.Tool.Options
import Octet.Tool.Report

namespace Octet

/-! ### Values -/

/-- What the value of an option or an argument must be. -/
inductive ValueKind where
  /-- The path of a file that is there. -/
  | presentFile
  /-- A path that is no directory. -/
  | filePath
  | integer
  /-- An integer that is not negative. -/
  | count
  /-- Nothing: the option takes no value. -/
  | nothing
deriving DecidableEq, Repr

/-- The complaint about a value, if there is one. -/
def ValueKind.complaint? (kind : ValueKind) (tree : FileTree) (value : String) : Option String :=
  match kind with
  | presentFile =>
    match tree.find value with
    | .ok (.file _) => none
    | .ok .directory => some ("File " ++ Text.quoted value ++ " is a directory.")
    | .error _ => some ("File " ++ Text.quoted value ++ " does not exist.")
  | filePath =>
    match tree.find value with
    | .ok .directory => some ("File " ++ Text.quoted value ++ " is a directory.")
    | _ => none
  | integer =>
    match Text.readDecimal? value.toList with
    | some _ => none
    | none => some (Text.quoted value ++ " is not a valid integer.")
  | count =>
    match Text.readDecimal? value.toList with
    | some number =>
      if number < 0 then some (toString number ++ " is not in the range x>=0.") else none
    | none => some (Text.quoted value ++ " is not a valid integer range.")
  | nothing => none

/-! ### Commands -/

/-- What a tool wants on its command line. -/
structure Command (Opt : Type) where
  name : String
  argument : String
  spellings : List (String × Opt)
  kind : Opt → ValueKind
  version : Opt

/-- A command line that has been accepted. Its words are text; a path with a byte that is no UTF-8
is not among them. -/
structure Request (Opt : Type) where
  path : String
  given : List (Given Opt)

namespace Request

variable {Opt : Type} [DecidableEq Opt]

/-- The value of an option that was given last. -/
def value? (request : Request Opt) (option : Opt) : Option String :=
  (request.given.reverse.find? (·.option = option)).map Given.value

/-- Whether an option was given. -/
def has (request : Request Opt) (option : Opt) : Bool :=
  (request.value? option).isSome

/-- The number that was given last for an option. -/
def number? (request : Request Opt) (option : Opt) : Option Int :=
  (request.value? option).bind fun value => Text.readDecimal? value.toList

end Request

/-- What became of a command line. -/
inductive CommandReading (Opt : Type) where
  | accepted (request : Request Opt)
  | version
  | refused (text : String)

namespace Command

variable {Opt : Type} [DecidableEq Opt]

/-- The spellings that the command understands. -/
def table (command : Command Opt) : OptionTable Opt where
  spellings := command.spellings
  takesValue := fun option => command.kind option ≠ .nothing

/-- A complaint behind a reminder of how the tool is used. -/
def usage (command : Command Opt) (complaint : String) : String :=
  echo ("Usage: " ++ command.name ++ " [OPTIONS] " ++ command.argument ++ "\nTry '" ++
    command.name ++ " --help' for help.\n") ++ echo ("Error: " ++ complaint)

/-- A complaint about the words of a command line. One about a value has no reminder. -/
def refusal (command : Command Opt) (error : OptionError) : String :=
  match error with
  | .unknown _ => command.usage error.message
  | _ => echo ("Error: " ++ error.message)

/-- How an option is named in a complaint: all its spellings. -/
def hint (command : Command Opt) (option : Opt) : String :=
  " / ".intercalate ((command.spellings.filter (·.2 = option)).map fun (spelling, _) =>
    Text.quoted spelling)

/-- The complaint about the value of an option that was given, if there is one. -/
def optionComplaint? (command : Command Opt) (tree : FileTree) (request : Request Opt)
    (option : Opt) : Option String :=
  (request.value? option).bind fun value =>
    ((command.kind option).complaint? tree value).map fun complaint =>
      "Invalid value for " ++ command.hint option ++ ": " ++ complaint

/-- The complaint about the argument, if there is one. -/
def argumentComplaint? (command : Command Opt) (tree : FileTree) :
    List String → Option String
  | [] => some ("Missing argument " ++ Text.quoted command.argument ++ ".")
  | path :: _ =>
    (ValueKind.presentFile.complaint? tree path).map fun complaint =>
      "Invalid value for " ++ Text.quoted command.argument ++ ": " ++ complaint

/-- The complaint about arguments behind the first one, if there are any. -/
def extraComplaint? : List String → Option String
  | [] | [_] => none
  | [_, extra] => some ("Got unexpected extra argument (" ++ extra ++ ")")
  | _ :: extra => some ("Got unexpected extra arguments (" ++ " ".intercalate extra ++ ")")

/-- Reads a command line. -/
def read (command : Command Opt) (tree : FileTree) (words : List String) :
    CommandReading Opt :=
  match command.table.read words with
  | .error error => .refused (command.refusal error)
  | .ok (given, arguments) =>
    let request : Request Opt := ⟨arguments.headD "", given⟩
    if request.has command.version then .version
    else
      let complaint := ((given.findSome? fun one =>
        command.optionComplaint? tree request one.option).or
          (command.argumentComplaint? tree arguments)).or (extraComplaint? arguments)
      match complaint with
      | some complaint => .refused (command.usage complaint)
      | none => .accepted request

/-- Runs a tool on a command line. -/
def run (command : Command Opt) (act : FileTree → Request Opt → Report) (tree : FileTree)
    (words : List String) : Report :=
  match command.read tree words with
  | .accepted request => act tree request
  | .version => ⟨0, echo (command.name ++ ", version 1.0.0"), "", tree, none⟩
  | .refused text => .silent tree 2 text

/-- The paths that a command line mentions. -/
def paths (command : Command Opt) (words : List String) : List String :=
  match command.table.read words with
  | .error _ => []
  | .ok (given, arguments) =>
    arguments ++ (given.filter fun one =>
      command.kind one.option = .presentFile || command.kind one.option = .filePath).map Given.value

end Command

end Octet
