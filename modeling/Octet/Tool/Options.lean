/-
This file reads the words of a command line. A word that begins with a dash is
an option, spelled out behind two dashes or as a single letter behind one; any
other word is an argument, and two dashes alone end the options. The value of
an option follows it as the next word, behind an equals sign, or right behind
its letter. Letters without values can be run together.
-/

import Octet.Text.Quoted

namespace Octet

/-- The options of a tool: their spellings with the dashes, and whether they take a value. -/
structure OptionTable (Opt : Type) where
  spellings : List (String × Opt)
  takesValue : Opt → Bool

/-- An option as given on the command line; one without a value has an empty one. -/
structure Given (Opt : Type) where
  option : Opt
  value : String
deriving DecidableEq

/-- Words that make no command line. -/
inductive OptionError where
  | unknown (spelling : String)
  | valueMissing (spelling : String)
  | valueUnwanted (spelling : String)
deriving DecidableEq, Repr

/-- The complaint about such words. -/
def OptionError.message : OptionError → String
  | unknown spelling => "No such option: " ++ spelling
  | valueMissing spelling => "Option " ++ Text.quoted spelling ++ " requires an argument."
  | valueUnwanted spelling => "Option " ++ Text.quoted spelling ++ " does not take a value."

namespace OptionTable

variable {Opt : Type}

/-- Whether a spelling is a single letter behind a single dash. -/
def isShort (spelling : String) : Bool :=
  spelling.length = 2

/-- The option spelled out like this. -/
def long? (table : OptionTable Opt) (spelling : String) : Option Opt :=
  if isShort spelling then none else table.spellings.lookup spelling

/-- The option with this letter. -/
def short? (table : OptionTable Opt) (letter : Char) : Option Opt :=
  table.spellings.lookup (String.ofList ['-', letter])

/-- Reads letters behind a single dash. `next` is the word behind them. The answer tells whether
that word was taken as a value. -/
def readLetters (table : OptionTable Opt) (next : Option String) :
    List Char → Except OptionError (List (Given Opt) × Bool)
  | [] => .ok ([], false)
  | letter :: rest =>
    match table.short? letter with
    | none => .error (.unknown (String.ofList ['-', letter]))
    | some option =>
      if table.takesValue option then
        match rest, next with
        | [], some value => .ok ([⟨option, value⟩], true)
        | [], none => .error (.valueMissing (String.ofList ['-', letter]))
        | value, _ => .ok ([⟨option, String.ofList value⟩], false)
      else do
        let (more, taken) ← readLetters table next rest
        .ok (⟨option, ""⟩ :: more, taken)

/-- Splits a word at its first equals sign. -/
def splitValue (word : List Char) : String × Option String :=
  (String.ofList (word.takeWhile (· ≠ '=')),
    match word.dropWhile (· ≠ '=') with
    | [] => none
    | _ :: value => some (String.ofList value))

/-- Reads a word that begins with a dash. `next` is the word behind it. The answer tells whether
that word was taken as a value. -/
def readWord (table : OptionTable Opt) (word : String) (next : Option String) :
    Except OptionError (List (Given Opt) × Bool) :=
  let (spelling, explicit) := splitValue word.toList
  match table.long? spelling with
  | some option =>
    match table.takesValue option, explicit, next with
    | true, some value, _ => .ok ([⟨option, value⟩], false)
    | true, none, some value => .ok ([⟨option, value⟩], true)
    | true, none, none => .error (.valueMissing spelling)
    | false, some _, _ => .error (.valueUnwanted spelling)
    | false, none, _ => .ok ([⟨option, ""⟩], false)
  | none =>
    match word.toList with
    | '-' :: '-' :: _ => .error (.unknown spelling)
    | letters => table.readLetters next (letters.drop 1)

/-- Whether a word is an option. -/
def isOption (word : String) : Bool :=
  match word.toList with
  | '-' :: _ :: _ => true
  | _ => false

/-- Reads a command line: its options and its arguments, each in order. -/
def read (table : OptionTable Opt) :
    List String → Except OptionError (List (Given Opt) × List String)
  | [] => .ok ([], [])
  | word :: rest =>
    if word = "--" then .ok ([], rest)
    else if isOption word then do
      let (given, taken) ← table.readWord word rest.head?
      let (more, arguments) ← read table (rest.drop (if taken then 1 else 0))
      .ok (given ++ more, arguments)
    else do
      let (given, arguments) ← read table rest
      .ok (given, word :: arguments)
termination_by words => words.length
decreasing_by
  · simp only [List.length_drop, List.length_cons]; omega
  · simp

end OptionTable

end Octet
