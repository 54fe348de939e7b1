/-
This file dresses text for a terminal and undresses it again. A style is a
control sequence in front of the text and a reset behind it, also around an
empty text. Undressing removes every control sequence in one pass from the
left, whether a style put it there or the text itself brought it.
-/

namespace Octet.Text

/-- The colours that reports use. -/
inductive Colour where
  | red
  | blue
deriving DecidableEq, Repr

/-- The control sequence that switches a colour on. -/
def Colour.sequence : Colour → String
  | .red => "\x1b[31m"
  | .blue => "\x1b[34m"

/-- Bold text, in a colour if one is given. -/
def bold (colour : Option Colour) (text : String) : String :=
  (colour.map Colour.sequence).getD "" ++ "\x1b[1m" ++ text ++ "\x1b[0m"

/-- Characters that may stand between the bracket and the letter of a control sequence. -/
def isParameter (c : Char) : Bool :=
  c = ';' || c = '?' || c.isDigit

/-- How many characters behind an escape character belong to its control sequence; none if the
text does not go on as one. -/
def sequenceLength : List Char → Nat
  | '[' :: rest =>
    match rest.dropWhile isParameter with
    | letter :: _ => if letter.isAlpha then (rest.takeWhile isParameter).length + 2 else 0
    | [] => 0
  | _ => 0

/-- The characters that remain when every control sequence is taken out. -/
def plainChars : List Char → List Char
  | [] => []
  | c :: rest =>
    let controls := if c = '\x1b' then sequenceLength rest else 0
    if controls = 0 then c :: plainChars rest else plainChars (rest.drop controls)
termination_by text => text.length
decreasing_by
  · simp
  · simp only [List.length_drop, List.length_cons]
    omega

/-- The text without control sequences. -/
def plain (text : String) : String :=
  String.ofList (plainChars text.toList)

end Octet.Text
