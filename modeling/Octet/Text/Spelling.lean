/-
This file finds names that are spelled alike, so that a report can ask "did
you mean". Two spellings are close when few single-character insertions,
deletions and substitutions turn one into the other. The distance is computed
row by row: a row holds the distances between what is left of one text and
every ending of the other.
-/

import Octet.Character.Lowercase

namespace Octet.Text

/-! ### Distance -/

/-- The row for `c` in front of a text, from the row of the text itself. A row has one entry
for each ending of `other`, the longest first. -/
def precededRow (c : Char) : (other : List Char) → (row : List Nat) → List Nat
  | [], row => row.map (· + 1)
  | _ :: _, [] => []
  | d :: other, both :: row =>
    let shorter := precededRow c other row
    let cell := if c = d then row.headD 0 else 1 + min (row.headD 0) (min both (shorter.headD 0))
    cell :: shorter

/-- The distances between a text and every ending of another, the longest first. -/
def distanceRow (text other : List Char) : List Nat :=
  text.foldr (fun c row => precededRow c other row) ((List.range (other.length + 1)).reverse)

/-- The least number of single-character edits between two texts. -/
def editDistance (text other : String) : Nat :=
  (distanceRow text.toList other.toList).headD 0

/-! ### Similar names -/

/-- Whether a candidate could have been meant: it differs in case only, or its length differs
by at most one and its letters by at most two edits, fewer for a short name. -/
def resembles (name candidate : String) : Bool :=
  let nameSmall := Character.lowercase name
  let candidateSmall := Character.lowercase candidate
  candidateSmall == nameSmall ||
    (candidate.length ≤ name.length + 1 && name.length ≤ candidate.length + 1 &&
      (editDistance nameSmall candidateSmall : Int) ≤ min 2 ((name.length : Int) - 1))

/-- The candidates that could have been meant, in their own order. -/
def resembling (name : String) (candidates : List String) : List String :=
  candidates.filter (resembles name)

/-- The first `limit` of some names; a negative limit drops that many from the end. -/
def upToLimit (limit : Int) (names : List String) : List String :=
  if limit < 0 then names.take (names.length - limit.natAbs) else names.take limit.toNat

/-- At most `limit` candidates that could have been meant. -/
def suggestions (name : String) (candidates : List String) (limit : Int) : List String :=
  upToLimit limit (resembling name candidates)

/-- A question after names between single quotes. -/
def didYouMean (names : List String) : String :=
  "did you mean " ++ ", ".intercalate (names.map fun name => "'" ++ name ++ "'") ++ "?"

end Octet.Text
