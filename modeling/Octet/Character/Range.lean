/-
This file says what a character class is made of: code point ranges in
ascending order, both ends included. Looking a code point up stops at the
first range that lies above it, so the order of a table is part of its
meaning.
-/

namespace Octet.Character

/-- Ascending code point ranges, both ends included. -/
abbrev Ranges := List (Nat × Nat)

/-- Whether some range holds the code point. The search ends at the first range above it. -/
def Ranges.holds : Ranges → Nat → Bool
  | [], _ => false
  | (first, last) :: higher, code =>
    if code < first then false
    else if code ≤ last then true
    else Ranges.holds higher code

end Octet.Character
