/-
This file holds the places that reports point at: half-open byte ranges within
one line of source text. That a range never ends before it begins is part of
the type.
-/

namespace Octet

/-- The bytes from `lo` up to `hi`. -/
structure Span where
  lo : Nat
  hi : Nat
  ordered : lo ≤ hi := by omega
deriving DecidableEq

/-- Bounds that make no span: negative, or the wrong way round. -/
structure InvalidSpan where
  lo : Int
  hi : Int
deriving DecidableEq, Repr

namespace Span

/-- The span between two numbers, if they are in order and not negative. -/
def ofBounds (lo hi : Int) : Except InvalidSpan Span :=
  if bounds : 0 ≤ lo ∧ lo ≤ hi then .ok ⟨lo.toNat, hi.toNat, by omega⟩ else .error ⟨lo, hi⟩

/-- How many bytes the span holds. -/
def length (span : Span) : Nat :=
  span.hi - span.lo

/-- The bounds with two dots between them. -/
def text (span : Span) : String :=
  toString span.lo ++ ".." ++ toString span.hi

/-- The byte behind the given place. -/
def behind (place : Nat) : Span :=
  ⟨place, place + 1, Nat.le_succ place⟩

end Span

/-- The complaint about bounds that make no span. -/
def InvalidSpan.message (invalid : InvalidSpan) : String :=
  "invalid span " ++ toString invalid.lo ++ ".." ++ toString invalid.hi

/-- A value with the place it was read from. -/
structure Located (Value : Type) where
  value : Value
  span : Span
deriving DecidableEq

/-- The text of a value together with its place. -/
def Located.text {Value : Type} (written : Value → String) (located : Located Value) : String :=
  written located.value ++ " @ " ++ located.span.text

end Octet
