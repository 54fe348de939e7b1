/-
This file shows that the distance of two spellings is the least number of edits
between them, and which names are suggested because of it.

Rows of distances can be computed in two directions. Reports go from the ends
of both texts, and a row holds the distances to every ending of the other text.
Going from the beginnings, a row is overwritten by the next one in place after
place, and entries are looked up by their index: that of the place, that behind
it, and the last one that has been written. Such a look-up could break down. It
is shown that it never does, and that both directions lead to the same number:
a beginning read backwards is an ending, and turning both texts around does not
change how far they are apart.
-/

import Mathlib.Data.List.Infix
import Octet.Proofs.Editing
import Octet.Proofs.Following

namespace Octet

/-! ### Rows for endings -/

namespace Text

/-- The row for a character in front of a text has the distances to all endings, if the row of the
text has. -/
theorem precededRow_tails (c : Char) (text other : List Char) :
    precededRow c other (other.tails.map (distance text)) =
      other.tails.map (distance (c :: text)) := by
  induction other with
  | nil =>
    simp only [List.tails, List.map_cons, List.map_nil, precededRow, distance_nil_right,
      List.length_cons]
  | cons d other inductionHypothesis =>
    have first (text : List Char) :
        (other.tails.map (distance text)).headD 0 = distance text other := by
      cases other <;> rfl
    rw [List.tails, List.map_cons, precededRow, inductionHypothesis, List.map_cons, first, first,
      distance]

theorem distanceRow_eq_tails (text other : List Char) :
    distanceRow text other = other.tails.map (distance text) := by
  rw [distanceRow]
  induction text with
  | nil =>
    rw [List.foldr_nil]
    induction other with
    | nil =>
      rw [List.tails, List.map_cons, distance_nil_left]
      rfl
    | cons d other inductionHypothesis =>
      rw [List.length_cons, List.range_succ, List.reverse_append, inductionHypothesis, List.tails,
        List.map_cons, distance_nil_left, List.length_cons]
      rfl
  | cons c text inductionHypothesis =>
    rw [List.foldr_cons, inductionHypothesis, precededRow_tails]

theorem editDistance_eq_distance (text other : String) :
    editDistance text other = distance text.toList other.toList := by
  rw [editDistance, distanceRow_eq_tails]
  cases other.toList <;> rfl

end Text

/-! ### Rows for beginnings -/

namespace Guarded

/-- Writes the rest of a row, from the row in front of it and what has been written so far. The
character is the next of one text, and what is left of the other text begins at the place. -/
def rollRow (c : Char) (row : List Nat) (place : Nat) : List Char → List Nat → Work (List Nat)
  | [], written => return written
  | d :: rest, written => do
    let both ← itemAt row place
    if c = d then rollRow c row (place + 1) rest (written ++ [both])
    else do
      let next ← itemAt row (place + 1)
      let last ← itemAt written (-1)
      rollRow c row (place + 1) rest (written ++ [1 + min both (min next last)])

/-- Writes one row for each character of a text, and keeps the last. -/
def rollRows (other : List Char) (index : Nat) : List Char → List Nat → Work (List Nat)
  | [], row => return row
  | c :: rest, row => do rollRows other (index + 1) rest (← rollRow c row 0 other [index + 1])

/-- The number of single-character edits between two texts, the longer of which is gone through. -/
def rolledDistance (first second : String) : Work Nat := do
  let (longer, shorter) := if first.length < second.length then (second, first) else (first, second)
  itemAt (← rollRows shorter.toList 0 longer.toList (List.range (shorter.length + 1))) (-1)

/-- The distances between a text and the first beginnings of another, read backwards. -/
def beginningRow (text other : List Char) (count : Nat) : List Nat :=
  (List.range (count + 1)).map fun place => Text.distance text (other.take place).reverse

theorem itemAt_last (items : List Nat) (last : Nat) : itemAt (items ++ [last]) (-1) = .ok last := by
  have place : (-1 : Int) + ((items ++ [last]).length : Nat) = (items.length : Nat) := by
    rw [List.length_append, List.length_singleton]
    omega
  have listed : (items ++ [last])[items.length]? = some last := List.getElem?_concat_length
  have negative : (-1 : Int) < 0 := by decide
  have front : ¬((items.length : Nat) : Int) < 0 := by omega
  simp only [itemAt, if_pos negative, place, if_neg front, Int.toNat_natCast, listed]

section

variable (text other : List Char)

theorem beginningRow_succ (count : Nat) :
    beginningRow text other (count + 1) =
      beginningRow text other count ++ [Text.distance text (other.take (count + 1)).reverse] := by
  rw [beginningRow, List.range_succ, List.map_append]
  rfl

theorem itemAt_beginningRow {place count : Nat} (within : place ≤ count) :
    itemAt (beginningRow text other count) place =
      .ok (Text.distance text (other.take place).reverse) := by
  refine itemAt_eq ?_
  rw [beginningRow, List.getElem?_map, List.getElem?_range (Nat.lt_succ_of_le within)]
  rfl

theorem itemAt_beginningRow_last (count : Nat) :
    itemAt (beginningRow text other count) (-1) =
      .ok (Text.distance text (other.take count).reverse) := by
  rw [beginningRow, List.range_succ, List.map_append]
  exact itemAt_last _ _

/-- The distances to nothing are the lengths of the beginnings. -/
theorem beginningRow_nil : beginningRow [] other other.length = List.range (other.length + 1) := by
  rw [beginningRow]
  refine (List.map_congr_left fun place member => ?_).trans (List.map_id _)
  rw [Text.distance_nil_left, List.length_reverse, List.length_take, id,
    Nat.min_eq_left (Nat.le_of_lt_succ (List.mem_range.mp member))]

end

variable {text other done rest : List Char}

/-- Of every row that has been written up to a place, the rest can be written. The entry at a place
comes from the three around it, because the beginnings up to the place end with the two
characters that are compared. -/
theorem rollRow_eq (c : Char) (parts : done ++ rest = other) :
    rollRow c (beginningRow text other other.length) done.length rest
        (beginningRow (c :: text) other done.length) =
      .ok (beginningRow (c :: text) other other.length) := by
  induction rest generalizing done with
  | nil =>
    obtain rfl : done = other := (List.append_nil done).symm.trans parts
    rfl
  | cons d rest inductionHypothesis =>
    have further : (done ++ [d]) ++ rest = other := (List.append_cons done d rest).symm.trans parts
    have next : (done ++ [d]).length = done.length + 1 := List.length_append
    have within : done.length + 1 ≤ other.length := by
      rw [← further, List.length_append, next]
      exact Nat.le_add_right _ _
    have upTo : other.take done.length = done := by rw [← parts, List.take_left]
    have past : (other.take (done.length + 1)).reverse = d :: done.reverse := by
      rw [← further, ← next, List.take_left, List.reverse_append]
      rfl
    have entries := inductionHypothesis further
    rw [next, beginningRow_succ, past] at entries
    rw [rollRow, itemAt_beginningRow text other (Nat.le_of_succ_le within), ok_bind, upTo]
    by_cases same : c = d
    · subst same
      rw [Text.distance_cons_self] at entries
      rw [if_pos rfl, entries]
    · have above : itemAt (beginningRow text other other.length) ((done.length : Int) + 1) =
          .ok (Text.distance text (d :: done.reverse)) := by
        have found := itemAt_beginningRow text other within
        rwa [past] at found
      rw [Text.distance_cons_of_ne same] at entries
      rw [if_neg same, above, ok_bind, itemAt_beginningRow_last, upTo, ok_bind, entries]

/-- The row of a beginning leads to the row of the whole text. -/
theorem rollRows_eq (parts : done ++ rest = text) :
    rollRows other done.length rest (beginningRow done.reverse other other.length) =
      .ok (beginningRow text.reverse other other.length) := by
  induction rest generalizing done with
  | nil =>
    obtain rfl : done = text := (List.append_nil done).symm.trans parts
    rfl
  | cons c rest inductionHypothesis =>
    have further : (done ++ [c]) ++ rest = text := (List.append_cons done c rest).symm.trans parts
    have next : (done ++ [c]).length = done.length + 1 := List.length_append
    have behind : (done ++ [c]).reverse = c :: done.reverse := List.reverse_append
    have entries := inductionHypothesis further
    rw [next, behind] at entries
    have first : [done.length + 1] = beginningRow (c :: done.reverse) other 0 := by
      rw [← next, ← List.length_reverse, behind, ← Text.distance_nil_right]
      rfl
    have row : rollRow c (beginningRow done.reverse other other.length) 0 other
        (beginningRow (c :: done.reverse) other 0) =
          .ok (beginningRow (c :: done.reverse) other other.length) :=
      rollRow_eq c (List.nil_append other)
    rw [rollRows, first]
    exact (congrArg (· >>= rollRows other (done.length + 1) rest) row).trans entries

theorem rollRows_last (longer shorter : List Char) :
    (do itemAt (← rollRows shorter 0 longer (List.range (shorter.length + 1))) (-1)) =
      (.ok (Text.distance longer shorter) : Work Nat) := by
  have rows : rollRows shorter 0 longer (beginningRow [] shorter shorter.length) =
      .ok (beginningRow longer.reverse shorter shorter.length) :=
    rollRows_eq (List.nil_append longer)
  have last := itemAt_beginningRow_last longer.reverse shorter shorter.length
  rw [List.take_length, Text.distance_reverse] at last
  rw [← beginningRow_nil]
  exact (congrArg (· >>= fun row => itemAt row (-1)) rows).trans last

/-- No look-up breaks down, and rows of beginnings lead to the same number as rows of endings. -/
theorem rolledDistance_eq (first second : String) :
    rolledDistance first second = .ok (Text.editDistance first second) := by
  rw [Text.editDistance_eq_distance, rolledDistance]
  by_cases shorter : first.length < second.length
  · rw [if_pos shorter, Text.distance_comm]
    exact rollRows_last second.toList first.toList
  · rw [if_neg shorter]
    exact rollRows_last first.toList second.toList

end Guarded

/-! ### Suggested names -/

namespace Text

/-- A candidate is close to a name: both have the same small letters, or their lengths differ by at
most one and their small letters by at most two edits, fewer for a short name. -/
def CloseTo (name candidate : String) : Prop :=
  Character.lowercase candidate = Character.lowercase name ∨
    ((candidate.length : Int) - name.length).natAbs ≤ 1 ∧
      (editDistance (Character.lowercase name) (Character.lowercase candidate) : Int) ≤
        min 2 ((name.length : Int) - 1)

instance (name candidate : String) : Decidable (CloseTo name candidate) :=
  inferInstanceAs (Decidable (_ ∨ _ ∧ _))

theorem resembles_eq_closeTo (name candidate : String) :
    resembles name candidate = decide (CloseTo name candidate) := by
  have lengths : (candidate.length ≤ name.length + 1 ∧ name.length ≤ candidate.length + 1) ↔
      ((candidate.length : Int) - name.length).natAbs ≤ 1 := by
    omega
  rw [Bool.eq_iff_iff, decide_eq_true_iff, CloseTo, ← lengths]
  simp only [resembles, Bool.or_eq_true, Bool.and_eq_true, beq_iff_eq, decide_eq_true_eq]

end Text

/-- The distance of two texts is the least number of characters that must be inserted, deleted and
replaced to turn one into the other, also if it is computed row by row from their beginnings, with
every entry looked up by its index. With this number texts are a metric space, and names are
suggested by it: the first candidates that are close to a name, in their own order. -/
theorem edit_distance_is_least :
    (∀ first second : String,
        Guarded.rolledDistance first second = .ok (Text.editDistance first second) ∧
        IsLeast {count | Text.Edited count first.toList second.toList}
          (Text.editDistance first second) ∧
        Text.editDistance second first = Text.editDistance first second ∧
        (Text.editDistance first second = 0 ↔ first = second) ∧
        ((first.length : Int) - second.length).natAbs ≤ Text.editDistance first second ∧
        Text.editDistance first second ≤ max first.length second.length ∧
        ∀ third, Text.editDistance first third ≤
          Text.editDistance first second + Text.editDistance second third) ∧
      ∀ (name : String) (candidates : List String) (limit : Nat),
        Text.suggestions name candidates limit =
          (candidates.filter fun candidate => Text.CloseTo name candidate).take limit := by
  refine ⟨fun first second => ?_, fun name candidates limit => ?_⟩
  · refine ⟨Guarded.rolledDistance_eq first second, ?_⟩
    simp only [Text.editDistance_eq_distance]
    have longer := Text.length_le_distance first.toList second.toList
    have shorter := Text.length_le_distance second.toList first.toList
    rw [Text.distance_comm second.toList] at shorter
    simp only [String.length_toList] at longer shorter
    refine ⟨Text.distance_isLeast _ _, Text.distance_comm _ _, ?_, by omega, ?_,
      fun third => Text.distance_triangle _ _ _⟩
    · rw [Text.distance_eq_zero_iff, String.toList_inj]
    · exact Text.distance_le_max _ _
  · have natural : ¬(limit : Int) < 0 := by omega
    rw [Text.suggestions, Text.upToLimit, if_neg natural, Int.toNat_natCast, Text.resembling]
    exact congrArg (List.take limit)
      (List.filter_congr fun candidate _ => Text.resembles_eq_closeTo name candidate)

end Octet
