/-
This file says how far two texts are apart: how many single characters must be
inserted, deleted and replaced, one after the other and anywhere in the text, to
turn one into the other. The distance of two texts is computed from their first
characters, and where these agree they are passed at once. It is shown that this
is the least number of edits.

That so many edits do is seen from the computation. That fewer do not is seen
from the edits: a single edit, however far into the text it is made, changes the
distance to any third text by at most one. It is here that passing equal first
characters at once has to be paid for, since it leaves out all other ways to go
on.
-/

import Mathlib.Order.Bounds.Basic
import Octet.Text.Spelling

namespace Octet.Text

/-! ### Edits -/

/-- An edit of a text: a character is inserted, deleted or replaced by another. -/
inductive Edit : List Char → List Char → Prop
  | insert (front : List Char) (c : Char) (back : List Char) :
      Edit (front ++ back) (front ++ c :: back)
  | delete (front : List Char) (c : Char) (back : List Char) :
      Edit (front ++ c :: back) (front ++ back)
  | substitute (front : List Char) (c d : Char) (back : List Char) :
      Edit (front ++ c :: back) (front ++ d :: back)

/-- So many edits turn a text into another. -/
inductive Edited : Nat → List Char → List Char → Prop
  | none (text : List Char) : Edited 0 text text
  | edit {count : Nat} {first second third : List Char} (edit : Edit first second)
      (others : Edited count second third) : Edited (count + 1) first third

/-- An edit may be made behind another character. -/
theorem Edit.cons {first second : List Char} (c : Char) (edit : Edit first second) :
    Edit (c :: first) (c :: second) := by
  cases edit with
  | insert front d back => exact .insert (c :: front) d back
  | delete front d back => exact .delete (c :: front) d back
  | substitute front d e back => exact .substitute (c :: front) d e back

/-- An edit may be made from the other end. -/
theorem Edit.reverse {first second : List Char} (edit : Edit first second) :
    Edit first.reverse second.reverse := by
  cases edit with
  | insert front c back =>
    have made := Edit.insert back.reverse c front.reverse
    simpa using made
  | delete front c back =>
    have made := Edit.delete back.reverse c front.reverse
    simpa using made
  | substitute front c d back =>
    have made := Edit.substitute back.reverse c d front.reverse
    simpa using made

theorem Edited.cons {count : Nat} {first second : List Char} (c : Char)
    (edited : Edited count first second) : Edited count (c :: first) (c :: second) := by
  induction edited with
  | none text => exact .none _
  | edit edit _ inductionHypothesis => exact .edit (edit.cons c) inductionHypothesis

theorem Edited.reverse {count : Nat} {first second : List Char}
    (edited : Edited count first second) : Edited count first.reverse second.reverse := by
  induction edited with
  | none text => exact .none _
  | edit edit _ inductionHypothesis => exact .edit edit.reverse inductionHypothesis

/-- Characters can be inserted one by one. -/
theorem edited_of_nil (text : List Char) : Edited text.length [] text := by
  induction text with
  | nil => exact .none _
  | cons c rest inductionHypothesis =>
    exact .edit (.insert [] c []) (inductionHypothesis.cons c)

/-- Characters can be deleted one by one. -/
theorem edited_to_nil (text : List Char) : Edited text.length text [] := by
  induction text with
  | nil => exact .none _
  | cons c rest inductionHypothesis => exact .edit (.delete [] c rest) inductionHypothesis

/-! ### The distance from the first characters -/

/-- The distance of two texts. Equal first characters are passed; otherwise one is replaced by the
other, or one of them is missing in the other text. -/
def distance : List Char → List Char → Nat
  | [], other => other.length
  | _ :: text, [] => text.length + 1
  | c :: text, d :: other =>
    if c = d then distance text other
    else
      1 + min (distance text other)
        (min (distance text (d :: other)) (distance (c :: text) other))
termination_by text other => text.length + other.length

theorem distance_nil_left (other : List Char) : distance [] other = other.length := by
  rw [distance]

theorem distance_nil_right (text : List Char) : distance text [] = text.length := by
  cases text <;> rw [distance]
  rfl

theorem distance_cons_self (c : Char) (text other : List Char) :
    distance (c :: text) (c :: other) = distance text other := by
  rw [distance, if_pos rfl]

theorem distance_cons_of_ne {c d : Char} (different : c ≠ d) (text other : List Char) :
    distance (c :: text) (d :: other) =
      1 + min (distance text other)
        (min (distance text (d :: other)) (distance (c :: text) other)) := by
  rw [distance, if_neg different]

theorem distance_self (text : List Char) : distance text text = 0 := by
  induction text with
  | nil => rw [distance_nil_left, List.length_nil]
  | cons c rest inductionHypothesis => rw [distance_cons_self, inductionHypothesis]

theorem distance_comm (text other : List Char) : distance text other = distance other text := by
  fun_induction distance text other with
  | case1 other => rw [distance_nil_right]
  | case2 c text => rw [distance_nil_left, List.length_cons]
  | case3 text d other inductionHypothesis => rw [distance_cons_self, inductionHypothesis]
  | case4 c text d other different both behind front =>
    rw [distance_cons_of_ne (Ne.symm different), both, behind, front,
      Nat.min_comm (distance (d :: other) text)]

theorem distance_le_max (text other : List Char) :
    distance text other ≤ max text.length other.length := by
  fun_induction distance text other with
  | case1 other => exact Nat.le_max_right _ _
  | case2 c text => exact Nat.le_max_left _ _
  | case3 text d other inductionHypothesis =>
    rw [List.length_cons, List.length_cons]
    omega
  | case4 c text d other different both _ _ =>
    rw [List.length_cons, List.length_cons]
    omega

/-- So many edits as the distance tells turn one text into the other. -/
theorem edited_distance (text other : List Char) : Edited (distance text other) text other := by
  fun_induction distance text other with
  | case1 other => exact edited_of_nil other
  | case2 c text => exact edited_to_nil (c :: text)
  | case3 text d other inductionHypothesis => exact inductionHypothesis.cons d
  | case4 c text d other different both behind front =>
    rw [Nat.add_comm]
    rcases Nat.le_total (distance text other)
      (min (distance text (d :: other)) (distance (c :: text) other)) with replaced | shorter
    · rw [Nat.min_eq_left replaced]
      exact .edit (.substitute [] c d text) (both.cons d)
    rw [Nat.min_eq_right shorter]
    rcases Nat.le_total (distance text (d :: other)) (distance (c :: text) other) with
      deleted | inserted
    · rw [Nat.min_eq_left deleted]
      exact .edit (.delete [] c text) behind
    · rw [Nat.min_eq_right inserted]
      exact .edit (.insert [] d (c :: text)) (front.cons d)

/-! ### A single edit changes the distance by at most one -/

/-- A first character more or less changes the distance by at most one. This goes by the length of
both texts together, because the roles of the two are swapped. -/
theorem distance_cons_near (c : Char) (text other : List Char) :
    distance (c :: text) other ≤ distance text other + 1 ∧
      distance text other ≤ distance (c :: text) other + 1 := by
  induction sum : text.length + other.length using Nat.strongRecOn generalizing c text other with
  | ind size inductionHypothesis =>
  cases other with
  | nil =>
    rw [distance_nil_right, distance_nil_right, List.length_cons]
    omega
  | cons d rest =>
    rw [List.length_cons] at sum
    have swapped := inductionHypothesis _ (by omega) d rest text rfl
    rw [distance_comm (d :: rest), distance_comm rest] at swapped
    by_cases same : c = d
    · subst same
      rw [distance_cons_self]
      exact swapped.symm
    · have shorter := inductionHypothesis _ (by omega) c text rest rfl
      rw [distance_cons_of_ne same]
      omega

/-- Another first character changes the distance by at most one. -/
theorem distance_substitute_le (c d : Char) (text other : List Char) :
    distance (c :: text) other ≤ distance (d :: text) other + 1 := by
  induction other with
  | nil =>
    rw [distance_nil_right, distance_nil_right, List.length_cons, List.length_cons]
    exact Nat.le_succ _
  | cons e rest inductionHypothesis =>
    have one : distance text rest ≤ distance text (e :: rest) + 1 := by
      rw [distance_comm text, distance_comm text]
      exact (distance_cons_near e rest text).2
    have two := (distance_cons_near d text rest).2
    by_cases sameFirst : c = e
    · subst sameFirst
      rw [distance_cons_self]
      by_cases sameSecond : d = c
      · subst sameSecond
        rw [distance_cons_self]
        exact Nat.le_succ _
      · rw [distance_cons_of_ne sameSecond]
        omega
    · rw [distance_cons_of_ne sameFirst]
      by_cases sameSecond : d = e
      · subst sameSecond
        rw [distance_cons_self]
        omega
      · rw [distance_cons_of_ne sameSecond]
        omega

/-- What changes the distance by at most one does so behind other characters as well. -/
theorem distance_append_le {first second : List Char}
    (near : ∀ other, distance first other ≤ distance second other + 1) (front other : List Char) :
    distance (front ++ first) other ≤ distance (front ++ second) other + 1 := by
  induction front generalizing other with
  | nil => exact near other
  | cons c front further =>
    induction other with
    | nil =>
      have lengths := further []
      rw [distance_nil_right, distance_nil_right] at lengths
      rw [distance_nil_right, distance_nil_right, List.cons_append, List.cons_append,
        List.length_cons, List.length_cons]
      omega
    | cons d rest inductionHypothesis =>
      rw [List.cons_append, List.cons_append] at inductionHypothesis ⊢
      by_cases same : c = d
      · subst same
        rw [distance_cons_self, distance_cons_self]
        exact further rest
      · have both := further rest
        have behind := further (d :: rest)
        rw [distance_cons_of_ne same, distance_cons_of_ne same]
        omega

theorem Edit.distance_le {first second : List Char} (edit : Edit first second)
    (other : List Char) : distance first other ≤ distance second other + 1 := by
  cases edit with
  | insert front c back =>
    exact distance_append_le (fun other => (distance_cons_near c back other).2) front other
  | delete front c back =>
    exact distance_append_le (fun other => (distance_cons_near c back other).1) front other
  | substitute front c d back =>
    exact distance_append_le (distance_substitute_le c d back) front other

/-- So many edits change the distance to a third text by at most their number. -/
theorem Edited.distance_le {count : Nat} {first second : List Char}
    (edited : Edited count first second) (other : List Char) :
    distance first other ≤ distance second other + count := by
  induction edited with
  | none text => exact Nat.le_refl _
  | edit edit _ inductionHypothesis =>
    have once := edit.distance_le other
    omega

/-! ### The distance is the least number of edits -/

/-- The distance is the least number of edits that turn one text into the other. -/
theorem distance_isLeast (text other : List Char) :
    IsLeast {count | Edited count text other} (distance text other) := by
  refine ⟨edited_distance text other, fun count edited => ?_⟩
  have near := edited.distance_le other
  rwa [distance_self, Nat.zero_add] at near

theorem distance_eq_zero_iff (text other : List Char) : distance text other = 0 ↔ text = other := by
  constructor
  · intro same
    have edited := edited_distance text other
    rw [same] at edited
    cases edited
    rfl
  · rintro rfl
    exact distance_self text

theorem distance_triangle (first second third : List Char) :
    distance first third ≤ distance first second + distance second third := by
  rw [Nat.add_comm]
  exact (edited_distance first second).distance_le third

theorem length_le_distance (text other : List Char) :
    text.length ≤ other.length + distance text other := by
  have near := (edited_distance text other).distance_le []
  rwa [distance_nil_right, distance_nil_right] at near

/-- Texts are as far apart from their ends as they are from their beginnings. -/
theorem distance_reverse (text other : List Char) :
    distance text.reverse other.reverse = distance text other := by
  refine Nat.le_antisymm ((distance_isLeast _ _).2 (edited_distance text other).reverse) ?_
  refine (distance_isLeast _ _).2 ?_
  have edited := (edited_distance text.reverse other.reverse).reverse
  rwa [List.reverse_reverse, List.reverse_reverse] at edited

end Octet.Text
