/-
This file shows which column a byte of a line is shown in, wherever it lies.
What stands in front of the byte is decoded, and a character that the place cuts
is shown as one replacement character however many of its bytes are left. So the
column is the number of characters that begin before the byte, and behind the
end of the line every byte takes one column more.

The point is that a cut character leaves one segment and not one for each byte.
Its first byte promises as many bytes as it has, those that are left keep the
promise as far as they go, and the end of the bytes is what breaks it.
-/

import Mathlib.Data.List.TakeDrop
import Octet.Proofs.Underlining

namespace Octet

namespace Utf8

/-! ### Cut characters -/

/-- Of fewer bytes no others are taken, and as many as there are. -/
theorem continuation_take (following : Nat) (low high : UInt8) (share : Nat) (bytes : List UInt8)
    (count : Nat) :
    (continuation following low high share (bytes.take count)).2 =
      min count (continuation following low high share bytes).2 := by
  induction following generalizing low high share bytes count with
  | zero => exact (Nat.min_zero count).symm
  | succ following inductionHypothesis =>
    cases bytes with
    | nil => rw [List.take_nil, continuation, Nat.min_zero]
    | cons byte rest =>
      cases count with
      | zero => rw [List.take_zero, continuation, Nat.zero_min]
      | succ count =>
        rw [List.take_succ_cons, continuation, continuation]
        by_cases fits : (low ≤ byte && byte ≤ high) = true
        · simp only [if_pos fits, inductionHypothesis, Nat.add_min_add_right]
        · simp only [if_neg fits, Nat.min_zero]

/-- Where all bytes behind a first byte belong to its segment, fewer of them do as well. -/
theorem opening_take {first : UInt8} {tail : List UInt8}
    (whole : (Segment.opening first tail).bytes = first :: tail) (count : Nat) :
    (Segment.opening first (tail.take count)).bytes = first :: tail.take count := by
  rw [Segment.opening] at whole ⊢
  cases promised : Promise.ofByte? first with
  | none =>
    simp only [promised, List.cons.injEq, true_and] at whole ⊢
    rw [← whole, List.take_nil]
  | some promise =>
    simp only [promised, List.cons.injEq, true_and, List.take_eq_self_iff] at whole ⊢
    rw [continuation_take, List.length_take]
    exact Nat.le_min.mpr ⟨Nat.min_le_left _ _, (Nat.min_le_right _ _).trans whole⟩

/-- The first bytes of a character are one segment, whether or not they are all of it. -/
theorem length_segments_take (c : Char) {count : Nat} (something : 0 < count) :
    (segments ((String.utf8EncodeChar c).take count)).length = 1 := by
  obtain ⟨first, tail, bytes, opens⟩ := opening_encodeChar c []
  rw [List.append_nil] at opens
  obtain ⟨less, rfl⟩ := Nat.exists_eq_succ_of_ne_zero something.ne'
  have taken := opening_take (congrArg Segment.bytes opens) less
  rw [bytes, List.take_succ_cons, segments, taken]
  simp only [List.length_cons, Nat.add_sub_cancel, List.drop_length, segments, List.length_nil]

/-! ### Characters that begin before a byte -/

/-- The number of characters of a text whose encoding begins before a byte. -/
def beginningBefore (text : List Char) (place : Nat) : Nat :=
  (List.range text.length).countP fun index => width (text.take index) < place

theorem beginningBefore_cons (c : Char) (rest : List Char) (place : Nat) :
    beginningBefore (c :: rest) place =
      beginningBefore rest (place - c.utf8Size) + if 0 < place then 1 else 0 := by
  have others : ∀ index,
      decide (width ((c :: rest).take (index + 1)) < place) =
        decide (width (rest.take index) < place - c.utf8Size) := by
    intro index
    rw [List.take_succ_cons, width, decide_eq_decide]
    omega
  rw [beginningBefore, List.length_cons, List.range_succ_eq_map, List.countP_cons, List.countP_map]
  simp only [Function.comp_def, Nat.succ_eq_add_one, others, List.take_zero, width,
    decide_eq_true_eq, beginningBefore]

theorem beginningBefore_zero (text : List Char) : beginningBefore text 0 = 0 := by
  simp [beginningBefore]

theorem beginningBefore_mono (text : List Char) : Monotone (beginningBefore text) :=
  fun _ _ further => List.countP_mono_left fun _ _ before =>
    decide_eq_true (Nat.lt_of_lt_of_le (of_decide_eq_true before) further)

theorem beginningBefore_le (text : List Char) (place : Nat) :
    beginningBefore text place ≤ text.length :=
  List.countP_le_length.trans_eq List.length_range

/-- Bytes in front of a place in a text have as many segments as characters begin there. -/
theorem length_segments_take_encodeChars (text : List Char) (place : Nat) :
    (segments ((encodeChars text).take place)).length = beginningBefore text place := by
  induction text generalizing place with
  | nil =>
    rw [encodeChars, List.flatMap_nil, List.take_nil, segments]
    rfl
  | cons c rest inductionHypothesis =>
    have size : (String.utf8EncodeChar c).length = c.utf8Size := String.length_utf8EncodeChar c
    have bytes : encodeChars (c :: rest) = String.utf8EncodeChar c ++ encodeChars rest := rfl
    rw [beginningBefore_cons, bytes]
    rcases Nat.eq_zero_or_pos place with rfl | something
    · rw [Nat.zero_sub, beginningBefore_zero, List.take_zero, segments]
      rfl
    rw [if_pos something]
    rcases Nat.le_total place c.utf8Size with within | beyond
    · rw [List.take_append_of_le_length (size ▸ within), length_segments_take c something,
        Nat.sub_eq_zero_of_le within, beginningBefore_zero]
    · have single : encodeChars [c] = String.utf8EncodeChar c := List.flatMap_singleton _ _
      rw [List.take_append, List.take_of_length_le (size ▸ beyond), size, ← single,
        segments_encodeChars_append, List.length_append, inductionHypothesis, Nat.add_comm]
      rfl

end Utf8

/-! ### Columns -/

/-- The column of a byte: within a line the number of characters that begin before it, and behind
its end one more for every byte. -/
def lineColumn (line : String) (place : Nat) : Nat :=
  if place ≤ (Utf8.encode line).length then Utf8.beginningBefore line.toList place
  else line.length + (place - (Utf8.encode line).length)

/-- The reader sees every byte in its column. -/
theorem columnOfByte_eq (line : String) (place : Nat) :
    columnOfByte line place = lineColumn line place := by
  have decoded : (Utf8.decodeLossy ((Utf8.encode line).take place)).length =
      Utf8.beginningBefore line.toList place := by
    rw [Utf8.decodeLossy, String.length_ofList, List.length_map, Utf8.encode,
      Utf8.length_segments_take_encodeChars]
  rw [columnOfByte, lineColumn]
  split
  · next within => rw [decoded, Nat.sub_eq_zero_of_le within, Nat.add_zero]
  · next beyond =>
    rw [List.take_of_length_le (Nat.le_of_not_le beyond), Utf8.decodeLossy_encode]

theorem lineColumn_mono (line : String) : Monotone (lineColumn line) := by
  intro first second further
  have most := Utf8.beginningBefore_le line.toList first
  have between := Utf8.beginningBefore_mono line.toList further
  rw [String.length_toList] at most
  simp only [lineColumn]
  split <;> split <;> omega

/-- Carets begin in the column of the first byte and go on up to the column of the last, which is
not smaller. Under characters that a span holds from end to end, there is one caret each. -/
theorem carets_count_characters (line : String) :
    (∀ span : Span, caretRange line span =
        (lineColumn line span.lo, max 1 (lineColumn line span.hi - lineColumn line span.lo))) ∧
      Monotone (lineColumn line) ∧
      ∀ (span : Span) (front piece back : List Char), line.toList = front ++ piece ++ back →
        span.lo = Utf8.width front → span.hi = Utf8.width (front ++ piece) → span.lo < span.hi →
          (caretRange line span).2 = piece.length := by
  refine ⟨fun span => ?_, lineColumn_mono line,
    fun span front piece back parts lo hi something => ?_⟩
  · rw [caretRange, columnOfByte_eq, columnOfByte_eq, Nat.max_comm]
  · have first := columnOfByte_width (parts.trans (List.append_assoc _ _ _))
    have last := columnOfByte_width parts
    have held : piece ≠ [] := by
      rintro rfl
      rw [lo, hi, List.append_nil] at something
      exact Nat.lt_irrefl _ something
    rw [caretRange, lo, hi, first, last, List.length_append, Nat.add_sub_cancel_left]
    exact Nat.max_eq_left (List.length_pos_of_ne_nil held)

/-- Characters of one to four bytes: a span that holds two of them, and one that begins within a
character and ends behind the line. -/
theorem carets_count_wide_characters :
    let line := "aé€😀"
    let whole : Span := ⟨1, 6, by decide⟩
    let broken : Span := ⟨2, 13, by decide⟩
    (line.toList = ['a'] ++ ['é', '€'] ++ ['😀'] ∧ whole.lo = Utf8.width ['a'] ∧
        whole.hi = Utf8.width (['a'] ++ ['é', '€']) ∧ whole.lo < whole.hi) ∧
      (caretRange line whole).2 = 2 ∧ caretRange line broken = (2, 5) := by
  intro line whole broken
  obtain ⟨placed, -, counted⟩ := carets_count_characters line
  have parts : line.toList = ['a'] ++ ['é', '€'] ++ ['😀'] := by decide
  have lo : whole.lo = Utf8.width ['a'] := by decide
  have hi : whole.hi = Utf8.width (['a'] ++ ['é', '€']) := by decide
  refine ⟨⟨parts, lo, hi, by decide⟩, counted whole _ _ _ parts lo hi (by decide), ?_⟩
  rw [placed]
  decide

end Octet
