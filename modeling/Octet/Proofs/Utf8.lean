/-
This file shows that text survives its encoding. The bytes of a character open
a segment that holds just this character, whatever comes behind them, so the
bytes of a text are cut where its characters end.

The first byte of a sequence tells how many follow and narrows the range of the
next one. That this range always holds the byte in question is where it is
needed that a character is neither a surrogate nor beyond the last code point.
-/

import Mathlib.Tactic.IntervalCases
import Octet.Text.Utf8

namespace Octet.Utf8

/-! ### Bytes of text -/

theorem encodeChars_append (front back : List Char) :
    encodeChars (front ++ back) = encodeChars front ++ encodeChars back :=
  List.flatMap_append

theorem width_append (front back : List Char) :
    width (front ++ back) = width front + width back := by
  induction front with
  | nil => exact (Nat.zero_add _).symm
  | cons c rest inductionHypothesis =>
    rw [List.cons_append, width, width, inductionHypothesis, Nat.add_assoc]

theorem length_encodeChars (text : List Char) : (encodeChars text).length = width text := by
  induction text with
  | nil => rfl
  | cons c rest inductionHypothesis =>
    rw [encodeChars, List.flatMap_cons, List.length_append, String.length_utf8EncodeChar, width]
    exact congrArg (c.utf8Size + ·) inductionHypothesis

/-- Something takes at least one byte. -/
theorem width_pos {text : List Char} (something : text ≠ []) : 0 < width text := by
  cases text with
  | nil => exact absurd rfl something
  | cons c rest => exact Nat.add_pos_left c.utf8Size_pos _

/-! ### What a first byte promises -/

theorem Promise.ofByte?_two {share : Nat} (least : 2 ≤ share) (most : share < 32) :
    Promise.ofByte? (.ofNat (share % 32 + 192)) = some ⟨share, 1, 0x80, 0xBF⟩ := by
  interval_cases share <;> rfl

theorem Promise.ofByte?_three {share : Nat} (most : share < 16) :
    Promise.ofByte? (.ofNat (share % 16 + 224)) =
      some ⟨share, 2, if share = 0 then 0xA0 else 0x80, if share = 13 then 0x9F else 0xBF⟩ := by
  interval_cases share <;> rfl

theorem Promise.ofByte?_four {share : Nat} (most : share < 5) :
    Promise.ofByte? (.ofNat (share % 8 + 240)) =
      some ⟨share, 3, if share = 0 then 0x90 else 0x80, if share = 4 then 0x8F else 0xBF⟩ := by
  interval_cases share <;> rfl

/-! ### What the following bytes make -/

/-- A byte within its range adds six bits to the share. -/
theorem continuation_cons {low high : UInt8} (following share number : Nat) (rest : List UInt8)
    (least : low.toNat ≤ number % 64 + 128) (most : number % 64 + 128 ≤ high.toNat) :
    continuation (following + 1) low high share (.ofNat (number % 64 + 128) :: rest) =
      ((continuation following 0x80 0xBF (share * 64 + number % 64) rest).1,
        (continuation following 0x80 0xBF (share * 64 + number % 64) rest).2 + 1) := by
  have small : number % 64 + 128 < 256 := by omega
  have value : (UInt8.ofNat (number % 64 + 128)).toNat = number % 64 + 128 :=
    UInt8.toNat_ofNat_of_lt' small
  have within : (low ≤ UInt8.ofNat (number % 64 + 128) &&
      UInt8.ofNat (number % 64 + 128) ≤ high) = true := by
    simp only [UInt8.le_iff_toNat_le, value, least, most, decide_true, Bool.and_self]
  rw [continuation, if_pos within, value, Nat.add_sub_cancel]

theorem continuation_one (code : Nat) (rest : List UInt8) :
    continuation 1 0x80 0xBF (code / 64) (.ofNat (code % 64 + 128) :: rest) =
      (.ok (Char.ofNat code), 1) := by
  have least : (0x80 : UInt8).toNat ≤ code % 64 + 128 := Nat.le_add_left _ _
  have most : code % 64 + 128 ≤ (0xBF : UInt8).toNat := by
    show code % 64 + 128 ≤ 191
    omega
  rw [continuation_cons 0 _ code rest least most, continuation, Nat.div_add_mod']

theorem continuation_two {low high : UInt8} (code : Nat) (rest : List UInt8)
    (least : low.toNat ≤ code / 64 % 64 + 128) (most : code / 64 % 64 + 128 ≤ high.toNat) :
    continuation 2 low high (code / 4096)
        (.ofNat (code / 64 % 64 + 128) :: .ofNat (code % 64 + 128) :: rest) =
      (.ok (Char.ofNat code), 2) := by
  have share : code / 4096 * 64 + code / 64 % 64 = code / 64 := by omega
  rw [continuation_cons 1 _ (code / 64) _ least most, share, continuation_one]

theorem continuation_three {low high : UInt8} (code : Nat) (rest : List UInt8)
    (least : low.toNat ≤ code / 4096 % 64 + 128) (most : code / 4096 % 64 + 128 ≤ high.toNat) :
    continuation 3 low high (code / 262144)
        (.ofNat (code / 4096 % 64 + 128) :: .ofNat (code / 64 % 64 + 128) ::
          .ofNat (code % 64 + 128) :: rest) =
      (.ok (Char.ofNat code), 3) := by
  have share : code / 262144 * 64 + code / 4096 % 64 = code / 4096 := by omega
  have next : (0x80 : UInt8).toNat ≤ code / 64 % 64 + 128 := Nat.le_add_left _ _
  have last : code / 64 % 64 + 128 ≤ (0xBF : UInt8).toNat := by
    show code / 64 % 64 + 128 ≤ 191
    omega
  rw [continuation_cons 2 _ (code / 4096) _ least most, share, continuation_two code rest next last]

/-! ### Characters open segments -/

/-- A segment is as long as its first byte promises. -/
theorem Segment.opening_eq {first : UInt8} {promise : Promise} {c : Char} (tail rest : List UInt8)
    (promised : Promise.ofByte? first = some promise)
    (continued : continuation promise.following promise.low promise.high promise.share
      (tail ++ rest) = (.ok c, tail.length)) :
    Segment.opening first (tail ++ rest) = ⟨.ok c, first :: tail⟩ := by
  rw [Segment.opening, promised]
  simp only [continued, List.take_left']

/-- The bytes of a character open a segment that holds this character. -/
theorem opening_encodeChar (c : Char) (rest : List UInt8) :
    ∃ first tail, String.utf8EncodeChar c = first :: tail ∧
      Segment.opening first (tail ++ rest) = ⟨.ok c, first :: tail⟩ := by
  -- no code point is a surrogate or beyond the last one
  have bounds : c.val.toNat < 0xD800 ∨ 0xDFFF < c.val.toNat ∧ c.val.toNat < 0x110000 := c.valid
  have same : Char.ofNat c.val.toNat = c := Char.ofNat_toNat c
  rw [String.utf8EncodeChar]
  generalize c.val.toNat = code at bounds same
  subst same
  by_cases one : code ≤ 127
  · have small : code < 256 := by omega
    have value : (UInt8.ofNat code).toNat = code := UInt8.toNat_ofNat_of_lt' small
    have ascii : UInt8.ofNat code < 0x80 := by
      rw [UInt8.lt_iff_toNat_lt, value]
      exact Nat.lt_succ_of_le one
    have promised : Promise.ofByte? (.ofNat code) = some ⟨code, 0, 0x80, 0xBF⟩ := by
      rw [Promise.ofByte?, if_pos ascii, value]
    exact ⟨_, _, if_pos one, Segment.opening_eq [] rest promised rfl⟩
  by_cases two : code ≤ 2047
  · exact ⟨_, _, (if_neg one).trans (if_pos two),
      Segment.opening_eq [_] rest (Promise.ofByte?_two (by omega) (by omega))
        (continuation_one code rest)⟩
  by_cases three : code ≤ 65535
  · refine ⟨_, _, (if_neg one).trans ((if_neg two).trans (if_pos three)),
      Segment.opening_eq [_, _] rest (Promise.ofByte?_three (by omega))
        (continuation_two code rest ?_ ?_)⟩
    · dsimp only
      split <;> simp only [UInt8.reduceToNat] <;> omega
    · dsimp only
      split <;> simp only [UInt8.reduceToNat] <;> omega
  · refine ⟨_, _, (if_neg one).trans ((if_neg two).trans (if_neg three)),
      Segment.opening_eq [_, _, _] rest (Promise.ofByte?_four (by omega))
        (continuation_three code rest ?_ ?_)⟩
    · dsimp only
      split <;> simp only [UInt8.reduceToNat] <;> omega
    · dsimp only
      split <;> simp only [UInt8.reduceToNat] <;> omega

/-- A text is cut where its characters end, whatever comes behind it. -/
theorem segments_encodeChars_append (text : List Char) (rest : List UInt8) :
    segments (encodeChars text ++ rest) =
      (text.map fun c => ⟨.ok c, String.utf8EncodeChar c⟩) ++ segments rest := by
  induction text with
  | nil => rfl
  | cons c others inductionHypothesis =>
    obtain ⟨first, tail, bytes, opens⟩ := opening_encodeChar c (encodeChars others ++ rest)
    have front : encodeChars (c :: others) ++ rest =
        first :: (tail ++ (encodeChars others ++ rest)) := by
      rw [encodeChars, List.flatMap_cons, bytes, List.append_assoc]
      rfl
    rw [front, segments, opens, List.map_cons, bytes]
    simp only [List.length_cons, Nat.add_sub_cancel, List.drop_left', inductionHypothesis,
      List.cons_append]

theorem segments_encodeChars (text : List Char) :
    segments (encodeChars text) = text.map fun c => ⟨.ok c, String.utf8EncodeChar c⟩ := by
  have cut := segments_encodeChars_append text []
  rwa [List.append_nil, segments, List.append_nil] at cut

theorem charsOf_map_ok (position : Nat) (text : List Char) :
    charsOf position (text.map fun c => ⟨.ok c, String.utf8EncodeChar c⟩) = .ok text := by
  induction text generalizing position with
  | nil => rfl
  | cons c rest inductionHypothesis =>
    rw [List.map_cons, charsOf]
    simp only [inductionHypothesis]
    rfl

/-- Encoded characters are read back. -/
theorem decode_encodeChars (text : List Char) :
    decode (encodeChars text) = .ok (String.ofList text) := by
  rw [decode, segments_encodeChars, charsOf_map_ok]
  rfl

/-- Encoded text is text, and reading it leniently replaces nothing. -/
theorem decodeLossy_encode (text : String) : decodeLossy (encode text) = text := by
  have shown : Segment.shown ∘ (fun c : Char => ⟨.ok c, String.utf8EncodeChar c⟩) = id := rfl
  rw [decodeLossy, encode, segments_encodeChars, List.map_map, shown, List.map_id,
    String.ofList_toList]

end Octet.Utf8
