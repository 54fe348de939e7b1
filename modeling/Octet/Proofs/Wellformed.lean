/-
This file shows that bytes are read as text only if they are its encoding. The
converse, that an encoding is read back, does not rule out that other bytes are
read as the same text: an overlong form, say, or a surrogate. The range that a
first byte allows for the next one is what rules them out.

So text that was read and written again is the same file, and whether a file
holds text at all can be asked without mentioning how it is read.
-/

import Octet.Proofs.Utf8

namespace Octet.Utf8

/-! ### First bytes -/

/-- A byte that begins a character lies in one of two ranges. -/
theorem Promise.range_of_ofByte? {first : UInt8} {promise : Promise}
    (promised : ofByte? first = some promise) :
    first.toNat < 128 ∨ 194 ≤ first.toNat ∧ first.toNat < 245 := by
  have checked : ((List.range 256).all fun code =>
      (ofByte? (.ofNat code)).isNone || decide (code < 128 ∨ 194 ≤ code ∧ code < 245)) = true := by
    decide +kernel
  have inRange := List.all_eq_true.mp checked first.toNat (List.mem_range.mpr first.toNat_lt)
  rw [UInt8.ofNat_toNat, promised] at inRange
  exact of_decide_eq_true inRange

/-- What a byte promises, by the number of bytes that follow. -/
theorem Promise.ofByte?_cases {first : UInt8} {promise : Promise}
    (promised : ofByte? first = some promise) :
    (∃ share, share < 128 ∧ first = .ofNat share ∧ promise = ⟨share, 0, 0x80, 0xBF⟩) ∨
    (∃ share, 2 ≤ share ∧ share < 32 ∧ first = .ofNat (share % 32 + 192) ∧
      promise = ⟨share, 1, 0x80, 0xBF⟩) ∨
    (∃ share, share < 16 ∧ first = .ofNat (share % 16 + 224) ∧
      promise =
        ⟨share, 2, if share = 0 then 0xA0 else 0x80, if share = 13 then 0x9F else 0xBF⟩) ∨
    (∃ share, share < 5 ∧ first = .ofNat (share % 8 + 240) ∧
      promise =
        ⟨share, 3, if share = 0 then 0x90 else 0x80, if share = 4 then 0x8F else 0xBF⟩) := by
  have range := range_of_ofByte? promised
  have same : first = .ofNat first.toNat := UInt8.ofNat_toNat.symm
  generalize first.toNat = code at range same
  subst same
  by_cases one : code < 128
  · have value : (UInt8.ofNat code).toNat = code :=
      UInt8.toNat_ofNat_of_lt' (Nat.lt_trans one (by decide))
    have ascii : UInt8.ofNat code < 0x80 := by rwa [UInt8.lt_iff_toNat_lt, value]
    rw [ofByte?, if_pos ascii, value] at promised
    exact .inl ⟨code, one, rfl, (Option.some_inj.mp promised).symm⟩
  by_cases two : code < 224
  · have byte : (code - 192) % 32 + 192 = code := by omega
    have known := @ofByte?_two (code - 192) (by omega) (by omega)
    rw [byte, promised] at known
    exact .inr (.inl ⟨code - 192, by omega, by omega, by rw [byte], Option.some_inj.mp known⟩)
  by_cases three : code < 240
  · have byte : (code - 224) % 16 + 224 = code := by omega
    have known := @ofByte?_three (code - 224) (by omega)
    rw [byte, promised] at known
    exact .inr (.inr (.inl ⟨code - 224, by omega, by rw [byte], Option.some_inj.mp known⟩))
  · have byte : (code - 240) % 8 + 240 = code := by omega
    have known := @ofByte?_four (code - 240) (by omega)
    rw [byte, promised] at known
    exact .inr (.inr (.inr ⟨code - 240, by omega, by rw [byte], Option.some_inj.mp known⟩))

/-! ### Following bytes -/

/-- If a character is made, the next byte lies within its range and adds six bits to the share. -/
theorem continuation_eq_ok {following share taken : Nat} {low high : UInt8} {rest : List UInt8}
    {c : Char} (least : 128 ≤ low.toNat) (most : high.toNat ≤ 191)
    (continued : continuation (following + 1) low high share rest = (.ok c, taken)) :
    ∃ number back more, number < 64 ∧ low.toNat ≤ number + 128 ∧ number + 128 ≤ high.toNat ∧
      rest = .ofNat (number + 128) :: back ∧ taken = more + 1 ∧
      continuation following 0x80 0xBF (share * 64 + number) back = (.ok c, more) := by
  cases rest with
  | nil => cases continued
  | cons byte back =>
    rw [continuation] at continued
    split at continued
    · rename_i within
      rw [Bool.and_eq_true, decide_eq_true_eq, decide_eq_true_eq, UInt8.le_iff_toNat_le,
        UInt8.le_iff_toNat_le] at within
      have sum : byte.toNat - 0x80 + 128 = byte.toNat := by omega
      have made := congrArg Prod.fst continued
      have count := congrArg Prod.snd continued
      simp only at made count
      refine ⟨byte.toNat - 0x80, back, _, by omega, by omega, by omega, ?_, count.symm, ?_⟩
      · rw [sum, UInt8.ofNat_toNat]
      · rw [← made]
    · cases continued

/-- The bytes of a character, from its number. -/
theorem utf8EncodeChar_ofNat {code : Nat} (valid : code.isValidChar) :
    String.utf8EncodeChar (.ofNat code) =
      if code ≤ 127 then [.ofNat code]
      else if code ≤ 2047 then [.ofNat (code / 64 % 32 + 192), .ofNat (code % 64 + 128)]
      else if code ≤ 65535 then
        [.ofNat (code / 4096 % 16 + 224), .ofNat (code / 64 % 64 + 128),
          .ofNat (code % 64 + 128)]
      else
        [.ofNat (code / 262144 % 8 + 240), .ofNat (code / 4096 % 64 + 128),
          .ofNat (code / 64 % 64 + 128), .ofNat (code % 64 + 128)] := by
  have value : (Char.ofNat code).val.toNat = code := by
    rw [Char.ofNat, dif_pos valid]
    rfl
  rw [String.utf8EncodeChar, value]

/-! ### Characters -/

section

variable {share taken : Nat} {rest : List UInt8} {c : Char}

/-- A first byte with one byte behind it is too large for a character of one byte. -/
theorem utf8EncodeChar_two (large : 2 ≤ share) (small : share < 32)
    (continued : continuation 1 0x80 0xBF share rest = (.ok c, taken)) :
    String.utf8EncodeChar c = .ofNat (share % 32 + 192) :: rest.take taken := by
  obtain ⟨one, back, more, bound, _, _, rfl, rfl, ended⟩ :=
    continuation_eq_ok (by decide) (by decide) continued
  obtain ⟨rfl, rfl⟩ := ended
  have quotient : (share * 64 + one) / 64 = share := by omega
  have remainder : (share * 64 + one) % 64 = one := by omega
  rw [utf8EncodeChar_ofNat (.inl (by omega)), if_neg (by omega), if_pos (by omega), quotient,
    remainder]
  rfl

/-- A first byte with two bytes behind it: the range of the next byte keeps out characters of two
bytes and surrogates. -/
theorem utf8EncodeChar_three (small : share < 16)
    (continued : continuation 2 (if share = 0 then 0xA0 else 0x80)
      (if share = 13 then 0x9F else 0xBF) share rest = (.ok c, taken)) :
    String.utf8EncodeChar c = .ofNat (share % 16 + 224) :: rest.take taken := by
  obtain ⟨one, _, _, bound, least, most, rfl, rfl, continuedLast⟩ :=
    continuation_eq_ok (by split <;> decide) (by split <;> decide) continued
  obtain ⟨two, back, _, boundLast, _, _, rfl, rfl, ended⟩ :=
    continuation_eq_ok (by decide) (by decide) continuedLast
  obtain ⟨rfl, rfl⟩ := ended
  have notOverlong : share = 0 → 160 ≤ one + 128 := fun none => by
    rw [if_pos none] at least
    exact least
  have notSurrogate : share = 13 → one + 128 ≤ 159 := fun surrogate => by
    rw [if_pos surrogate] at most
    exact most
  have valid : ((share * 64 + one) * 64 + two).isValidChar := by
    rw [Nat.isValidChar]
    omega
  have first : ((share * 64 + one) * 64 + two) / 4096 = share := by omega
  have next : ((share * 64 + one) * 64 + two) / 64 % 64 = one := by omega
  have last : ((share * 64 + one) * 64 + two) % 64 = two := by omega
  rw [utf8EncodeChar_ofNat valid, if_neg (by omega), if_neg (by omega), if_pos (by omega), first,
    next, last]
  rfl

/-- A first byte with three bytes behind it: the range of the next byte keeps out characters of
three bytes and numbers beyond the last code point. -/
theorem utf8EncodeChar_four (small : share < 5)
    (continued : continuation 3 (if share = 0 then 0x90 else 0x80)
      (if share = 4 then 0x8F else 0xBF) share rest = (.ok c, taken)) :
    String.utf8EncodeChar c = .ofNat (share % 8 + 240) :: rest.take taken := by
  obtain ⟨one, _, _, bound, least, most, rfl, rfl, continuedNext⟩ :=
    continuation_eq_ok (by split <;> decide) (by split <;> decide) continued
  obtain ⟨two, _, _, boundNext, _, _, rfl, rfl, continuedLast⟩ :=
    continuation_eq_ok (by decide) (by decide) continuedNext
  obtain ⟨three, back, _, boundLast, _, _, rfl, rfl, ended⟩ :=
    continuation_eq_ok (by decide) (by decide) continuedLast
  obtain ⟨rfl, rfl⟩ := ended
  have notOverlong : share = 0 → 144 ≤ one + 128 := fun none => by
    rw [if_pos none] at least
    exact least
  have notBeyond : share = 4 → one + 128 ≤ 143 := fun beyond => by
    rw [if_pos beyond] at most
    exact most
  generalize code : ((share * 64 + one) * 64 + two) * 64 + three = number
  have valid : number.isValidChar := by
    rw [Nat.isValidChar]
    omega
  have first : number / 262144 = share := by omega
  have next : number / 4096 % 64 = one := by omega
  have later : number / 64 % 64 = two := by omega
  have last : number % 64 = three := by omega
  rw [utf8EncodeChar_ofNat valid, if_neg (by omega), if_neg (by omega), if_neg (by omega), first,
    next, later, last]
  rfl

/-- A segment that holds a character is made of the bytes of this character. -/
theorem utf8EncodeChar_opening {first : UInt8}
    (opens : (Segment.opening first rest).outcome = .ok c) :
    String.utf8EncodeChar c = (Segment.opening first rest).bytes := by
  rw [Segment.opening] at opens ⊢
  cases promised : Promise.ofByte? first with
  | none =>
    rw [promised] at opens
    cases opens
  | some promise =>
    rw [promised] at opens
    cases continued :
      continuation promise.following promise.low promise.high promise.share rest with
    | mk outcome taken =>
      simp only [continued] at opens ⊢
      subst opens
      rcases Promise.ofByte?_cases promised with
        ⟨share, small, rfl, rfl⟩ | ⟨share, large, small, rfl, rfl⟩ |
          ⟨share, small, rfl, rfl⟩ | ⟨share, small, rfl, rfl⟩
      · obtain ⟨rfl, rfl⟩ := continued
        have single : share ≤ 127 := Nat.le_of_lt_succ small
        rw [utf8EncodeChar_ofNat (.inl (Nat.lt_trans small (by decide))), if_pos single]
        rfl
      · exact utf8EncodeChar_two large small continued
      · exact utf8EncodeChar_three small continued
      · exact utf8EncodeChar_four small continued

end

/-! ### Texts -/

theorem segments_cons (first : UInt8) (rest : List UInt8) :
    segments (first :: rest) = Segment.opening first rest ::
      segments (rest.drop ((Segment.opening first rest).bytes.length - 1)) := by
  rw [segments]

/-- A segment is made of its first byte and some of those that follow. -/
theorem opening_bytes (first : UInt8) (rest : List UInt8) :
    ∃ tail, (Segment.opening first rest).bytes = first :: tail ∧ tail <+: rest := by
  rw [Segment.opening]
  cases Promise.ofByte? first with
  | none => exact ⟨[], rfl, List.nil_prefix⟩
  | some promise => exact ⟨_, rfl, List.take_prefix _ _⟩

/-- Segments are cut out of the bytes, and nothing is lost between them. -/
theorem flatMap_segments (bytes : List UInt8) : (segments bytes).flatMap Segment.bytes = bytes := by
  induction bytes using segments.induct with
  | case1 => rw [segments, List.flatMap_nil]
  | case2 first rest segment inductionHypothesis =>
    obtain ⟨tail, made, front⟩ := opening_bytes first rest
    rw [segments_cons, List.flatMap_cons, inductionHypothesis, made, List.length_cons,
      Nat.add_sub_cancel, List.cons_append, List.prefix_iff_eq_append.mp front]

/-- A segment that holds a character is its encoding. -/
theorem utf8EncodeChar_of_mem_segments {bytes : List UInt8} :
    ∀ segment ∈ segments bytes, ∀ c, segment.outcome = .ok c →
      String.utf8EncodeChar c = segment.bytes := by
  induction bytes using segments.induct with
  | case1 =>
    rw [segments]
    exact fun _ none => absurd none List.not_mem_nil
  | case2 first rest segment inductionHypothesis =>
    rw [segments_cons]
    exact List.forall_mem_cons.mpr ⟨fun _ => utf8EncodeChar_opening, inductionHypothesis⟩

/-- Characters are read from segments only if these are their encodings. -/
theorem encodeChars_of_charsOf {all : List Segment} {position : Nat} {text : List Char}
    (exact : ∀ segment ∈ all, ∀ c, segment.outcome = .ok c →
      String.utf8EncodeChar c = segment.bytes)
    (read : charsOf position all = .ok text) : encodeChars text = all.flatMap Segment.bytes := by
  induction all generalizing position text with
  | nil =>
    obtain rfl := Except.ok.inj read
    rfl
  | cons segment rest inductionHypothesis =>
    rw [List.forall_mem_cons] at exact
    rw [charsOf] at read
    cases outcome : segment.outcome with
    | error reason =>
      rw [outcome] at read
      cases read
    | ok c =>
      simp only [outcome] at read
      cases later : charsOf (position + segment.bytes.length) rest with
      | error malformed =>
        rw [later] at read
        cases read
      | ok others =>
        rw [later] at read
        obtain rfl := Except.ok.inj read
        rw [encodeChars, List.flatMap_cons, List.flatMap_cons, exact.1 c outcome,
          ← inductionHypothesis exact.2 later, encodeChars]

/-- Bytes are read as a text exactly if they are its encoding. -/
theorem decode_eq_ok_iff {bytes : List UInt8} {text : String} :
    decode bytes = .ok text ↔ encode text = bytes := by
  constructor
  · intro read
    rw [decode] at read
    cases chars : charsOf 0 (segments bytes) with
    | error malformed =>
      rw [chars] at read
      cases read
    | ok letters =>
      rw [chars] at read
      obtain rfl := Except.ok.inj read
      rw [encode, String.toList_ofList,
        encodeChars_of_charsOf utf8EncodeChar_of_mem_segments chars, flatMap_segments]
  · rintro rfl
    rw [encode, decode_encodeChars, String.ofList_toList]

end Octet.Utf8
