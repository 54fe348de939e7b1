/-
This file shows what decoding does with a whole byte stream. Going through the
data decodes what begins at a place, passes as many bytes as that has, and goes
on from there. Each round passes a byte at least, so the end is reached, and
what was found by then are stretches of the data that lie one behind the other:
they have one to three bytes each and leave nothing out.

Both limits are looked at between two rounds. For the number of instructions
this makes no difference. But the number of bytes only bounds where the last
instruction begins, and its end may lie up to two bytes behind the limit.
-/

import Octet.Proofs.Decoding

namespace Octet

/-! ### Going through the data -/

/-- How far going through some data has got: what was found, and the place and the address that
come next. -/
structure Sweep where
  found : List Decoded
  offset : Nat
  address : Int

namespace Sweep

/-- Whether there is another round: there are bytes left, and no limit is reached. -/
def GoesOn (data : List UInt8) (count maxBytes : Option Int) (sweep : Sweep) : Prop :=
  sweep.offset < data.length ∧ (∀ limit ∈ count, (sweep.found.length : Int) < limit) ∧
    ∀ limit ∈ maxBytes, (sweep.offset : Int) < limit

/-- A round, which decodes what begins at the place and passes it. -/
def next (data : List UInt8) (sweep : Sweep) : Except BadOffset Sweep := do
  let decoded ← Decoded.atOffset data sweep.address sweep.offset
  .ok ⟨sweep.found ++ [decoded], sweep.offset + decoded.size, sweep.address + decoded.size⟩

/-- After some rounds, none of which fails, going through the data ends with what was found. -/
inductive Ends (data : List UInt8) (count maxBytes : Option Int) : Sweep → List Decoded → Prop
  | over {sweep : Sweep} (stops : ¬sweep.GoesOn data count maxBytes) :
      Ends data count maxBytes sweep sweep.found
  | round {sweep after : Sweep} {decoded : List Decoded} (goesOn : sweep.GoesOn data count maxBytes)
      (next : sweep.next data = .ok after) (behind : Ends data count maxBytes after decoded) :
      Ends data count maxBytes sweep decoded

end Sweep

namespace Decoded

/-- What the limits leave of decoded bytes, the first of which were at the given address. -/
def within (start : Int) (count maxBytes : Option Int) (decoded : List Decoded) : List Decoded :=
  let near :=
    match maxBytes with
    | some limit => decoded.takeWhile fun one => one.address - start < limit
    | none => decoded
  match count with
  | some limit => near.take limit.toNat
  | none => near

theorem within_nil (start : Int) (count maxBytes : Option Int) :
    within start count maxBytes [] = [] := by
  cases count <;> cases maxBytes <;> simp [within]

theorem take_toNat_cons (limit : Int) (one : Decoded) (rest : List Decoded) :
    (one :: rest).take limit.toNat =
      if 0 < limit then one :: rest.take (limit - 1).toNat else [] := by
  by_cases room : 0 < limit
  · have less : limit.toNat = (limit - 1).toNat + 1 := by omega
    rw [if_pos room, less, List.take_succ_cons]
  · rw [if_neg room, Int.toNat_of_nonpos (Int.not_lt.mp room), List.take_zero]

/-- Decoded bytes are kept if neither limit is reached, and then there is room for one less. -/
theorem within_cons (start : Int) (count maxBytes : Option Int) (one : Decoded)
    (rest : List Decoded) :
    within start count maxBytes (one :: rest) =
      if (∀ limit ∈ count, 0 < limit) ∧ ∀ limit ∈ maxBytes, one.address - start < limit then
        one :: within start (count.map (· - 1)) maxBytes rest
      else [] := by
  cases maxBytes with
  | none => cases count <;> simp [within, take_toNat_cons]
  | some bytes =>
    by_cases near : one.address - start < bytes
    · cases count <;> simp [within, take_toNat_cons, near]
    · cases count <;> simp [within, near]

end Decoded

namespace Sweep

variable {data : List UInt8} {count maxBytes : Option Int}

section

variable {offset : Nat} {first : UInt8} {rest : List UInt8}

/-- A round decodes the first byte that is left and what belongs to it. -/
theorem next_eq (left : data.drop offset = first :: rest) (found : List Decoded) (address : Int) :
    Sweep.next data ⟨found, offset, address⟩ =
      let decoded := Decoded.ofBytes address first rest
      .ok ⟨found ++ [decoded], offset + decoded.size, address + decoded.size⟩ := by
  rw [Sweep.next, Decoded.atOffset_eq address left]
  rfl

/-- What a round leaves is what decoding all bytes goes on with. -/
theorem drop_next (left : data.drop offset = first :: rest) (address : Int) :
    data.drop (offset + (Decoded.ofBytes address first rest).size) =
      rest.drop ((Decoded.ofBytes address first rest).size - 1) := by
  have whole := (Decoded.ofBytes_spec address first rest).2.1
  have something : (Decoded.ofBytes address first rest).size ≠ 0 := by
    rw [whole.size]
    exact mt List.length_eq_zero_iff.mp whole.something
  obtain ⟨further, size⟩ := Nat.exists_eq_succ_of_ne_zero something
  rw [← List.drop_drop, left, size, List.drop_succ_cons, Nat.succ_eq_add_one, Nat.add_sub_cancel]

/-- There is another round exactly if the limits leave room for what begins at the place. -/
theorem goesOn_iff (left : data.drop offset = first :: rest) (count maxBytes : Option Int)
    (found : List Decoded) {start address : Int} (place : address = start + offset) :
    GoesOn data count maxBytes ⟨found, offset, address⟩ ↔
      (∀ limit ∈ count.map (· - (found.length : Int)), 0 < limit) ∧
        ∀ limit ∈ maxBytes, address - start < limit := by
  have inside : offset < data.length := by
    rw [← Nat.not_le, ← List.drop_eq_nil_iff, left]
    exact List.cons_ne_nil _ _
  have passed : address - start = offset := by omega
  cases count <;> simp [GoesOn, inside, passed]

end

/-- Going on from a place finds what is decoded from there, up to the limits. -/
theorem ends_within (start : Int) (found : List Decoded) (offset : Nat) (address : Int)
    (rest : List UInt8) (left : data.drop offset = rest) (place : address = start + offset) :
    Ends data count maxBytes ⟨found, offset, address⟩
      (found ++ Decoded.within start (count.map (· - (found.length : Int))) maxBytes
        (decodeAll address rest)) := by
  fun_induction decodeAll address rest generalizing found offset with
  | case1 address =>
    have stops : ¬GoesOn data count maxBytes ⟨found, offset, address⟩ := fun goesOn =>
      Nat.not_le_of_lt goesOn.1 (List.drop_eq_nil_iff.mp left)
    rw [Decoded.within_nil, List.append_nil]
    exact .over stops
  | case2 address first rest decoded inductionHypothesis =>
    have begins : decoded.address = address := (Decoded.ofBytes_spec address first rest).1
    rw [Decoded.within_cons, begins]
    by_cases goesOn : GoesOn data count maxBytes ⟨found, offset, address⟩
    · have behind := inductionHypothesis (found ++ [decoded]) (offset + decoded.size)
        (drop_next left address) (by rw [place, Int.natCast_add, Int.add_assoc])
      have room : (count.map (· - (found.length : Int))).map (· - 1) =
          count.map (· - ((found ++ [decoded]).length : Int)) := by
        rw [Option.map_map, List.length_append, List.length_singleton, Int.natCast_add]
        exact congrArg (count.map ·) (funext fun limit => Int.sub_sub limit _ 1)
      rw [List.append_assoc, List.singleton_append] at behind
      rw [if_pos ((goesOn_iff left count maxBytes found place).mp goesOn), room]
      exact .round goesOn (next_eq left found address) behind
    · rw [if_neg (goesOn ∘ (goesOn_iff left count maxBytes found place).mpr), List.append_nil]
      exact .over goesOn

/-- Going through the data from its first byte ends with what is decoded up to the limits. -/
theorem ends_decodeUpTo (data : List UInt8) (start : Int) (count maxBytes : Option Int) :
    Ends data count maxBytes ⟨[], 0, start⟩ (decodeUpTo data start count maxBytes) := by
  have ends : Ends data count maxBytes ⟨[], 0, start⟩ ([] ++ Decoded.within start
      (count.map (· - (([] : List Decoded).length : Int))) maxBytes (decodeAll start data)) :=
    ends_within start [] 0 start data rfl (Int.add_zero start).symm
  have whole : count.map (· - (([] : List Decoded).length : Int)) = count := by
    cases count <;> simp
  rwa [whole] at ends

end Sweep

/-! ### The stretches that are found -/

namespace Decoded

/-- The number of bytes that some decoded bytes go on by, one after the other. -/
def covered : List Decoded → Nat
  | [] => 0
  | one :: rest => one.size + covered rest

theorem covered_append (front back : List Decoded) :
    covered (front ++ back) = covered front + covered back := by
  induction front with
  | nil => exact (Nat.zero_add _).symm
  | cons one rest inductionHypothesis =>
    rw [List.cons_append, covered, covered, inductionHypothesis, Nat.add_assoc]

/-- An instruction is incomplete where the data ends too early for it. -/
theorem ofBytes_incomplete {address : Int} {first : UInt8} {rest : List UInt8} {opcode : Opcode}
    (cut : (ofBytes address first rest).reading = .incomplete opcode) :
    (ofBytes address first rest).bytes = first :: rest ∧
      (first :: rest).length < opcode.size := by
  unfold ofBytes decode at cut ⊢
  cases known : Opcode.ofByte? first with
  | none =>
    rw [known] at cut
    cases cut
  | some found =>
    simp only [known] at cut ⊢
    by_cases enough : ((first :: rest).take found.size).length = found.size
    · rw [if_pos enough] at cut
      cases cut
    · rw [if_neg enough] at cut ⊢
      cases cut
      rw [List.length_take] at enough
      exact ⟨rfl, by omega⟩

/-- Whatever begins somewhere goes on by three bytes at most. -/
theorem size_ofBytes_le (address : Int) (first : UInt8) (rest : List UInt8) :
    (ofBytes address first rest).size ≤ 3 := by
  cases read : (ofBytes address first rest).reading with
  | unknown =>
    simp only [size, read]
    exact Nat.le_of_ble_eq_true rfl
  | incomplete opcode =>
    obtain ⟨all, short⟩ := ofBytes_incomplete read
    have small := opcode.size_le
    simp only [size, read, all]
    omega
  | instruction opcode =>
    simp only [size, read]
    exact opcode.size_le

theorem exists_ofBytes_of_mem {address : Int} {data : List UInt8} {one : Decoded}
    (member : one ∈ decodeAll address data) :
    ∃ place first rest, one = ofBytes place first rest := by
  fun_induction decodeAll address data with
  | case1 => cases member
  | case2 address first rest decoded inductionHypothesis =>
    rcases List.mem_cons.mp member with here | later
    · exact ⟨address, first, rest, here⟩
    · exact inductionHypothesis later

/-- Behind an incomplete instruction there is nothing. -/
theorem eq_nil_of_incomplete (address : Int) (data : List UInt8) :
    ∀ front one back, decodeAll address data = front ++ one :: back →
      ∀ opcode, one.reading = .incomplete opcode → back = [] := by
  fun_induction decodeAll address data with
  | case1 =>
    intro front one back split
    exact absurd split.symm (List.append_ne_nil_of_right_ne_nil _ (List.cons_ne_nil _ _))
  | case2 address first rest decoded inductionHypothesis =>
    intro front one back split opcode cut
    cases front with
    | nil =>
      obtain ⟨rfl, rfl⟩ := List.cons.inj split
      have whole := (ofBytes_spec address first rest).2.1.size
      have left : rest.drop (decoded.size - 1) = [] := by
        rw [whole, (ofBytes_incomplete cut).1, List.length_cons, Nat.add_sub_cancel,
          List.drop_length]
      rw [left, decodeAll]
    | cons head front =>
      exact inductionHypothesis front one back (List.cons.inj split).2 opcode cut

section

variable {address : Int} {decoded : List Decoded} {data : List UInt8}

theorem Covers.flatMap_bytes (covers : Covers address decoded data) :
    decoded.flatMap bytes = data := by
  induction covers with
  | nil => rfl
  | cons start whole behind inductionHypothesis => rw [List.flatMap_cons, inductionHypothesis]

/-- What is decoded begins behind what was decoded in front of it. -/
theorem Covers.address_eq (covers : Covers address decoded data) {front back : List Decoded}
    {one : Decoded} (split : decoded = front ++ one :: back) :
    one.address = address + covered front := by
  induction covers generalizing front with
  | nil => exact absurd split.symm (List.append_ne_nil_of_right_ne_nil _ (List.cons_ne_nil _ _))
  | @cons address head rest data start whole behind inductionHypothesis =>
    cases front with
    | nil =>
      obtain ⟨rfl, _⟩ := List.cons.inj split
      exact start.trans (Int.add_zero address).symm
    | cons other front =>
      obtain ⟨rfl, behindFront⟩ := List.cons.inj split
      rw [inductionHypothesis behindFront, covered, whole.size, Int.natCast_add, Int.add_assoc]

end

end Decoded

/-- Decoding parts the data. What is found has one to three bytes each, which are as many as are
passed, and together they are the data; each begins where those in front of it end, and only the
last can be cut short. Going through the data comes to an end with them, and with the first of them
if their number is limited. -/
theorem decoding_parts_data (data : List UInt8) (start : Int) :
    let decoded := decodeUpTo data start none none
    Sweep.Ends data none none ⟨[], 0, start⟩ decoded ∧
      decoded.flatMap Decoded.bytes = data ∧
      (∀ one ∈ decoded, one.size = one.bytes.length ∧ 1 ≤ one.size ∧ one.size ≤ 3) ∧
      (∀ front one back, decoded = front ++ one :: back →
        one.address = start + Decoded.covered front ∧
          ∀ opcode, one.reading = .incomplete opcode → back = []) ∧
      ∀ count : Int,
        decodeUpTo data start (some count) none = decoded.take (max count 0).toNat ∧
          Sweep.Ends data (some count) none ⟨[], 0, start⟩ (decoded.take (max count 0).toNat) := by
  intro decoded
  have covers : Decoded.Covers start decoded data := Decoded.covers_decodeAll start data
  have first : ∀ count : Int,
      decodeUpTo data start (some count) none = decoded.take (max count 0).toNat := by
    intro count
    have same : (max count 0).toNat = count.toNat := by omega
    rw [same]
    rfl
  refine ⟨Sweep.ends_decodeUpTo data start none none, covers.flatMap_bytes, ?_, ?_, ?_⟩
  · intro one member
    have whole := covers.whole one member
    have something := List.length_pos_iff.mpr whole.something
    obtain ⟨place, byte, rest, rfl⟩ := Decoded.exists_ofBytes_of_mem member
    rw [← whole.size] at something
    exact ⟨whole.size, something, Decoded.size_ofBytes_le place byte rest⟩
  · intro front one back split
    exact ⟨covers.address_eq split, Decoded.eq_nil_of_incomplete start data front one back split⟩
  · intro count
    exact ⟨first count, first count ▸ Sweep.ends_decodeUpTo data start (some count) none⟩

/-! ### The limit on bytes -/

namespace Decoded

/-- A limit on bytes keeps the decoded bytes that begin before it. -/
theorem decodeUpTo_eq_takeWhile (data : List UInt8) (start : Int) (count : Option Int)
    (limit : Int) :
    decodeUpTo data start count (some limit) =
      (decodeUpTo data start count none).takeWhile fun one => one.address - start < limit := by
  cases count with
  | none => rfl
  | some most => exact List.take_takeWhile

theorem decodeUpTo_prefix (data : List UInt8) (start : Int) (count maxBytes : Option Int) :
    decodeUpTo data start count maxBytes <+: decodeAll start data := by
  have unlimited : decodeUpTo data start count none <+: decodeAll start data := by
    cases count with
    | none => exact List.prefix_rfl
    | some most => exact List.take_prefix _ _
  cases maxBytes with
  | none => exact unlimited
  | some limit =>
    rw [decodeUpTo_eq_takeWhile]
    exact (List.takeWhile_prefix _).trans unlimited

section

variable {data : List UInt8} {start : Int} {decoded : List Decoded}

/-- The end of what is decoded is told by what is covered up to there. -/
theorem end_eq_covered (begins : decoded <+: decodeAll start data) {front back : List Decoded}
    {one : Decoded} (split : decoded = front ++ one :: back) :
    one.address - start + one.size = covered front + one.size ∧
      covered decoded = covered front + one.size + covered back := by
  obtain ⟨more, whole⟩ := begins
  rw [split, List.append_assoc, List.cons_append] at whole
  have address := (covers_decodeAll start data).address_eq whole.symm
  rw [split, covered_append, covered, address]
  omega

/-- Where all that is decoded begins before a limit, two bytes behind it are covered at most. -/
theorem covered_le (begins : decoded <+: decodeAll start data) {limit : Nat}
    (near : ∀ one ∈ decoded, one.address - start < limit) : covered decoded ≤ limit + 2 := by
  rcases List.eq_nil_or_concat decoded with rfl | ⟨front, last, rfl⟩
  · exact Nat.zero_le _
  · rw [List.concat_eq_append] at begins near ⊢
    have final : last ∈ front ++ [last] := List.mem_append_right _ List.mem_cons_self
    obtain ⟨reached, covers⟩ := end_eq_covered begins rfl
    obtain ⟨place, first, rest, same⟩ := exists_ofBytes_of_mem (begins.subset final)
    have small := size_ofBytes_le place first rest
    have close := near last final
    rw [← same] at small
    rw [covers, covered]
    omega

/-- No more bytes than a limit allows are covered exactly if all that is decoded ends within it. -/
theorem covered_le_iff (begins : decoded <+: decodeAll start data) (limit : Nat) :
    covered decoded ≤ limit ↔ ∀ one ∈ decoded, one.address - start + one.size ≤ limit := by
  constructor
  · intro few one member
    obtain ⟨front, back, split⟩ := List.append_of_mem member
    obtain ⟨reached, covers⟩ := end_eq_covered begins split
    omega
  · intro ends
    rcases List.eq_nil_or_concat decoded with rfl | ⟨front, last, rfl⟩
    · exact Nat.zero_le _
    · rw [List.concat_eq_append] at begins ends ⊢
      obtain ⟨reached, covers⟩ := end_eq_covered begins rfl
      have within := ends last (List.mem_append_right _ List.mem_cons_self)
      rw [covers, covered]
      omega

/-- What is decoded behind the first that does not begin before a limit does not either. -/
theorem le_address_of_mem_dropWhile {limit : Int}
    (ascending : decoded.Pairwise fun first second => first.address < second.address) :
    ∀ one ∈ decoded.dropWhile (fun one => one.address - start < limit),
      limit ≤ one.address - start := by
  have stops := List.head?_dropWhile_not (fun one : Decoded => one.address - start < limit) decoded
  have later := ascending.sublist
    (List.dropWhile_sublist fun one : Decoded => one.address - start < limit)
  cases beyond : decoded.dropWhile fun one => one.address - start < limit with
  | nil => exact fun _ none => absurd none List.not_mem_nil
  | cons first rest =>
    rw [beyond] at stops later
    have far : ¬first.address - start < limit := of_decide_eq_false stops
    intro one member
    rcases List.mem_cons.mp member with rfl | behind
    · exact Int.not_lt.mp far
    · have after := (List.pairwise_cons.mp later).1 one behind
      omega

end

end Decoded

/-- A limit on bytes bounds where instructions begin and not where they end. Those that begin before
it are found; up to two bytes behind it are covered, and none exactly if each that is found ends
within it. -/
theorem limit_bounds_beginnings (data : List UInt8) (start : Int) (count : Option Int)
    (limit : Nat) :
    let decoded := decodeUpTo data start count (some limit)
    Sweep.Ends data count (some limit) ⟨[], 0, start⟩ decoded ∧
      (∃ beyond, decodeUpTo data start count none = decoded ++ beyond ∧
        (∀ one ∈ decoded, one.address - start < limit) ∧
        ∀ one ∈ beyond, limit ≤ one.address - start) ∧
      Decoded.covered decoded ≤ limit + 2 ∧
      (Decoded.covered decoded ≤ limit ↔
        ∀ one ∈ decoded, one.address - start + one.size ≤ limit) := by
  intro decoded
  have begins : decoded <+: decodeAll start data := Decoded.decodeUpTo_prefix ..
  have kept : decoded = (decodeUpTo data start count none).takeWhile
      fun one => one.address - start < limit := Decoded.decodeUpTo_eq_takeWhile ..
  have near : ∀ one ∈ decoded, one.address - start < limit := by
    intro one member
    rw [kept] at member
    exact of_decide_eq_true (List.all_eq_true.mp List.all_takeWhile one member)
  have ascending := (Decoded.covers_decodeAll start data).pairwise.sublist
    (Decoded.decodeUpTo_prefix data start count none).sublist
  refine ⟨Sweep.ends_decodeUpTo ..,
    ⟨(decodeUpTo data start count none).dropWhile fun one => one.address - start < limit,
      ?_, near, ?_⟩,
    Decoded.covered_le begins near, Decoded.covered_le_iff begins limit⟩
  · rw [kept]
    exact List.takeWhile_append_dropWhile.symm
  · exact Decoded.le_address_of_mem_dropWhile ascending

/-- A load takes up two bytes, and it is found where only one may be covered. -/
theorem limit_is_exceeded_by_load :
    ¬Decoded.covered (decodeUpTo [0x11, 0x41] 0 none (some 1)) ≤ 1 := by
  decide +kernel

end Octet
