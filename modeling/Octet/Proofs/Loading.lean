/-
This file says what is where after bytes have been loaded, however many there
are and wherever the load begins. A load of more than 256 bytes goes around the
memory and writes over itself. What a cell holds in the end is told by the last
of the bytes that fall into it, and the cells that none falls into are as they
were. So the last 256 bytes, or all if there are not that many, are read back as
a block.

A text whose encoding has at most 255 bytes fits into the memory together with
the byte for its length, and does not come around to that byte again. It is read
back from any address, also if it takes all cells.
-/

import Mathlib.Data.Nat.SuccPred
import Mathlib.Order.SuccPred.Archimedean
import Octet.Proofs.Memory
import Octet.Proofs.Messages

namespace Octet

namespace Memory

/-! ### Bytes that fall into a cell -/

/-- The indexes of those bytes that fall into the cell of a place when as many as `count` are
written from an address on. -/
def landings (count : Nat) (address place : Int) : Set Nat :=
  {index | index < count ∧ (address + index) % 256 = place % 256}

variable {data : List UInt8} {address place : Int}

/-- If some byte falls into a cell, then one is the last to do so. -/
theorem exists_isGreatest_landings {count : Nat}
    (something : (landings count address place).Nonempty) :
    ∃ index, IsGreatest (landings count address place) index := by
  have bounded : BddAbove (landings count address place) :=
    ⟨count, fun _ falls => Nat.le_of_lt falls.1⟩
  exact bounded.exists_isGreatest_of_nonempty something

/-- A cell holds the last of the bytes that fall into it. -/
theorem read_load_of_isGreatest (memory : Memory) {index : Nat}
    (last : IsGreatest (landings data.length address place) index) :
    data[index]? = some ((memory.load data address).read place) := by
  obtain ⟨⟨inside, falls⟩, greatest⟩ := last
  have cell : UInt8.ofInt place = .ofInt (address + index) :=
    (byteOfInt_eq_iff place (address + index)).mpr falls.symm
  have held := get_load_last memory data address index inside fun later after laterInside same => by
    have again : (address + later) % 256 = place % 256 :=
      ((byteOfInt_eq_iff _ _).mp same).trans falls
    exact absurd (greatest ⟨laterInside, again⟩) (Nat.not_le_of_lt after)
  rw [read, cell, held, List.getElem?_eq_getElem inside]

/-- A cell that no byte falls into holds what it held. -/
theorem read_load_of_isEmpty (memory : Memory)
    (none : landings data.length address place = ∅) :
    (memory.load data address).read place = memory.read place := by
  refine get_load_miss memory data address _ fun index inside same => ?_
  exact (Set.eq_empty_iff_forall_notMem.mp none index) ⟨inside, (byteOfInt_eq_iff _ _).mp same⟩

/-! ### Loads around the memory -/

/-- At most 256 bytes at the end of what was loaded are read back. -/
theorem block_load_drop (memory : Memory) {front : Nat} (inside : front ≤ data.length)
    (few : data.length - front ≤ 256) (address : Int) :
    (memory.load data address).block (address + front) (data.length - front) =
      data.drop front := by
  have fits : (data.drop front ++ []).length ≤ memorySize := by
    rwa [List.append_nil, List.length_drop]
  have held := memory.block_load (data.take front) (data.drop front) [] address fits
  rwa [List.append_nil, List.take_append_drop, List.length_take_of_le inside,
    List.length_drop] at held

/-- What is read at a place after a load is the last byte that fell into its cell or, if none did,
what was read there before. The last 256 bytes of the data, or all of a few, are read back. -/
theorem loads_wrap_around (memory : Memory) (data : List UInt8) (address : Int) :
    let loaded := memory.load data address
    (∀ place : Int,
        (∃ index, IsGreatest (landings data.length address place) index ∧
          data[index]? = some (loaded.read place)) ∨
        landings data.length address place = ∅ ∧ loaded.read place = memory.read place) ∧
      (data.length ≤ 256 → loaded.block address data.length = data) ∧
      (256 < data.length →
        loaded.block (address + data.length - 256) 256 = data.drop (data.length - 256)) := by
  intro loaded
  refine ⟨fun place => ?_, fun few => ?_, fun many => ?_⟩
  · rcases Set.eq_empty_or_nonempty (landings data.length address place) with none | something
    · exact .inr ⟨none, memory.read_load_of_isEmpty none⟩
    · obtain ⟨index, last⟩ := exists_isGreatest_landings something
      exact .inl ⟨index, last, memory.read_load_of_isGreatest last⟩
  · have whole := memory.block_load_drop (Nat.zero_le _) few address
    rwa [Int.natCast_zero, Int.add_zero] at whole
  · have long : data.length - (data.length - 256) = 256 := by omega
    have start : address + ((data.length - 256 : Nat) : Int) = address + data.length - 256 := by
      omega
    have rest := memory.block_load_drop (Nat.sub_le _ _) (Nat.le_of_eq long) address
    rwa [long, start] at rest

/-- Two laps and a half from an address below zero. -/
theorem loads_wrap_twice :
    let data := (List.range 640).map UInt8.ofNat
    (Memory.zero.load data (-700)).block (-316) 256 = data.drop 384 := by
  intro data
  have count : data.length = 640 := by rw [List.length_map, List.length_range]
  have many : 256 < data.length := by omega
  have start : -700 + (data.length : Int) - 256 = -316 := by omega
  have rest := (Memory.zero.loads_wrap_around data (-700)).2.2 many
  rwa [start, count] at rest

/-! ### Texts -/

/-- A text of at most 255 bytes is read back from where it was loaded, whatever the memory held. -/
theorem counted_text_survives (memory : Memory) (text : String)
    (few : (Utf8.encode text).length ≤ 255) (address : Int) :
    (memory.load (Utf8.counted text) address).textAt address = text := by
  have fits : (Utf8.counted text ++ []).length ≤ memorySize := by
    rw [List.append_nil]
    exact Nat.succ_le_succ few
  have held := memory.textAt_load [] [] text address fits
  rwa [List.append_nil, List.nil_append, List.length_nil, Int.natCast_zero, Int.add_zero] at held

/-- Characters of three bytes each, which fill the memory around its end. -/
theorem full_text_survives :
    let text := String.ofList (List.replicate 85 '€')
    (Utf8.encode text).length = 255 ∧
      (Memory.zero.load (Utf8.counted text) (-1000)).textAt (-1000) = text := by
  intro text
  have long : (Utf8.encode text).length = 255 := by
    rw [Utf8.encode, Utf8.length_encodeChars, String.toList_ofList]
    decide
  exact ⟨long, Memory.zero.counted_text_survives text (Nat.le_of_eq long) (-1000)⟩

end Memory

end Octet
