/-
This file shows what a memory holds after bytes have been loaded into it.
Addresses count modulo 256, so a long load comes back to cells that it has
written already: of all bytes that fall into a cell the last one stays, and a
cell that none falls into keeps what it held. A program of at most 256 bytes
comes back to no cell, and therefore a memory made of it is the program
followed by zeros. What a load does not come around to again is read back as a
block.
-/

import Octet.Machine.Memory

namespace Octet

/-! ### Numbers as addresses -/

theorem toNat_byteOfInt (number : Int) : (UInt8.ofInt number).toNat = (number % 256).toNat := by
  have small : (number % 256).toNat < 256 := by omega
  rw [UInt8.ofInt, UInt8.toNat_ofNat']
  exact Nat.mod_eq_of_lt small

/-- Two numbers are the same address exactly if they differ by a multiple of 256. -/
theorem byteOfInt_eq_iff (first second : Int) :
    UInt8.ofInt first = UInt8.ofInt second ↔ first % 256 = second % 256 := by
  rw [← UInt8.toNat_inj, toNat_byteOfInt, toNat_byteOfInt]
  omega

@[simp]
theorem byteOfInt_natCast (number : Nat) : UInt8.ofInt number = UInt8.ofNat number := by
  rw [← UInt8.toNat_inj, toNat_byteOfInt, UInt8.toNat_ofNat']
  omega

@[simp]
theorem byteOfInt_toNat (byte : UInt8) : UInt8.ofInt byte.toNat = byte := by
  rw [byteOfInt_natCast, UInt8.ofNat_toNat]

namespace Memory

/-! ### Loading -/

theorem load_cons (memory : Memory) (byte : UInt8) (rest : List UInt8) (address : Int) :
    memory.load (byte :: rest) address =
      (memory.set (.ofInt address) byte).load rest (address + 1) := rfl

/-- A cell that no byte falls into keeps what it held. -/
theorem get_load_miss (memory : Memory) (data : List UInt8) (address : Int) (cell : UInt8)
    (miss : ∀ index : Nat, index < data.length → UInt8.ofInt (address + index) ≠ cell) :
    (memory.load data address).get cell = memory.get cell := by
  induction data generalizing memory address with
  | nil => rfl
  | cons byte rest inductionHypothesis =>
    have first : UInt8.ofInt address ≠ cell := by
      have zeroth := miss 0 (Nat.zero_lt_succ _)
      rwa [Int.natCast_zero, Int.add_zero] at zeroth
    rw [load_cons, inductionHypothesis, get_set_other _ _ first]
    intro index inside
    have next := miss (index + 1) (Nat.succ_lt_succ inside)
    rwa [Int.natCast_add, Int.natCast_one, Int.add_comm (index : Int), ← Int.add_assoc] at next

/-- Of the bytes that fall into a cell the last one stays. -/
theorem get_load_last (memory : Memory) (data : List UInt8) (address : Int) (index : Nat)
    (inside : index < data.length)
    (last : ∀ later : Nat, index < later → later < data.length →
      UInt8.ofInt (address + later) ≠ UInt8.ofInt (address + index)) :
    (memory.load data address).get (.ofInt (address + index)) = data[index] := by
  induction data generalizing memory address index with
  | nil => exact absurd inside (Nat.not_lt_zero _)
  | cons byte rest inductionHypothesis =>
    have shift : ∀ place : Nat,
        address + 1 + (place : Int) = address + ((place + 1 : Nat) : Int) := by
      intro place
      omega
    cases index with
    | zero =>
      rw [load_cons, get_load_miss]
      · rw [Int.natCast_zero, Int.add_zero, get_set_self]
        rfl
      · intro place placeInside
        rw [shift]
        exact last (place + 1) (Nat.succ_pos _) (Nat.succ_lt_succ placeInside)
    | succ index =>
      rw [load_cons, ← shift, inductionHypothesis _ _ _ (Nat.lt_of_succ_lt_succ inside)]
      · rfl
      · intro later after laterInside
        rw [shift, shift]
        exact last (later + 1) (Nat.succ_lt_succ after) (Nat.succ_lt_succ laterInside)

/-! ### Blocks -/

@[simp]
theorem length_block (memory : Memory) (address : Int) (length : Nat) :
    (memory.block address length).length = length := by
  rw [block, List.length_map, List.length_range]

@[simp]
theorem getElem_block (memory : Memory) (address : Int) {length index : Nat}
    (inside : index < (memory.block address length).length) :
    (memory.block address length)[index] = memory.read (address + index) := by
  simp only [block, List.getElem_map, List.getElem_range]

/-- A block is two blocks, one behind the other. -/
theorem block_add (memory : Memory) (address : Int) (first second : Nat) :
    memory.block address (first + second) =
      memory.block address first ++ memory.block (address + first) second := by
  rw [block, List.range_add, List.map_append, List.map_map, block, block]
  refine congrArg _ (List.map_congr_left fun index _ => ?_)
  rw [Function.comp_apply, Int.natCast_add, Int.add_assoc]

/-- A part of what was loaded is read back if the load does not come around to it again. -/
theorem block_load (memory : Memory) (front part back : List UInt8) (address : Int)
    (fits : (part ++ back).length ≤ memorySize) :
    (memory.load (front ++ (part ++ back)) address).block (address + front.length) part.length =
      part := by
  have bound : part.length + back.length ≤ 256 := by rwa [List.length_append] at fits
  refine List.ext_getElem (length_block _ _ _) fun index _ inside => ?_
  have placed : index < (part ++ back).length := by
    rw [List.length_append]
    exact Nat.lt_add_right _ inside
  have within : front.length + index < (front ++ (part ++ back)).length := by
    rw [List.length_append]
    exact Nat.add_lt_add_left placed _
  have place : address + front.length + index = address + (front.length + index : Nat) := by
    rw [Int.natCast_add, Int.add_assoc]
  have held := get_load_last memory (front ++ (part ++ back)) address (front.length + index) within
    fun later after laterInside => by
      rw [List.length_append, List.length_append] at laterInside
      rw [Ne, byteOfInt_eq_iff]
      omega
  rw [getElem_block, read, place, held, List.getElem_append_right (Nat.le_add_right _ _)]
  simp only [Nat.add_sub_cancel_left, List.getElem_append_left inside]

/-! ### Programs -/

/-- In a memory made of a program a cell holds the program's byte, or zero behind its end. -/
theorem get_load_program (program : List UInt8) (fits : program.length ≤ memorySize)
    (cell : UInt8) : (zero.load program 0).get cell = program[cell.toNat]?.getD 0 := by
  have byteBound : cell.toNat < 256 := cell.toNat_lt
  by_cases inside : cell.toNat < program.length
  · have held := get_load_last zero program 0 cell.toNat inside fun later after laterInside => by
      have laterBound : later < 256 := Nat.lt_of_lt_of_le laterInside fits
      rw [Ne, byteOfInt_eq_iff]
      omega
    rw [Int.zero_add, byteOfInt_toNat] at held
    rw [held, List.getElem?_eq_getElem inside, Option.getD_some]
  · rw [get_load_miss, get_zero, List.getElem?_eq_none (Nat.le_of_not_lt inside), Option.getD_none]
    intro index indexInside same
    have indexBound : index < 256 := Nat.lt_of_lt_of_le indexInside fits
    have value := congrArg UInt8.toNat same
    rw [toNat_byteOfInt] at value
    omega

/-- The cells of a memory in order are what is read at the addresses in order. -/
theorem toList_eq_map (memory : Memory) :
    memory.toList = (List.range memorySize).map fun address => memory.get (.ofNat address) := by
  refine List.ext_getElem ?_ fun index inside _ => ?_
  · simp [toList]
  · have small : index < 256 := by simpa [toList] using inside
    have cell : (UInt8.ofNat index).toNat = index := by
      rw [UInt8.toNat_ofNat']
      exact Nat.mod_eq_of_lt small
    simp only [toList, get, List.getElem_map, List.getElem_range, cell, Vector.getElem_toList]

/-- A memory made of a program is the program followed by zeros. -/
theorem toList_load_program (program : List UInt8) (fits : program.length ≤ memorySize) :
    (zero.load program 0).toList =
      program ++ List.replicate (memorySize - program.length) 0 := by
  rw [toList_eq_map]
  refine List.ext_getElem ?_ fun index inside _ => ?_
  · rw [List.length_map, List.length_range, List.length_append, List.length_replicate]
    omega
  · have small : index < 256 := by
      rwa [List.length_map, List.length_range] at inside
    have cell : (UInt8.ofNat index).toNat = index := by
      rw [UInt8.toNat_ofNat']
      exact Nat.mod_eq_of_lt small
    rw [List.getElem_map, List.getElem_range, get_load_program program fits, cell]
    by_cases within : index < program.length
    · rw [List.getElem_append_left within, List.getElem?_eq_getElem within, Option.getD_some]
    · rw [List.getElem_append_right (Nat.le_of_not_lt within), List.getElem_replicate,
        List.getElem?_eq_none (Nat.le_of_not_lt within), Option.getD_none]

end Memory

end Octet
