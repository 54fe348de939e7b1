/-
This file shows that a dump of the memory is complete and aligned. Its rows show
the bytes of a block, each byte once and in order, wherever the block begins and
however often it goes around the memory. Every row but the last is full. The
last one may be short, and then blanks stand in for the bytes that it lacks, so
that the characters begin in the same column in all rows.

A dump is text, so it is cut at its line ends here, and the bytes are read back
from their columns.
-/

import Mathlib.Algebra.Order.Floor.Div
import Octet.Machine.Dump
import Octet.Proofs.Listings
import Octet.Proofs.Memory

namespace Octet

open Character

/-! ### Lines -/

namespace Text

/-- Whatever ends a line is a break. -/
theorem isBreak_of_isBoundary {c : Char} (boundary : isBoundary c = true) : IsBreak c := by
  refine ⟨?_, ?_⟩
  · by_contra visible
    rw [not_isBoundary (.inl (Bool.eq_false_iff.mpr visible))] at boundary
    cases boundary
  · rintro rfl
    rw [not_isBoundary (.inr rfl)] at boundary
    cases boundary

theorem boundedLines_single {line : List Char} (something : line ≠ [])
    (whole : ∀ c ∈ line, isBoundary c = false) : boundedLines line = [line] := by
  induction line with
  | nil => exact absurd rfl something
  | cons c rest inductionHypothesis =>
    rw [List.forall_mem_cons] at whole
    have other : c ≠ '\r' := by
      rintro rfl
      exact absurd whole.1 (by decide)
    rw [boundedLines, if_neg (Bool.eq_false_iff.mp whole.1)]
    · cases rest with
      | nil => rfl
      | cons next more => rw [inductionHypothesis (List.cons_ne_nil _ _) whole.2]
    · exact fun _ same _ => other same

/-- Lines with line feeds between them fall apart again, if none of them is empty. -/
theorem boundedLines_intercalate {lines : List String}
    (whole : ∀ line ∈ lines, line ≠ "" ∧ ∀ c ∈ line.toList, isBoundary c = false) :
    boundedLines ("\n".intercalate lines).toList = lines.map String.toList := by
  induction lines with
  | nil => rfl
  | cons line rest inductionHypothesis =>
    rw [List.forall_mem_cons] at whole
    by_cases last : rest = []
    · subst last
      have something : line.toList ≠ [] := fun empty =>
        whole.1.1 (String.toList_eq_nil_iff.mp empty)
      rw [String.intercalate_singleton]
      exact boundedLines_single something whole.1.2
    · have parted : ("\n".intercalate (line :: rest)).toList =
          line.toList ++ '\n' :: ("\n".intercalate rest).toList := by
        rw [String.intercalate_cons_of_ne_nil last, String.toList_append, String.toList_append]
        simp
      rw [parted, boundedLines_line whole.1.2, inductionHypothesis whole.2]
      rfl

/-- A byte is written as two capital digits that make its number. -/
theorem hexByte_digits (byte : UInt8) : ∃ high low, (hexByte byte).toList = [high, low] ∧
    (∀ digit ∈ [high, low], isHexDigit digit = true ∧ digit.toUpper = digit) ∧
      hexValue [high, low] = byte.toNat := by
  obtain ⟨high, low, digits⟩ := List.length_eq_two.mp (length_hexByte byte)
  obtain ⟨hexadecimal, value, _⟩ := hex_spec byte.toNat
  rw [← hexByte, digits] at hexadecimal value
  refine ⟨high, low, digits, fun digit member => ⟨hexadecimal digit member, ?_⟩, value⟩
  rw [← digits] at member
  exact toUpper_of_mem_hex member

theorem toList_hexRow_cons (byte : UInt8) {rest : List UInt8} (more : rest ≠ []) :
    (hexRow (byte :: rest)).toList = (hexByte byte).toList ++ ' ' :: (hexRow rest).toList := by
  have filled : rest.map hexByte ≠ [] := fun none => more (List.map_eq_nil_iff.mp none)
  rw [hexRow, List.map_cons, String.intercalate_cons_of_ne_nil filled, String.toList_append,
    String.toList_append, List.append_assoc]
  rfl

/-- The digits of a byte stand in the columns that belong to its number in the row. -/
theorem take_drop_hexRow {bytes : List UInt8} {index : Nat} {byte : UInt8}
    (found : bytes[index]? = some byte) (behind : List Char) :
    (((hexRow bytes).toList ++ behind).drop (3 * index)).take 2 = (hexByte byte).toList := by
  have two : ∀ byte, (hexByte byte).toList.length = 2 := fun byte => by
    rw [String.length_toList, length_hexByte]
  induction bytes generalizing index with
  | nil => cases found
  | cons first rest inductionHypothesis =>
    cases index with
    | zero =>
      obtain rfl : first = byte := Option.some_inj.mp found
      by_cases last : rest = []
      · subst last
        rw [hexRow, List.map_singleton, String.intercalate_singleton]
        exact List.take_left' (two first)
      · rw [toList_hexRow_cons first last, List.append_assoc]
        exact List.take_left' (two first)
    | succ index =>
      rw [List.getElem?_cons_succ] at found
      have more : rest ≠ [] := by
        rintro rfl
        cases found
      have parted : ((hexRow (first :: rest)).toList ++ behind).drop 3 =
          (hexRow rest).toList ++ behind := by
        have three : ((hexByte first).toList ++ [' ']).length = 3 := by
          rw [List.length_append, two, List.length_singleton]
        rw [toList_hexRow_cons first more, List.append_assoc, List.cons_append, List.append_cons]
        exact List.drop_left' three
      rw [Nat.mul_succ, Nat.add_comm, ← List.drop_drop, parted]
      exact inductionHypothesis found

end Text

/-! ### What a row shows -/

/-- The bytes that a row of a dump shows: the pairs of digits in the columns behind the address, of
which there are enough for as many bytes as the rows are wide. -/
def dumpedBytes (width : Nat) (row : List Char) : List UInt8 :=
  (blankParted ((row.drop 5).take (3 * width - 1))).map fun digits => .ofNat (hexValue digits)

/-- A row of a dump shows bytes that begin at an address. -/
structure ShowsBytes (width : Nat) (address : Int) (bytes : List UInt8) (row : List Char) :
    Prop where
  /-- The row is labelled with its address, modulo 256 and in two capital digits. -/
  label : ∃ high low, row.take 5 = ['$', high, low, ':', ' '] ∧
    (∀ digit ∈ [high, low], isHexDigit digit = true ∧ digit.toUpper = digit) ∧
      (hexValue [high, low] : Int) = address % 256
  shown : dumpedBytes width row = bytes
  /-- The digits of a byte stand in the columns that belong to its number in the row. -/
  columns : ∀ (index : Nat) byte, bytes[index]? = some byte →
    (row.drop (5 + 3 * index)).take 2 = (Text.hexByte byte).toList
  /-- Two blanks part the bytes from the characters, whether or not the row is full. -/
  gap : (row.drop (4 + 1 + (3 * width - 1))).take 2 = [' ', ' ']
  /-- Behind that there is one character for each byte. -/
  characters : row.drop (4 + 1 + (3 * width - 1) + 2) = bytes.map shownByte

namespace Memory

variable (memory : Memory)

/-- A row, cut in front of its bytes and behind them. -/
theorem toList_dumpRow (width : Nat) (start : Int) (length : Nat) :
    (memory.dumpRow width start length).toList =
      '$' :: (Text.hexByte (.ofInt start)).toList ++ ':' :: ' ' ::
        ((Text.padRight (3 * width - 1) (Text.hexRow (memory.block start length))).toList ++
          ' ' :: ' ' :: (memory.block start length).map shownByte) := by
  simp [dumpRow, Text.hexByte, Text.toList_dollarHex, String.toList_append, Nat.mul_comm]

theorem showsBytes_dumpRow {width length : Nat} (fits : length ≤ width) (start : Int) :
    ShowsBytes width start (memory.block start length)
      (memory.dumpRow width start length).toList := by
  obtain ⟨high, low, digits, capital, value⟩ := Text.hexByte_digits (.ofInt start)
  have field : (Text.padRight (3 * width - 1)
      (Text.hexRow (memory.block start length))).toList.length = 3 * width - 1 := by
    refine Text.length_padRight ?_
    rw [Text.length_hexRow, length_block]
    omega
  have columns := memory.toList_dumpRow width start length
  rw [digits] at columns
  generalize (memory.dumpRow width start length).toList = row at columns
  have behindLabel : row.drop 5 = (Text.padRight (3 * width - 1)
      (Text.hexRow (memory.block start length))).toList ++
        ' ' :: ' ' :: (memory.block start length).map shownByte := by
    rw [columns]
    rfl
  have behindBytes : row.drop (5 + (3 * width - 1)) =
      ' ' :: ' ' :: (memory.block start length).map shownByte := by
    rw [← List.drop_drop, behindLabel]
    exact List.drop_left' field
  refine ⟨⟨high, low, by rw [columns]; rfl, capital, ?_⟩, ?_, fun index byte found => ?_, ?_, ?_⟩
  · rw [value, toNat_byteOfInt]
    omega
  · rw [dumpedBytes, behindLabel, List.take_left' field]
    exact Text.bytes_padRight_hexRow _ _
  · rw [← List.drop_drop, behindLabel, Text.padRight, String.toList_append, List.append_assoc]
    exact Text.take_drop_hexRow found _
  · exact congrArg (List.take 2) behindBytes
  · rw [← List.drop_drop]
    exact congrArg (List.drop 2) behindBytes

/-! ### The rows -/

/-- A dump shows a byte as a character that can be seen, or as a space. -/
theorem not_isBreak_shownByte (byte : UInt8) : ¬IsBreak (shownByte byte) := by
  rw [shownByte]
  split
  · rename_i graphic
    exact not_isBreak_of_isGraphic graphic
  · exact fun breaks => absurd breaks.1 (by decide)

/-- No break is in a row. -/
theorem break_not_mem_dumpRow {c : Char} (breaks : IsBreak c) (width : Nat) (start : Int)
    (length : Nat) : c ∉ (memory.dumpRow width start length).toList := by
  have visible : ∀ {other : Char}, isBlank other = false → c ≠ other := by
    rintro other visible rfl
    exact Bool.false_ne_true (visible.symm.trans breaks.1)
  have space : c ≠ ' ' := breaks.2
  have padding : ∀ count, c ∉ List.replicate count ' ' := fun count inside =>
    space (List.eq_of_mem_replicate inside)
  have characters : c ∉ (memory.block start length).map shownByte := by
    intro inside
    obtain ⟨byte, _, rfl⟩ := List.mem_map.mp inside
    exact not_isBreak_shownByte byte breaks
  rw [toList_dumpRow, Text.padRight, Text.repeated, String.toList_append, String.toList_ofList]
  simp only [List.mem_append, List.mem_cons, not_or]
  exact ⟨⟨visible rfl, Text.break_not_mem_hexByte breaks _⟩, visible rfl, space,
    ⟨Text.break_not_mem_hexRow breaks _, padding _⟩, space, space, characters⟩

/-- The rows of a dump come out of it when it is cut at its line ends. -/
theorem boundedLines_dumpRows (width : Nat) (start : Int) (length : Nat) :
    Text.boundedLines ("\n".intercalate (memory.dumpRows width start length)).toList =
      (memory.dumpRows width start length).map String.toList := by
  refine Text.boundedLines_intercalate fun row member => ?_
  obtain ⟨index, _, rfl⟩ := List.mem_map.mp member
  refine ⟨fun empty => ?_, fun c inside => Bool.eq_false_iff.mpr fun boundary => ?_⟩
  · have letters := memory.toList_dumpRow width (start + index * width)
      (min width (length - index * width))
    rw [empty] at letters
    cases letters
  · exact memory.break_not_mem_dumpRow (Text.isBreak_of_isBoundary boundary) _ _ _ inside

/-- Rows of one width, of which only the last may be short, make up a block. -/
theorem flatMap_block (start : Int) (length width count : Nat) :
    ((List.range count).flatMap fun (row : Nat) =>
      memory.block (start + row * width) (min width (length - row * width))) =
      memory.block start (min length (count * width)) := by
  induction count with
  | zero =>
    rw [Nat.zero_mul, Nat.min_zero]
    rfl
  | succ count inductionHypothesis =>
    rw [List.range_succ, List.flatMap_append, inductionHypothesis, List.flatMap_singleton,
      Nat.succ_mul, ← Int.natCast_mul]
    by_cases inside : count * width ≤ length
    · have more : min length (count * width + width) =
          count * width + min width (length - count * width) := by
        omega
      rw [more, block_add, Nat.min_eq_right inside]
    · have beyond : length - count * width = 0 := by omega
      have all : min length (count * width + width) = min length (count * width) := by omega
      rw [beyond, all, Nat.min_zero]
      exact List.append_nil _

theorem length_dumpRows (width : Nat) (start : Int) (length : Nat) :
    (memory.dumpRows width start length).length = length ⌈/⌉ width := by
  rw [dumpRows, List.length_map, List.length_range, Nat.ceilDiv_eq_add_pred_div]

/-- There is a row for a number if that row has a byte to show. -/
theorem lt_ceilDiv_iff {width : Nat} (something : 0 < width) (index length : Nat) :
    index < length ⌈/⌉ width ↔ index * width < length := by
  rw [Nat.mul_comm]
  exact lt_iff_lt_of_le_iff_le (ceilDiv_le_iff_le_mul something)

/-- The rows of a dump show the bytes of the block that it is made of. -/
theorem flatMap_dumpedBytes {width : Nat} (something : 0 < width) (start : Int) (length : Nat) :
    ((memory.dumpRows width start length).map String.toList).flatMap (dumpedBytes width) =
      memory.block start length := by
  have enough : length ≤ length ⌈/⌉ width * width :=
    not_lt.mp (mt (lt_ceilDiv_iff something _ _).mpr (lt_irrefl _))
  have shown : ∀ row : Nat, dumpedBytes width (memory.dumpRow width (start + row * width)
      (min width (length - row * width))).toList =
        memory.block (start + row * width) (min width (length - row * width)) :=
    fun row => (memory.showsBytes_dumpRow (Nat.min_le_left _ _) _).shown
  rw [dumpRows, ← Nat.ceilDiv_eq_add_pred_div, List.map_map, List.flatMap_map]
  simp only [Function.comp_apply, shown]
  rw [flatMap_block, Nat.min_eq_left enough]

/-- A dump is cut into as many rows as are needed for its bytes, and in order they show all bytes of
the block that it is made of. A row is labelled with the address of its first byte. It shows as many
bytes as it is wide unless it is the last one, and that one is not empty. -/
theorem dump_is_complete_and_aligned (start : Int) (length : Nat) {width : Nat}
    (something : 1 ≤ width) :
    ∃ text, memory.dump start (some length) width = .ok text ∧
      let rows := Text.boundedLines text.toList
      rows.length = length ⌈/⌉ width ∧
      rows.flatMap (dumpedBytes width) = memory.block start length ∧
      ∀ (index : Nat) row, rows[index]? = some row →
        ShowsBytes width (start + index * width)
          (memory.block (start + index * width) (min width (length - index * width))) row ∧
        0 < (dumpedBytes width row).length ∧
        (index + 1 < rows.length → (dumpedBytes width row).length = width) := by
  have positive : 0 < width := something
  have laidOut : memory.dump start (some length) width =
      .ok ("\n".intercalate (memory.dumpRows width start length)) := by
    rw [dump, if_neg (by omega), if_pos (by omega)]
    rfl
  have count : ((memory.dumpRows width start length).map String.toList).length =
      length ⌈/⌉ width := by
    rw [List.length_map, length_dumpRows]
  refine ⟨_, laidOut, ?_⟩
  rw [boundedLines_dumpRows]
  refine ⟨count, memory.flatMap_dumpedBytes positive start length, fun index row found => ?_⟩
  obtain ⟨inside, rfl⟩ := List.getElem?_eq_some_iff.mp found
  have begins : index * width < length := (lt_ceilDiv_iff positive _ _).mp (count ▸ inside)
  have shows := memory.showsBytes_dumpRow (Nat.min_le_left width (length - index * width))
    (start + index * width)
  simp only [dumpRows, List.getElem_map, List.getElem_range]
  refine ⟨shows, ?_, fun more => ?_⟩
  · rw [shows.shown, length_block]
    omega
  · have full : (index + 1) * width < length := (lt_ceilDiv_iff positive _ _).mp (count ▸ more)
    rw [Nat.succ_mul] at full
    rw [shows.shown, length_block]
    omega

/-- The first row shows the last cell and the first one. -/
theorem dump_goes_around :
    let memory := Memory.zero.load [0x48, 0x49, 0x21] (-1)
    ∃ text, memory.dump (-1) (some 5) 2 = .ok text ∧
      (Text.boundedLines text.toList).length = 3 ∧
      (Text.boundedLines text.toList).flatMap (dumpedBytes 2) = [0x48, 0x49, 0x21, 0, 0] := by
  intro memory
  obtain ⟨text, laidOut, count, shown, _⟩ :=
    memory.dump_is_complete_and_aligned (-1) 5 (Nat.le_succ 1)
  exact ⟨text, laidOut, count, shown.trans (by decide)⟩

end Memory

end Octet
