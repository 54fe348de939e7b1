/-
This file shows that the lines of a source tile its bytes. The first line begins
with the source, the bytes of each line are the encoding of its text, and what
stands between the end of a line and the beginning of the next one is the line
break, which is a line feed with or without a carriage return in front of it.
Behind the last line there is no line feed, but a carriage return may be left.

Places count bytes and the cut is made between characters. So everything comes
from one fact about characters, the cut of a source at one of its lines: the
offset of the line is the width of what stands in front of it.
-/

import Mathlib.Data.List.TakeDrop
import Octet.Proofs.Listings

namespace Octet

/-! ### A source cut at one of its lines -/

/-- A piece without the carriage return at its end is the piece, or all of it but that. -/
theorem dropReturn_append (piece : List Char) :
    ∃ left : List Char, (left = [] ∨ left = ['\r']) ∧ piece = dropReturn piece ++ left := by
  by_cases returned : piece.getLast? = some '\r'
  · refine ⟨['\r'], .inr rfl, ?_⟩
    rw [dropReturn, if_pos returned]
    exact (List.dropLast_append_getLast? _ returned).symm
  · refine ⟨[], .inl rfl, ?_⟩
    rw [dropReturn, if_neg returned, List.append_nil]

/-- Pieces with line feeds between them are cut at one of the pieces. In front of it the pieces
before it stand, each with its line feed, and behind it a line feed unless it is the last. -/
theorem exists_cut_of_pieces {pieces : List (List Char)} {index : Nat} {piece : List Char}
    (found : pieces[index]? = some piece) :
    ∃ front back : List Char, ['\n'].intercalate pieces = front ++ piece ++ back ∧
      Utf8.width front = piecesWidth (pieces.take index) ∧
      (index + 1 < pieces.length → ∃ rest, back = '\n' :: rest) ∧
      (pieces.length = index + 1 → back = []) := by
  induction pieces generalizing index with
  | nil => cases found
  | cons first others inductionHypothesis =>
    cases index with
    | zero =>
      obtain rfl := Option.some_inj.mp found
      cases others with
      | nil => exact ⟨[], [], by simp, rfl, fun more => absurd more (by simp), fun _ => rfl⟩
      | cons second rest =>
        refine ⟨[], '\n' :: ['\n'].intercalate (second :: rest), ?_, rfl, fun _ => ⟨_, rfl⟩,
          fun last => absurd last (by simp)⟩
        rw [List.intercalate_cons_cons, List.nil_append, List.append_assoc]
        rfl
    | succ index =>
      rw [List.getElem?_cons_succ] at found
      obtain ⟨front, back, parts, place, more, last⟩ := inductionHypothesis found
      cases others with
      | nil => cases found
      | cons second rest =>
        refine ⟨first ++ '\n' :: front, back, ?_, ?_, fun further => more ?_, fun whole => last ?_⟩
        · rw [List.intercalate_cons_cons, parts]
          simp only [List.append_assoc, List.cons_append, List.nil_append]
        · have feed : ('\n' : Char).utf8Size = 1 := rfl
          rw [List.take_succ_cons, piecesWidth, List.map_cons, List.sum_cons, Utf8.width_append,
            Utf8.width, place, feed, piecesWidth, Nat.add_assoc]
        · exact Nat.lt_of_succ_lt_succ further
        · exact Nat.succ.inj whole

/-- A source cut at one of its lines: what stands in front of the line, and what stands behind it
up to the end, of which a carriage return may belong to the line. -/
structure PhysicalLine.Cut (source : String) (line : PhysicalLine) (front left back : List Char) :
    Prop where
  parts : source.toList = front ++ line.text.toList ++ left ++ back
  place : line.offset = Utf8.width front
  returned : left = [] ∨ left = ['\r']

section

variable {source : String} {line : PhysicalLine} {front left back : List Char} {number : Nat}

/-- A source is cut at each of its lines. Behind a line there is a line feed, unless it is the
last. -/
theorem exists_cut (found : (physicalLines source)[number]? = some line) :
    ∃ front left back : List Char, line.Cut source front left back ∧
      (∀ next, (physicalLines source)[number + 1]? = some next →
        (∃ rest, back = '\n' :: rest) ∧ next.offset = line.span.hi + Utf8.width left + 1) ∧
      ((physicalLines source)[number + 1]? = none → back = []) := by
  simp only [physicalLines, getElem?_numberPieces, Nat.zero_add] at found ⊢
  obtain ⟨piece, cut, rfl⟩ := Option.map_eq_some_iff.mp found
  obtain ⟨left, returned, whole⟩ := dropReturn_append piece
  obtain ⟨front, back, parts, place, more, last⟩ := exists_cut_of_pieces cut
  obtain ⟨inside, same⟩ := List.getElem?_eq_some_iff.mp cut
  have width : Utf8.width piece = Utf8.width (dropReturn piece) + Utf8.width left :=
    (congrArg Utf8.width whole).trans (Utf8.width_append _ _)
  refine ⟨front, left, back, ⟨?_, place.symm, returned⟩, ?_, ?_⟩
  · have joined : ['\n'].intercalate (source.toList.splitOn '\n') = source.toList :=
      List.intercalate_splitOn '\n'
    rw [String.toList_ofList, List.append_assoc front, ← whole, ← parts, joined]
  · intro next follows
    obtain ⟨other, cutNext, rfl⟩ := Option.map_eq_some_iff.mp follows
    refine ⟨more (List.getElem?_eq_some_iff.mp cutNext).1, ?_⟩
    simp only [PhysicalLine.span, String.toList_ofList]
    rw [← List.take_concat_get' _ _ inside]
    simp only [same, piecesWidth, List.map_append, List.sum_append, List.map_cons, List.map_nil,
      List.sum_cons, List.sum_nil, width]
    omega
  · intro ends
    exact last (Nat.le_antisymm (List.getElem?_eq_none_iff.mp (Option.map_eq_none_iff.mp ends))
      inside)

theorem PhysicalLine.length_encode_text (line : PhysicalLine) :
    (Utf8.encode line.text).length = Utf8.width line.text.toList :=
  Utf8.length_encodeChars _

namespace PhysicalLine.Cut

/-- The bytes of a source are those in front of a line, those of the line and those behind it. -/
theorem encode_eq (cut : line.Cut source front left back) :
    Utf8.encode source = Utf8.encodeChars front ++
      (Utf8.encode line.text ++ (Utf8.encodeChars left ++ Utf8.encodeChars back)) := by
  rw [Utf8.encode, cut.parts]
  simp only [Utf8.encodeChars_append, List.append_assoc, Utf8.encode]

theorem length_front (cut : line.Cut source front left back) :
    (Utf8.encodeChars front).length = line.offset := by
  rw [Utf8.length_encodeChars, cut.place]

/-- What is left of the bytes behind a line. -/
theorem drop_hi (cut : line.Cut source front left back) :
    (Utf8.encode source).drop line.span.hi = Utf8.encodeChars left ++ Utf8.encodeChars back := by
  rw [cut.encode_eq, PhysicalLine.span, ← List.drop_drop, List.drop_left' cut.length_front]
  exact List.drop_left' line.length_encode_text

theorem hi_le (cut : line.Cut source front left back) :
    line.span.hi ≤ (Utf8.encode source).length := by
  rw [cut.encode_eq, List.length_append, List.length_append, cut.length_front,
    line.length_encode_text, ← Nat.add_assoc]
  exact Nat.le_add_right _ _

end PhysicalLine.Cut

/-! ### Lines lie one behind the other -/

/-- There is one line more than there are line feeds. -/
theorem length_physicalLines (source : String) :
    (physicalLines source).length = source.toList.count '\n' + 1 := by
  have numbers := congrArg List.length
    (map_number_numberPieces 0 0 (source.toList.splitOn '\n'))
  rw [List.length_map, List.length_map, List.length_range', length_splitOn] at numbers
  exact numbers

theorem le_offset_of_mem_numberPieces {offset : Nat} {pieces : List (List Char)}
    (member : line ∈ numberPieces number offset pieces) : offset ≤ line.offset := by
  induction pieces generalizing number offset with
  | nil => cases member
  | cons piece rest inductionHypothesis =>
    rcases List.mem_cons.mp member with rfl | later
    · exact Nat.le_refl _
    · have further := inductionHypothesis later
      omega

/-- There is a byte at least between a line and the lines behind it. -/
theorem pairwise_numberPieces (number offset : Nat) (pieces : List (List Char)) :
    (numberPieces number offset pieces).Pairwise fun first second =>
      first.span.hi < second.span.lo := by
  induction pieces generalizing number offset with
  | nil => exact List.Pairwise.nil
  | cons piece rest inductionHypothesis =>
    refine List.Pairwise.cons (fun line later => ?_) (inductionHypothesis _ _)
    have behind : offset + Utf8.width piece + 1 ≤ line.offset := le_offset_of_mem_numberPieces later
    obtain ⟨left, -, whole⟩ := dropReturn_append piece
    have width := (congrArg Utf8.width whole).trans (Utf8.width_append _ _)
    simp only [PhysicalLine.span, String.toList_ofList]
    omega

end

/-! ### Lines tile the source -/

/-- The bytes of a source from one place up to another. -/
def sourceBytes (source : String) (lo hi : Nat) : List UInt8 :=
  ((Utf8.encode source).drop lo).take (hi - lo)

/-- A line lies in a source: its number tells how many lines stand in front of it, its bytes are the
encoding of its text, and behind them there is a line break and the next line, or the end. -/
structure PhysicalLine.LiesIn (source : String) (number : Nat) (line : PhysicalLine) : Prop where
  numbered : line.number = number
  within : line.span.hi ≤ (Utf8.encode source).length
  written : sourceBytes source line.offset (line.offset + (Utf8.encode line.text).length) =
    Utf8.encode line.text
  broken : ∀ next, (physicalLines source)[number + 1]? = some next →
    line.span.hi < next.offset ∧
      (sourceBytes source line.span.hi next.offset = [0x0A] ∨
        sourceBytes source line.span.hi next.offset = [0x0D, 0x0A])
  final : (physicalLines source)[number + 1]? = none →
    (Utf8.encode source).drop line.span.hi = [] ∨ (Utf8.encode source).drop line.span.hi = [0x0D]

/-- Each line lies where its number and its offset say. -/
theorem PhysicalLine.liesIn {source : String} {number : Nat} {line : PhysicalLine}
    (found : (physicalLines source)[number]? = some line) : line.LiesIn source number := by
  obtain ⟨front, left, back, cut, more, last⟩ := exists_cut found
  refine ⟨?_, cut.hi_le, ?_, fun next follows => ?_, fun ends => ?_⟩
  · rw [physicalLines, getElem?_numberPieces, Nat.zero_add] at found
    obtain ⟨piece, -, rfl⟩ := Option.map_eq_some_iff.mp found
    rfl
  · rw [sourceBytes, Nat.add_sub_cancel_left, cut.encode_eq, List.drop_left' cut.length_front,
      List.take_left]
  · obtain ⟨⟨rest, rfl⟩, place⟩ := more next follows
    have feed : Utf8.encodeChars ('\n' :: rest) = 0x0A :: Utf8.encodeChars rest := rfl
    have count : next.offset - line.span.hi = Utf8.width left + 1 := by omega
    rw [sourceBytes, cut.drop_hi, feed, count]
    refine ⟨by omega, ?_⟩
    rcases cut.returned with rfl | rfl
    · exact .inl rfl
    · exact .inr rfl
  · rw [cut.drop_hi, last ends]
    rcases cut.returned with rfl | rfl
    · exact .inl rfl
    · exact .inr rfl

/-- There is one line more than there are line feeds. The lines begin with the source, each lies
where it says, and they leave out nothing but the line breaks. So the lines of the entries of a
program lie in the source one behind the other. -/
theorem lines_tile_source (source : String) :
    (physicalLines source).length = source.toList.count '\n' + 1 ∧
      (physicalLines source).head?.map PhysicalLine.offset = some 0 ∧
      (∀ (number : Nat) (line : PhysicalLine), (physicalLines source)[number]? = some line →
        line.LiesIn source number) ∧
      ∀ program, Program.ofSource source = .ok program →
        (program.map fun entry => entry.line.span).Pairwise
            (fun first second => first.lo < second.lo ∧ first.hi < second.lo) ∧
          ∀ entry ∈ program, entry.line.span.hi ≤ (Utf8.encode source).length := by
  refine ⟨length_physicalLines source, ?_, fun number line found => PhysicalLine.liesIn found,
    fun program parsed => ⟨?_, fun entry member => ?_⟩⟩
  · rw [physicalLines]
    cases pieces : source.toList.splitOn '\n' with
    | nil => exact absurd pieces (List.splitOn_ne_nil _ _)
    | cons piece others => rfl
  · have apart := (pairwise_numberPieces 0 0 (source.toList.splitOn '\n')).sublist
      (Program.lines_sublist parsed)
    rw [List.pairwise_map] at apart ⊢
    refine apart.imp fun {first second} behind => ⟨?_, behind⟩
    exact Nat.lt_of_le_of_lt first.line.span.ordered behind
  · have listed : entry.line ∈ physicalLines source :=
      (Program.lines_sublist parsed).subset (List.mem_map_of_mem member)
    obtain ⟨number, found⟩ := List.getElem?_of_mem listed
    exact (PhysicalLine.liesIn found).within

/-- Lines with characters of two bytes and both line breaks, and a carriage return behind the last
line. -/
theorem lines_tile_wide_source :
    let source := "\r\n.größe:\r\n; é\nldi größe\r"
    let line : PhysicalLine := ⟨1, 2, ".größe:"⟩
    let other : PhysicalLine := ⟨3, 18, "ldi größe"⟩
    (physicalLines source)[1]? = some line ∧ line.LiesIn source 1 ∧ line.span.hi = 11 ∧
      (physicalLines source)[3]? = some other ∧ other.LiesIn source 3 ∧
      ∃ program, Program.ofSource source = .ok program ∧
        program.map (fun entry => entry.line.span) = [line.span, other.span] ∧
        (program.map fun entry => entry.line.span).Pairwise
          (fun first second => first.lo < second.lo ∧ first.hi < second.lo) ∧
        ∀ entry ∈ program, entry.line.span.hi ≤ (Utf8.encode source).length := by
  intro source line other
  have found : (physicalLines source)[1]? = some line := by decide
  have foundOther : (physicalLines source)[3]? = some other := by decide
  obtain ⟨-, -, lies, apart⟩ := lines_tile_source source
  have width : line.span.hi = 11 := by decide
  refine ⟨found, lies 1 line found, width, foundOther, lies 3 other foundOther, ?_⟩
  have spans : (Program.ofSource source).map (fun program =>
      program.map fun entry => entry.line.span) = .ok [line.span, other.span] := by decide +kernel
  cases parsed : Program.ofSource source with
  | error diagnostics =>
    rw [parsed] at spans
    cases spans
  | ok program =>
    rw [parsed] at spans
    exact ⟨program, rfl, Except.ok.inj spans, apart program parsed⟩

end Octet
