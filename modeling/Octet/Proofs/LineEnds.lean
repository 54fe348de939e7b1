/-
This file shows that a source may as well be assembled from a file. Line ends
are unified in two ways: reading a file turns every carriage return into a line
feed, or drops it if a line feed follows, and cutting a source into lines drops
one carriage return at the end of each. If every carriage return of a text has a
line feed behind it, both ways lead to the same lines.

Only the bytes at which the lines begin differ, since the file has fewer of them
when it has been read. They are no part of what is encoded or reported.
-/

import Octet.Proofs.Essence
import Octet.Proofs.Joining
import Octet.Tool.TextFile

namespace Octet

/-! ### Carriage returns in front of line feeds -/

/-- Every carriage return has a line feed right behind it. -/
def ReturnsEnded (text : List Char) : Prop :=
  ∀ front back, text = front ++ '\r' :: back → back.head? = some '\n'

theorem returnsEnded_nil : ReturnsEnded [] := by
  intro front back parts
  cases front <;> cases parts

theorem returnsEnded_cons_iff (c : Char) (rest : List Char) :
    ReturnsEnded (c :: rest) ↔ (c = '\r' → rest.head? = some '\n') ∧ ReturnsEnded rest := by
  constructor
  · intro ended
    exact ⟨fun same => ended [] rest (by rw [same]; rfl),
      fun front back parts => ended (c :: front) back (congrArg (c :: ·) parts)⟩
  · rintro ⟨first, others⟩ front back parts
    cases front with
    | nil =>
      obtain ⟨same, rfl⟩ := List.cons.inj parts
      exact first same
    | cons _ front => exact others front back (List.cons.inj parts).2

instance decidableReturnsEnded : (text : List Char) → Decidable (ReturnsEnded text)
  | [] => .isTrue returnsEnded_nil
  | c :: rest =>
    have := decidableReturnsEnded rest
    decidable_of_iff _ (returnsEnded_cons_iff c rest).symm

/-- What stands in front of other characters of a line does not matter for its end. -/
theorem dropReturn_cons {c : Char} (other : c ≠ '\r') (piece : List Char) :
    dropReturn (c :: piece) = c :: dropReturn piece := by
  cases piece with
  | nil => rw [dropReturn, List.getLast?_singleton, if_neg (mt Option.some_inj.mp other)]; rfl
  | cons d rest =>
    rw [dropReturn, dropReturn, List.getLast?_cons_cons, List.dropLast_cons_cons]
    split <;> rfl

/-- Whether its line ends are unified first or not, a text falls into the same lines. -/
theorem splitOn_unifyChars {text : List Char} (ended : ReturnsEnded text) :
    ((Text.unifyChars text).splitOn '\n').map dropReturn =
      (text.splitOn '\n').map dropReturn := by
  fun_induction Text.unifyChars text with
  | case1 => rfl
  | case2 rest inductionHypothesis =>
    have further : ReturnsEnded rest :=
      ((returnsEnded_cons_iff _ _).mp ((returnsEnded_cons_iff _ _).mp ended).2).2
    have lines : ('\r' :: '\n' :: rest).splitOn '\n' = ['\r'] :: rest.splitOn '\n' :=
      List.splitOn_append_cons_self ['\r'] rest
    have unified : ('\n' :: Text.unifyChars rest).splitOn '\n' =
        [] :: (Text.unifyChars rest).splitOn '\n' := List.splitOn_append_cons_self [] _
    rw [lines, unified, List.map_cons, List.map_cons, inductionHypothesis further]
    rfl
  | case3 rest lone _ =>
    -- A carriage return without a line feed behind it would have been one too many.
    cases rest with
    | nil => cases ended [] [] rfl
    | cons c more =>
      obtain rfl := Option.some_inj.mp (ended [] (c :: more) rfl)
      exact absurd rfl (lone more)
  | case4 c rest _ other inductionHypothesis =>
    have same := inductionHypothesis ((returnsEnded_cons_iff _ _).mp ended).2
    rw [List.splitOn_cons_eq_if_modifyHead, List.splitOn_cons_eq_if_modifyHead]
    split
    · rw [List.map_cons, List.map_cons, same]
    · cases front : (Text.unifyChars rest).splitOn '\n' with
      | nil => exact absurd front (List.splitOn_ne_nil _ _)
      | cons first others =>
        cases back : rest.splitOn '\n' with
        | nil => exact absurd back (List.splitOn_ne_nil _ _)
        | cons second more =>
          rw [front, back, List.map_cons, List.map_cons] at same
          obtain ⟨head, tail⟩ := List.cons.inj same
          rw [List.modifyHead_cons, List.modifyHead_cons, List.map_cons, List.map_cons,
            dropReturn_cons other, dropReturn_cons other, head, tail]

/-! ### Lines without the bytes at which they begin -/

/-- Where lines begin does not matter for their numbers and their texts. -/
theorem detached_numberPieces (number offset other : Nat) {pieces others : List (List Char)}
    (same : pieces.map dropReturn = others.map dropReturn) :
    (numberPieces number offset pieces).map PhysicalLine.detached =
      (numberPieces number other others).map PhysicalLine.detached := by
  induction pieces generalizing number offset other others with
  | nil => rw [List.map_eq_nil_iff.mp same.symm]; rfl
  | cons piece rest inductionHypothesis =>
    obtain ⟨alike, more, rfl, head, tail⟩ := List.map_eq_cons_iff.mp same.symm
    rw [numberPieces, numberPieces, List.map_cons, List.map_cons, head,
      inductionHypothesis _ _ _ tail.symm]
    rfl

/-- A line without the byte at which it begins yields the same mistake, or the same entry but for
that byte. -/
theorem Entry.ofLine_detached (line : PhysicalLine) :
    Entry.ofLine line.detached =
      (Entry.ofLine line).map (Option.map fun entry => ⟨entry.statement, entry.line.detached⟩) := by
  have text : line.detached.text = line.text := rfl
  unfold Entry.ofLine
  rw [text]
  cases Statement.ofLine line.text with
  | error diagnostic => rfl
  | ok statement => cases statement <;> rfl

/-- Sources whose lines differ in nothing but the bytes at which they begin are read alike. -/
theorem Program.survey_detached {first second : String}
    (same : (physicalLines first).map PhysicalLine.detached =
      (physicalLines second).map PhysicalLine.detached) :
    (Program.survey first).1.essence = (Program.survey second).1.essence ∧
      (Program.survey first).2 = (Program.survey second).2 := by
  have essence : ∀ line : PhysicalLine, (entryOf? (Entry.ofLine line)).map Entry.essence =
      (entryOf? (Entry.ofLine line.detached)).map Entry.essence := by
    intro line
    rw [Entry.ofLine_detached]
    cases Entry.ofLine line with
    | error diagnostic => rfl
    | ok entry => cases entry <;> rfl
  have mistake : ∀ line : PhysicalLine,
      mistakeOf? (Entry.ofLine line) = mistakeOf? (Entry.ofLine line.detached) := by
    intro line
    rw [Entry.ofLine_detached]
    cases Entry.ofLine line <;> rfl
  have entries : ∀ source : String, (Program.survey source).1.essence =
      ((physicalLines source).map PhysicalLine.detached).filterMap
        fun line => (entryOf? (Entry.ofLine line)).map Entry.essence := by
    intro source
    rw [survey_eq, Program.essence, List.map_filterMap, List.filterMap_map]
    exact List.filterMap_congr fun line _ => essence line
  have mistakes : ∀ source : String, (Program.survey source).2 =
      ((physicalLines source).map PhysicalLine.detached).filterMap
        (mistakeOf? ∘ Entry.ofLine) := by
    intro source
    rw [survey_eq, List.filterMap_map]
    exact List.filterMap_congr fun line _ => mistake line
  exact ⟨by rw [entries, same, ← entries], by rw [mistakes, same, ← mistakes]⟩

/-- Such sources are assembled to the same code, or the same is wrong with them. -/
theorem assemble_detached {first second : String}
    (same : (physicalLines first).map PhysicalLine.detached =
      (physicalLines second).map PhysicalLine.detached) : assemble first = assemble second := by
  obtain ⟨essence, mistakes⟩ := Program.survey_detached same
  have readFirst := Program.ofSource_eq first
  have readSecond := Program.ofSource_eq second
  rw [← mistakes] at readSecond
  by_cases clean : (Program.survey first).2 = []
  · rw [if_pos clean] at readFirst readSecond
    rw [assemble, assemble, Session.fresh.assemble_of_parsed readFirst,
      Session.fresh.assemble_of_parsed readSecond, ← Image.result_detached,
      Image.detached_eq essence, Image.result_detached]
  · rw [if_neg clean] at readFirst readSecond
    simp only [assemble, Session.assemble, readFirst, readSecond]

/-! ### Files and strings -/

/-- A text of which every carriage return has a line feed behind it is assembled from a file as
it is from a string: the code is the same, or everything that is wrong is. -/
theorem files_assemble_as_their_text {text : String} (ended : ReturnsEnded text.toList) :
    assembleFile (Utf8.encode text) = .ok (assemble text) := by
  have lines : (physicalLines (Text.unifyNewlines text)).map PhysicalLine.detached =
      (physicalLines text).map PhysicalLine.detached := by
    refine detached_numberPieces 0 0 0 ?_
    rw [Text.unifyNewlines, String.toList_ofList]
    exact splitOn_unifyChars ended
  have read : textOfFile (Utf8.encode text) = .ok (Text.unifyNewlines text) := by
    rw [textOfFile, Utf8.encode, Utf8.decode_encodeChars, String.ofList_toList]
    rfl
  rw [assembleFile, read]
  exact congrArg Except.ok (assemble_detached lines)

/-- Carriage returns stand at the end of an empty line, of a comment with a character of two bytes
and of a line that cannot be read. -/
theorem file_assembles_as_wide_text :
    let text := "\r\n.größe: ; é\r\nldi größ\r\njmp $\r\n"
    let mistake : Diagnostic := ⟨.emptyLiteral, some ⟨4, 5, by decide⟩, some "jmp $", some 3⟩
    ReturnsEnded text.toList ∧ assemble text = .error [mistake] ∧
      assembleFile (Utf8.encode text) = .ok (.error [mistake]) := by
  intro text mistake
  have ended : ReturnsEnded text.toList := by decide
  have failed : assemble text = .error [mistake] := by decide +kernel
  refine ⟨ended, failed, ?_⟩
  rw [files_assemble_as_their_text ended, failed]

end Octet
