/-
This file shows that a source is read line by line. A line feed between two
sources ends the last line of the first and begins the first line of the second.
So the lines of the joined source are the lines of the first, and behind them
those of the second at other places: their numbers have moved on by the number
of lines in front of them, and the bytes where they begin by the bytes that
these lines take.

What a line says does not depend on its place. Reading the joined source
therefore yields what reading the first yields, and behind it what reading the
second yields, at the places of the lines. This holds whether or not something
is wrong with a line, and so a bad line leaves all others as they are.
-/

import Mathlib.Data.List.Nodup
import Mathlib.Data.List.Perm.Subperm
import Octet.Assembly.Program
import Octet.Proofs.Utf8

namespace Octet

/-! ### Places behind other lines -/

/-- The line as it stands behind some other lines that take some bytes. -/
def PhysicalLine.behind (lines bytes : Nat) (line : PhysicalLine) : PhysicalLine :=
  ⟨line.number + lines, line.offset + bytes, line.text⟩

/-- The entry as it stands behind some lines that take some bytes. -/
def Entry.behind (lines bytes : Nat) (entry : Entry) : Entry :=
  ⟨entry.statement, entry.line.behind lines bytes⟩

/-- The mistake as it is reported behind some lines. Its span lies within its line. -/
def Diagnostic.behind (lines : Nat) (diagnostic : Diagnostic) : Diagnostic :=
  { diagnostic with lineNumber := diagnostic.lineNumber.map (· + (lines : Int)) }

/-- The number of lines of a source: one more than it has line feeds. -/
def lineCount (source : String) : Nat :=
  source.toList.count '\n' + 1

/-- The bytes that a source takes together with a line feed behind it. -/
def endedWidth (source : String) : Nat :=
  Utf8.width source.toList + 1

/-! ### The lines of joined sources -/

/-- The bytes that some pieces take, each with a line feed behind it. -/
def piecesWidth (pieces : List (List Char)) : Nat :=
  (pieces.map fun piece => Utf8.width piece + 1).sum

theorem numberPieces_append (number offset : Nat) (front back : List (List Char)) :
    numberPieces number offset (front ++ back) =
      numberPieces number offset front ++
        numberPieces (number + front.length) (offset + piecesWidth front) back := by
  induction front generalizing number offset with
  | nil => rfl
  | cons piece rest inductionHypothesis =>
    have next : number + 1 + rest.length = number + (piece :: rest).length := by
      rw [List.length_cons]
      omega
    have further : offset + Utf8.width piece + 1 + piecesWidth rest =
        offset + piecesWidth (piece :: rest) := by
      simp only [piecesWidth, List.map_cons, List.sum_cons]
      omega
    rw [List.cons_append, numberPieces, numberPieces, inductionHypothesis, next, further,
      List.cons_append]

/-- Numbering may begin anywhere: the lines are the same, at other places. -/
theorem numberPieces_behind (lines bytes number offset : Nat) (pieces : List (List Char)) :
    numberPieces (number + lines) (offset + bytes) pieces =
      (numberPieces number offset pieces).map (PhysicalLine.behind lines bytes) := by
  induction pieces generalizing number offset with
  | nil => rfl
  | cons piece rest inductionHypothesis =>
    have place : offset + bytes + Utf8.width piece + 1 = offset + Utf8.width piece + 1 + bytes := by
      omega
    rw [numberPieces, numberPieces, List.map_cons, Nat.add_right_comm number lines 1, place,
      inductionHypothesis]
    rfl

/-- There is a piece in front of each line feed, and one behind the last. -/
theorem length_splitOn (text : List Char) : (text.splitOn '\n').length = text.count '\n' + 1 := by
  induction text with
  | nil => rfl
  | cons c rest inductionHypothesis =>
    rw [List.splitOn_cons_eq_if_modifyHead, List.count_cons]
    split
    · rw [List.length_cons, inductionHypothesis]
    · rw [List.length_modifyHead, inductionHypothesis, Nat.add_zero]

/-- Together with the line feeds the pieces take as many bytes as the text with one line feed
more. -/
theorem piecesWidth_splitOn (text : List Char) :
    piecesWidth (text.splitOn '\n') = Utf8.width text + 1 := by
  induction text with
  | nil => rfl
  | cons c rest inductionHypothesis =>
    rw [List.splitOn_cons_eq_if_modifyHead, Utf8.width]
    by_cases feed : c = '\n'
    · subst feed
      have single : ('\n' : Char).utf8Size = 1 := rfl
      simp only [piecesWidth] at inductionHypothesis
      simp only [beq_self_eq_true, if_true, piecesWidth, List.map_cons, List.sum_cons,
        inductionHypothesis, Utf8.width, single]
      omega
    · have other : ¬(c == '\n') = true := by simpa using feed
      rw [if_neg other]
      cases pieces : rest.splitOn '\n' with
      | nil => exact absurd pieces (List.splitOn_ne_nil _ _)
      | cons piece others =>
        rw [pieces] at inductionHypothesis
        simp only [piecesWidth, List.map_cons, List.sum_cons] at inductionHypothesis
        simp only [List.modifyHead_cons, piecesWidth, List.map_cons, List.sum_cons, Utf8.width]
        omega

/-- The lines of two sources with a line feed between them are the lines of the first, and behind
them those of the second. -/
theorem physicalLines_join (first second : String) :
    physicalLines (first ++ "\n" ++ second) =
      physicalLines first ++
        (physicalLines second).map (.behind (lineCount first) (endedWidth first)) := by
  have parts : (first ++ "\n" ++ second).toList.splitOn '\n' =
      first.toList.splitOn '\n' ++ second.toList.splitOn '\n' := by
    rw [String.toList_append, String.toList_append, List.append_assoc]
    exact List.splitOn_append_cons_self _ _
  rw [physicalLines, parts, numberPieces_append, length_splitOn, piecesWidth_splitOn,
    numberPieces_behind]
  rfl

/-- The lines of a source are numbered one after the other. -/
theorem map_number_numberPieces (number offset : Nat) (pieces : List (List Char)) :
    (numberPieces number offset pieces).map PhysicalLine.number =
      (List.range' number pieces.length).map Int.ofNat := by
  induction pieces generalizing number offset with
  | nil => rfl
  | cons piece rest inductionHypothesis =>
    rw [numberPieces, List.map_cons, inductionHypothesis, List.length_cons, List.range'_succ,
      List.map_cons]
    rfl

theorem nodup_numbers (source : String) :
    ((physicalLines source).map PhysicalLine.number).Nodup := by
  rw [physicalLines, map_number_numberPieces]
  exact List.Nodup.map (fun _ _ same => Int.ofNat.inj same) List.nodup_range'

/-! ### What lines yield -/

/-- What a line yields at another place is what it yields where it is, at that place. -/
theorem Entry.ofLine_behind (lines bytes : Nat) (line : PhysicalLine) :
    Entry.ofLine (line.behind lines bytes) =
      ((Entry.ofLine line).map (Option.map (Entry.behind lines bytes))).mapError
        (Diagnostic.behind lines) := by
  have text : (line.behind lines bytes).text = line.text := rfl
  unfold Entry.ofLine
  rw [text]
  cases Statement.ofLine line.text with
  | error diagnostic => rfl
  | ok statement => cases statement <;> rfl

/-- The entry that a line yields, if it yields one. -/
def entryOf? (outcome : Except Diagnostic (Option Entry)) : Option Entry :=
  outcome.toOption.join

/-- The mistake that a line yields, if it yields one. -/
def mistakeOf? : Except Diagnostic (Option Entry) → Option Diagnostic
  | .ok _ => none
  | .error diagnostic => some diagnostic

theorem survey_eq (source : String) :
    Program.survey source =
      ((physicalLines source).filterMap (entryOf? ∘ Entry.ofLine),
        (physicalLines source).filterMap (mistakeOf? ∘ Entry.ofLine)) := by
  rw [← List.filterMap_map, ← List.filterMap_map]
  refine Prod.ext rfl (congrArg (fun select => List.filterMap select _) (funext fun outcome => ?_))
  cases outcome <;> rfl

/-- What the lines of joined sources yield is what those of the first yield, and behind it what
those of the second yield. -/
theorem survey_join (first second : String) :
    Program.survey (first ++ "\n" ++ second) =
      ((Program.survey first).1 ++
          (Program.survey second).1.map (.behind (lineCount first) (endedWidth first)),
        (Program.survey first).2 ++
          (Program.survey second).2.map (.behind (lineCount first))) := by
  have entries : ∀ lines bytes : Nat,
      (entryOf? ∘ Entry.ofLine) ∘ PhysicalLine.behind lines bytes =
        fun line => ((entryOf? ∘ Entry.ofLine) line).map (Entry.behind lines bytes) := by
    intro lines bytes
    funext line
    simp only [Function.comp, Entry.ofLine_behind]
    cases Entry.ofLine line with
    | error diagnostic => rfl
    | ok entry => cases entry <;> rfl
  have mistakes : ∀ lines bytes : Nat,
      (mistakeOf? ∘ Entry.ofLine) ∘ PhysicalLine.behind lines bytes =
        fun line => ((mistakeOf? ∘ Entry.ofLine) line).map (Diagnostic.behind lines) := by
    intro lines bytes
    funext line
    simp only [Function.comp, Entry.ofLine_behind]
    cases Entry.ofLine line <;> rfl
  simp only [survey_eq, physicalLines_join, List.filterMap_append, List.filterMap_map, entries,
    mistakes, List.map_filterMap]

/-- The numbers of the lines that yield something. -/
def Program.yieldedNumbers (yielded : Program × List Diagnostic) : List (Option Int) :=
  (yielded.1.map fun entry => some entry.line.number) ++ yielded.2.map Diagnostic.lineNumber

/-- Each line yields one thing at most. -/
theorem yieldedNumbers_subperm (lines : List PhysicalLine) :
    List.Subperm
      (Program.yieldedNumbers (lines.filterMap (entryOf? ∘ Entry.ofLine),
        lines.filterMap (mistakeOf? ∘ Entry.ofLine)))
      (lines.map fun line => some line.number) := by
  induction lines with
  | nil => exact List.Subperm.refl _
  | cons line rest inductionHypothesis =>
    simp only [Program.yieldedNumbers, List.filterMap_cons, List.map_cons, Function.comp,
      Entry.ofLine] at inductionHypothesis ⊢
    cases Statement.ofLine line.text with
    | error diagnostic =>
      exact List.perm_middle.subperm.trans ((List.subperm_cons _).mpr inductionHypothesis)
    | ok statement =>
      cases statement with
      | none => exact inductionHypothesis.trans (List.sublist_cons_self _ _).subperm
      | some statement => exact (List.subperm_cons _).mpr inductionHypothesis

theorem nodup_yieldedNumbers (source : String) :
    (Program.yieldedNumbers (Program.survey source)).Nodup := by
  have numbers : ((physicalLines source).map fun line => some line.number).Nodup := by
    have numbered := (nodup_numbers source).map (Option.some_injective _)
    rwa [List.map_map] at numbered
  obtain ⟨listed, same, within⟩ := yieldedNumbers_subperm (physicalLines source)
  rw [survey_eq]
  exact same.nodup_iff.mp (within.nodup numbers)

/-- A source without a line feed yields one thing at most. -/
theorem survey_single {line : String} (single : '\n' ∉ line.toList) :
    (Program.survey line).1.length + (Program.survey line).2.length ≤ 1 := by
  have lines : (physicalLines line).length = 1 := by
    rw [physicalLines, List.splitOn_eq_singleton single]
    rfl
  have yielded := (yieldedNumbers_subperm (physicalLines line)).length_le
  rw [← survey_eq, List.length_map, lines] at yielded
  simpa [Program.yieldedNumbers] using yielded

/-! ### Reading joined sources -/

/-- What is wrong with the lines of a source: nothing, if it can be read. -/
def Program.misreadings (source : String) : List Diagnostic :=
  match Program.ofSource source with
  | .ok _ => []
  | .error diagnostics => diagnostics

theorem Program.ofSource_eq (source : String) :
    Program.ofSource source =
      if (Program.survey source).2 = [] then .ok (Program.survey source).1
      else .error (Program.survey source).2 := by
  unfold Program.ofSource
  cases Program.survey source with
  | mk program diagnostics => cases diagnostics <;> rfl

theorem Program.misreadings_eq (source : String) :
    Program.misreadings source = (Program.survey source).2 := by
  rw [Program.misreadings, Program.ofSource_eq]
  by_cases clean : (Program.survey source).2 = []
  · rw [if_pos clean, clean]
  · rw [if_neg clean]

theorem Program.ofSource_error_iff (source : String) :
    (∃ diagnostics, Program.ofSource source = .error diagnostics) ↔
      Program.misreadings source ≠ [] := by
  rw [Program.misreadings_eq, Program.ofSource_eq]
  by_cases clean : (Program.survey source).2 = [] <;> simp [clean]

/-- If a source can be read, its program is what its lines yield, and nothing is wrong with them. -/
theorem Program.survey_of_ofSource {source : String} {program : Program}
    (parsed : Program.ofSource source = .ok program) : Program.survey source = (program, []) := by
  rw [Program.ofSource_eq] at parsed
  by_cases clean : (Program.survey source).2 = []
  · rw [if_pos clean] at parsed
    exact Prod.ext (Except.ok.inj parsed) clean
  · rw [if_neg clean] at parsed
    cases parsed

/-- Two programs that can be read are read one behind the other. -/
theorem Program.ofSource_join {first second : String} {before after : Program}
    (parsedFirst : Program.ofSource first = .ok before)
    (parsedSecond : Program.ofSource second = .ok after) :
    Program.ofSource (first ++ "\n" ++ second) =
      .ok (before ++ after.map (.behind (lineCount first) (endedWidth first))) := by
  rw [Program.ofSource_eq, survey_join, Program.survey_of_ofSource parsedFirst,
    Program.survey_of_ofSource parsedSecond]
  rfl

theorem Program.misreadings_join (first second : String) :
    Program.misreadings (first ++ "\n" ++ second) =
      Program.misreadings first ++
        (Program.misreadings second).map (.behind (lineCount first)) := by
  simp only [Program.misreadings_eq, survey_join]

theorem lineCount_join (first second : String) :
    lineCount (first ++ "\n" ++ second) = lineCount first + lineCount second := by
  simp only [lineCount, String.toList_append, List.count_append]
  have once : "\n".toList.count '\n' = 1 := rfl
  omega

theorem endedWidth_join (first second : String) :
    endedWidth (first ++ "\n" ++ second) = endedWidth first + endedWidth second := by
  have once : Utf8.width "\n".toList = 1 := rfl
  simp only [endedWidth, String.toList_append, Utf8.width_append]
  omega

/-- A line between two sources yields one thing at most, and whatever that is, the sources yield
what they do without it. -/
theorem survey_between {line : String} (single : '\n' ∉ line.toList) (first second : String) :
    (Program.survey line).1.length + (Program.survey line).2.length ≤ 1 ∧
      Program.survey (first ++ "\n" ++ line ++ "\n" ++ second) =
        ((Program.survey first).1 ++
            (Program.survey line).1.map (.behind (lineCount first) (endedWidth first)) ++
            (Program.survey second).1.map
              (.behind (lineCount first + 1) (endedWidth first + endedWidth line)),
          (Program.survey first).2 ++
            (Program.survey line).2.map (.behind (lineCount first)) ++
            (Program.survey second).2.map (.behind (lineCount first + 1))) := by
  refine ⟨survey_single single, ?_⟩
  have alone : lineCount line = 1 := by rw [lineCount, List.count_eq_zero.mpr single]
  simp only [survey_join, lineCount_join, endedWidth_join, alone]

/-! ### Sources are read line by line -/

/-- Joined sources are read apart. What is wrong with the joined source is what is wrong with the
first and behind it what is wrong with the second, and if nothing is, the entries are those of the
first and behind them those of the second, at the places of the lines. No line yields more than one
thing, and a line between two sources does not change what these yield. -/
theorem joined_sources_are_read_apart (first second : String) :
    Program.misreadings (first ++ "\n" ++ second) =
        Program.misreadings first ++
          (Program.misreadings second).map (.behind (lineCount first)) ∧
      ((∃ diagnostics, Program.ofSource (first ++ "\n" ++ second) = .error diagnostics) ↔
        Program.misreadings first ≠ [] ∨ Program.misreadings second ≠ []) ∧
      (∀ before after, Program.ofSource first = .ok before → Program.ofSource second = .ok after →
        Program.ofSource (first ++ "\n" ++ second) =
          .ok (before ++ after.map (.behind (lineCount first) (endedWidth first)))) ∧
      (∀ (lines bytes : Nat) (entry : Entry),
        (entry.behind lines bytes).line.span.lo = entry.line.span.lo + bytes ∧
          (entry.behind lines bytes).line.span.hi = entry.line.span.hi + bytes) ∧
      (∀ source, (Program.yieldedNumbers (Program.survey source)).Nodup) ∧
      ∀ line : String, '\n' ∉ line.toList →
        (Program.survey line).1.length + (Program.survey line).2.length ≤ 1 ∧
          Program.survey (first ++ "\n" ++ line ++ "\n" ++ second) =
            ((Program.survey first).1 ++
                (Program.survey line).1.map (.behind (lineCount first) (endedWidth first)) ++
                (Program.survey second).1.map
                  (.behind (lineCount first + 1) (endedWidth first + endedWidth line)),
              (Program.survey first).2 ++
                (Program.survey line).2.map (.behind (lineCount first)) ++
                (Program.survey second).2.map (.behind (lineCount first + 1))) := by
  refine ⟨Program.misreadings_join first second, ?_, fun _ _ => Program.ofSource_join,
    fun _ _ entry => ⟨rfl, Nat.add_right_comm _ _ _⟩, nodup_yieldedNumbers,
    fun line single => survey_between single first second⟩
  rw [Program.ofSource_error_iff, Program.misreadings_join, Ne, List.append_eq_nil_iff,
    List.map_eq_nil_iff, not_and_or]

/-- A line in front that ends with a comment and a carriage return moves nothing of a mistake but
its line. -/
theorem joined_mistake_moves_on :
    let mistake : Diagnostic := ⟨.emptyLiteral, some ⟨5, 6, by decide⟩, some "stop $", some 0⟩
    Program.misreadings "stop $" = [mistake] ∧
      Program.misreadings ("nop ; é\r" ++ "\n" ++ "stop $") = [mistake.behind 1] := by
  intro mistake
  have apart : (Program.misreadings "nop ; é\r", Program.misreadings "stop $") =
      ([], [mistake]) := by decide +kernel
  obtain ⟨clean, alone⟩ := Prod.mk.inj apart
  obtain ⟨both, -⟩ := joined_sources_are_read_apart "nop ; é\r" "stop $"
  refine ⟨alone, ?_⟩
  rw [both, clean, alone]
  rfl

end Octet
