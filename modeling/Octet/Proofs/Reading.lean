/-
This file shows that a statement that is spelled out is read as itself, and
that a source of such lines is read as the program of their statements. Where a
name or a literal stood is not part of what a statement says, so statements are
compared without their places. Their brackets are compared: a bracket is read
where a memory cell is meant, and the text of a statement keeps it.

A line may carry blanks in front and a comment behind. Both scan to nothing,
and so the statement of a line depends on the tokens of its text alone.
-/

import Octet.Assembly.Program
import Octet.Proofs.Grammar
import Octet.Proofs.Layout

namespace Octet

/-! ### Statements without places -/

/-- The argument without its place. -/
def Arg.unplaced (arg : Arg) : Arg :=
  { arg with span := none }

/-- The instruction without places. -/
def Instruction.unplaced (held : Instruction) : Instruction :=
  ⟨held.opcode, held.args.map Arg.unplaced, by rw [List.length_map]; exact held.complete⟩

/-- The statement without places. -/
def Statement.unplaced : Statement → Statement
  | .label name _ => .label name none
  | .byte value => .byte value
  | .instruction held => .instruction held.unplaced

@[simp]
theorem Statement.size_unplaced (statement : Statement) :
    statement.unplaced.size = statement.size := by
  cases statement <;> rfl

@[simp]
theorem Statement.defined?_unplaced (statement : Statement) :
    statement.unplaced.defined? = statement.defined? := by
  cases statement <;> rfl

/-- A program says some statements: it has these and no others, apart from their places. -/
def Program.Says (program : Program) (statements : List Statement) : Prop :=
  program.statements.map Statement.unplaced = statements.map Statement.unplaced

/-- Whether only memory cells stand in brackets. -/
def Statement.Bracketed : Statement → Prop
  | .instruction held => ∀ slot ∈ held.slots, slot.2.bracketed = true → slot.1.meaning = .cell
  | _ => True

/-! ### Tokens that spell a statement are those that can be written for it -/

section

variable {tokens : List (Located Token)}

/-- The tokens that spell an argument can be written for an operand that it suits. -/
theorem Arg.written_of_spelled (operand : Operand) (arg : Arg)
    (cell : arg.bracketed = true → operand.meaning = .cell)
    (spelled : tokens.map Located.value = arg.tokens) :
    ∃ read, Arg.Written operand tokens read ∧ read.unplaced = arg.unplaced := by
  obtain ⟨content, span, bracketed⟩ := arg
  cases bracketed with
  | true =>
    obtain ⟨⟨_, opening⟩, _, rfl, rfl, inside⟩ := List.map_eq_cons_iff.mp spelled
    obtain ⟨⟨_, place⟩, _, rfl, rfl, behind⟩ := List.map_eq_cons_iff.mp inside
    obtain ⟨⟨_, closing⟩, _, rfl, rfl, nothing⟩ := List.map_eq_cons_iff.mp behind
    rw [List.map_eq_nil_iff.mp nothing]
    exact ⟨_, .bracketed content opening place closing (cell rfl), rfl⟩
  | false =>
    obtain ⟨⟨_, place⟩, _, rfl, rfl, nothing⟩ := List.map_eq_cons_iff.mp spelled
    rw [List.map_eq_nil_iff.mp nothing]
    exact ⟨_, .plain content place, rfl⟩

/-- The tokens that spell some arguments can be written for operands that these suit. -/
theorem Arg.allWritten_of_spelled (operands : List Operand) (args : List Arg)
    (complete : args.length = operands.length)
    (cells : ∀ slot ∈ operands.zip args, slot.2.bracketed = true → slot.1.meaning = .cell)
    (spelled : tokens.map Located.value = args.flatMap Arg.tokens) :
    ∃ read, Arg.AllWritten operands tokens read ∧
      read.map Arg.unplaced = args.map Arg.unplaced := by
  induction operands generalizing args tokens with
  | nil =>
    obtain rfl := List.length_eq_zero_iff.mp complete
    rw [List.map_eq_nil_iff.mp spelled]
    exact ⟨[], .nil, rfl⟩
  | cons operand operands inductionHypothesis =>
    cases args with
    | nil => cases complete
    | cons arg args =>
      rw [List.zip_cons_cons, List.forall_mem_cons] at cells
      obtain ⟨front, back, rfl, spelledFront, spelledBack⟩ := List.map_eq_append_iff.mp spelled
      obtain ⟨first, written, same⟩ := arg.written_of_spelled operand cells.1 spelledFront
      obtain ⟨others, allWritten, sameOthers⟩ :=
        inductionHypothesis args (Nat.succ.inj complete) cells.2 spelledBack
      exact ⟨first :: others, .cons written allWritten,
        by rw [List.map_cons, List.map_cons, same, sameOthers]⟩

/-- The tokens that spell a statement can be written on a line for it. -/
theorem Statement.written_of_spelled (statement : Statement) (bracketed : statement.Bracketed)
    (spelled : tokens.map Located.value = statement.tokens) :
    ∃ read, Statement.Written tokens (some read) ∧ read.unplaced = statement.unplaced := by
  cases statement with
  | label name span =>
    obtain ⟨⟨_, dot⟩, _, rfl, rfl, named⟩ := List.map_eq_cons_iff.mp spelled
    obtain ⟨⟨_, place⟩, _, rfl, rfl, ended⟩ := List.map_eq_cons_iff.mp named
    obtain ⟨⟨_, colon⟩, _, rfl, rfl, nothing⟩ := List.map_eq_cons_iff.mp ended
    rw [List.map_eq_nil_iff.mp nothing]
    exact ⟨_, .label name dot place colon, rfl⟩
  | byte value =>
    obtain ⟨⟨_, dot⟩, _, rfl, rfl, named⟩ := List.map_eq_cons_iff.mp spelled
    obtain ⟨⟨_, word⟩, _, rfl, rfl, operand⟩ := List.map_eq_cons_iff.mp named
    obtain ⟨⟨_, place⟩, _, rfl, rfl, nothing⟩ := List.map_eq_cons_iff.mp operand
    rw [List.map_eq_nil_iff.mp nothing]
    exact ⟨_, .byte value dot word place, rfl⟩
  | instruction held =>
    obtain ⟨⟨_, word⟩, rest, rfl, rfl, operands⟩ := List.map_eq_cons_iff.mp spelled
    obtain ⟨args, written, same⟩ := Arg.allWritten_of_spelled held.opcode.operands held.args
      held.complete bracketed operands
    have complete : args.length = held.opcode.operands.length := by
      rw [← List.length_map Arg.unplaced, same, List.length_map, held.complete]
    refine ⟨_, .instruction ⟨held.opcode, args, complete⟩ word written, ?_⟩
    simp only [Statement.unplaced, Instruction.unplaced, same]

/-- The tokens that spell a statement are read as that statement. -/
theorem Statement.ofTokens_eq_ok (statement : Statement) (bracketed : statement.Bracketed)
    (spelled : tokens.map Located.value = statement.tokens) :
    ∃ read, Statement.ofTokens tokens = .ok (some read) ∧ read.unplaced = statement.unplaced := by
  obtain ⟨read, written, same⟩ := statement.written_of_spelled bracketed spelled
  exact ⟨read, (Statement.ofTokens_eq_ok_iff tokens _).mpr written, same⟩

/-- The tokens that can be written for an operand spell the argument, which suits the operand. -/
theorem Arg.Written.spelled {operand : Operand} {arg : Arg}
    (written : Arg.Written operand tokens arg) :
    tokens.map Located.value = arg.tokens ∧ (arg.bracketed = true → operand.meaning = .cell) := by
  cases written with
  | plain content span => exact ⟨rfl, fun bracketed => nomatch bracketed⟩
  | bracketed content opening span closing cell => exact ⟨rfl, fun _ => cell⟩

theorem Arg.AllWritten.spelled {operands : List Operand} {args : List Arg}
    (written : Arg.AllWritten operands tokens args) :
    tokens.map Located.value = args.flatMap Arg.tokens ∧
      ∀ slot ∈ operands.zip args, slot.2.bracketed = true → slot.1.meaning = .cell := by
  induction written with
  | nil => exact ⟨rfl, fun _ none => absurd none List.not_mem_nil⟩
  | cons first others inductionHypothesis =>
    obtain ⟨spelled, cell⟩ := first.spelled
    refine ⟨?_, List.forall_mem_cons.mpr ⟨cell, inductionHypothesis.2⟩⟩
    rw [List.map_append, spelled, inductionHypothesis.1, List.flatMap_cons]

/-- The tokens that can be written on a line spell the statement, and its brackets are where
they may be. -/
theorem Statement.Written.spelled {statement : Statement}
    (written : Statement.Written tokens (some statement)) :
    tokens.map Located.value = statement.tokens ∧ statement.Bracketed := by
  cases written with
  | label name dot span colon => exact ⟨rfl, trivial⟩
  | byte value dot word span => exact ⟨rfl, trivial⟩
  | instruction held word args => exact ⟨congrArg _ args.spelled.1, args.spelled.2⟩

end

/-! ### What is read could be spelled -/

/-- A statement that a line can say: its names and literals are proper, and only memory cells
stand in brackets. -/
structure Statement.Spellable (statement : Statement) : Prop where
  proper : ∀ token ∈ statement.tokens, token.Proper
  bracketed : statement.Bracketed

/-- The text of a statement scans to the tokens that spell it. -/
theorem Statement.Spellable.scans {statement : Statement} (spellable : statement.Spellable) :
    Scans statement.text.toList statement.tokens := by
  have scans := Scans.statement statement spellable.proper parted_nil Scans.nil
  rwa [List.append_nil, List.append_nil] at scans

theorem Statement.spellable_of_ofLine {line : String} {statement : Statement}
    (read : Statement.ofLine line = .ok (some statement)) : statement.Spellable := by
  obtain ⟨tokens, cut, made⟩ := (bind_eq_ok_iff _ _ _).mp read
  obtain ⟨spelled, bracketed⟩ := ((Statement.ofTokens_eq_ok_iff tokens _).mp made).spelled
  refine ⟨fun value member => ?_, bracketed⟩
  have scanned : scan 0 line.toList = .ok tokens := by
    rw [tokensOfLine] at cut
    cases found : scan 0 line.toList with
    | ok others =>
      rw [found] at cut
      exact cut
    | error diagnostic =>
      rw [found] at cut
      cases cut
  rw [← spelled] at member
  obtain ⟨token, listed, rfl⟩ := List.mem_map.mp member
  exact proper_of_scan 0 line.toList tokens scanned token listed

/-- Every statement of a source could be spelled. -/
theorem Program.spellable_of_ofSource {source : String} {program : Program}
    (parsed : Program.ofSource source = .ok program) :
    ∀ entry ∈ program, entry.statement.Spellable := by
  have entries : program = ((physicalLines source).map Entry.ofLine).filterMap
      fun outcome => outcome.toOption.join := by
    unfold Program.ofSource at parsed
    split at parsed
    · rename_i read surveyed
      obtain rfl := Except.ok.inj parsed
      exact (congrArg Prod.fst surveyed).symm
    · cases parsed
  intro entry member
  rw [entries] at member
  obtain ⟨outcome, listed, found⟩ := List.mem_filterMap.mp member
  obtain ⟨line, _, rfl⟩ := List.mem_map.mp listed
  unfold Entry.ofLine at found
  cases read : Statement.ofLine line.text with
  | error diagnostic =>
    rw [read] at found
    cases found
  | ok statement =>
    rw [read] at found
    obtain ⟨held, rfl, rfl⟩ := Option.map_eq_some_iff.mp found
    exact Statement.spellable_of_ofLine read

/-! ### Reading lines -/

/-- Pieces of a source spell some statements: each piece spells the next one, or nothing but
blanks and a comment. -/
inductive Spells : List (List Char) → List Statement → Prop where
  | nil : Spells [] []
  | idle {piece : List Char} {pieces : List (List Char)} {statements : List Statement}
      (scans : Scans piece []) (rest : Spells pieces statements) :
      Spells (piece :: pieces) statements
  | line {piece : List Char} {pieces : List (List Char)} {statement : Statement}
      {statements : List Statement} (scans : Scans piece statement.tokens)
      (bracketed : statement.Bracketed) (rest : Spells pieces statements) :
      Spells (piece :: pieces) (statement :: statements)

theorem Spells.append {first second : List (List Char)} {front back : List Statement}
    (spellsFirst : Spells first front) (spellsSecond : Spells second back) :
    Spells (first ++ second) (front ++ back) := by
  induction spellsFirst with
  | nil => exact spellsSecond
  | idle scans _ inductionHypothesis => exact .idle scans inductionHypothesis
  | line scans bracketed _ inductionHypothesis => exact .line scans bracketed inductionHypothesis

/-- Lines that show some statements, one each, spell them. -/
theorem Spells.shown (statements : List Statement) (shows : Statement → String)
    (each : ∀ statement ∈ statements, statement.Bracketed ∧
      Scans (shows statement).toList statement.tokens) :
    Spells ((statements.map shows).map String.toList) statements := by
  induction statements with
  | nil => exact .nil
  | cons statement rest inductionHypothesis =>
    rw [List.forall_mem_cons] at each
    exact .line each.1.2 each.1.1 (inductionHypothesis each.2)

/-- Whether or not a carriage return belongs to a line, its tokens are the same. -/
theorem Scans.tokensOfLine {piece : List Char} {values : List Token} (scans : Scans piece values) :
    ∃ tokens, tokensOfLine (String.ofList (dropReturn piece)) = .ok tokens ∧
      tokens.map Located.value = values := by
  obtain ⟨tokens, scanned, same⟩ := scans 0
  refine ⟨tokens, ?_, same⟩
  rw [Octet.tokensOfLine, String.toList_ofList, scan_dropReturn, scanned]
  rfl

/-- Pieces that spell some statements are read as entries with these statements. -/
theorem Spells.entries {pieces : List (List Char)} {statements : List Statement}
    (spells : Spells pieces statements) (number offset : Nat) :
    ∃ entries : List (Option Entry),
      (numberPieces number offset pieces).map Entry.ofLine = entries.map Except.ok ∧
        Program.Says (entries.filterMap id) statements := by
  induction spells generalizing number offset with
  | nil => exact ⟨[], rfl, rfl⟩
  | @idle piece pieces statements scans rest inductionHypothesis =>
    obtain ⟨entries, outcomes, same⟩ :=
      inductionHypothesis (number + 1) (offset + Utf8.width piece + 1)
    obtain ⟨tokens, cut, none⟩ := scans.tokensOfLine
    refine ⟨Option.none :: entries, ?_, same⟩
    rw [numberPieces, List.map_cons, List.map_cons, ← outcomes, Entry.ofLine, Statement.ofLine, cut,
      List.map_eq_nil_iff.mp none]
    rfl
  | @line piece pieces statement statements scans bracketed rest inductionHypothesis =>
    obtain ⟨entries, outcomes, same⟩ :=
      inductionHypothesis (number + 1) (offset + Utf8.width piece + 1)
    obtain ⟨tokens, cut, spelled⟩ := scans.tokensOfLine
    obtain ⟨read, made, alike⟩ := statement.ofTokens_eq_ok bracketed spelled
    have held : Statement.ofLine (String.ofList (dropReturn piece)) = .ok (some read) := by
      rw [Statement.ofLine, cut]
      exact made
    refine ⟨some ⟨read, number, offset, String.ofList (dropReturn piece)⟩ :: entries, ?_, ?_⟩
    · rw [numberPieces, List.map_cons, List.map_cons, ← outcomes, Entry.ofLine, held]
      rfl
    · show read.unplaced :: _ = statement.unplaced :: _
      rw [alike]
      exact congrArg _ same

/-- A source whose pieces spell some statements is read as the program of these statements. -/
theorem Program.ofSource_eq_ok (source : String) {statements : List Statement}
    (spells : Spells (source.toList.splitOn '\n') statements) :
    ∃ program, Program.ofSource source = .ok program ∧ program.Says statements := by
  obtain ⟨entries, outcomes, same⟩ := spells.entries 0 0
  refine ⟨entries.filterMap id, ?_, same⟩
  have surveyed : Program.survey source = (entries.filterMap id, []) := by
    rw [Program.survey, physicalLines, outcomes, List.filterMap_map, List.filterMap_map]
    refine Prod.ext ?_ ?_
    · exact congrArg (fun select => entries.filterMap select) (funext fun entry => by
        cases entry <;> rfl)
    · exact List.filterMap_eq_nil_iff.mpr fun entry _ => rfl
  rw [Program.ofSource, surveyed]

/-- Lines with line feeds between them fall apart into these lines again. -/
theorem splitOn_intercalate (lines : List String) (filled : lines ≠ [])
    (whole : ∀ line ∈ lines, '\n' ∉ line.toList) :
    ("\n".intercalate lines).toList.splitOn '\n' = lines.map String.toList := by
  rw [String.toList_intercalate]
  refine List.splitOn_intercalate '\n' (fun piece member => ?_) (by simpa using filled)
  obtain ⟨line, listed, rfl⟩ := List.mem_map.mp member
  exact whole line listed

/-- A text of lines falls apart into these lines and an empty piece behind the last line feed. -/
theorem splitOn_lines (lines : List String) (filled : lines ≠ [])
    (whole : ∀ line ∈ lines, '\n' ∉ line.toList) :
    ("\n".intercalate lines ++ "\n").toList.splitOn '\n' = lines.map String.toList ++ [[]] := by
  have ended : "\n".intercalate lines ++ "\n" = "\n".intercalate (lines ++ [""]) := by
    rw [String.intercalate_append_of_ne_nil filled (List.cons_ne_nil _ _),
      String.intercalate_singleton, String.append_empty]
  have silent : ∀ line ∈ lines ++ [""], '\n' ∉ line.toList :=
    List.forall_mem_append.mpr ⟨whole, List.forall_mem_singleton.mpr List.not_mem_nil⟩
  rw [ended, splitOn_intercalate _ (by simp) silent, List.map_append]
  rfl

/-- A text of lines that spell some statements is read as the program of these statements. -/
theorem Program.ofSource_lines (lines : List String) {statements : List Statement}
    (whole : ∀ line ∈ lines, '\n' ∉ line.toList)
    (spells : Spells (lines.map String.toList) statements) :
    ∃ program, Program.ofSource ("\n".intercalate lines ++ "\n") = .ok program ∧
      program.Says statements := by
  refine Program.ofSource_eq_ok _ ?_
  by_cases empty : lines = []
  · subst empty
    cases spells
    exact .idle Scans.nil (.idle Scans.nil .nil)
  · rw [splitOn_lines lines empty whole, ← List.append_nil statements]
    exact spells.append (.idle Scans.nil .nil)

end Octet
