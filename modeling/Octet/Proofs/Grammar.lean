/-
This file states the grammar of a line and shows that the reader follows it. A
line is empty, or it is a label, or a byte, or an instruction with what is
written for each of its operands. The grammar speaks of lists of tokens and of
what they are read as, and knows nothing of a place up to which reading has
got; the reader is shown to take from the front of what is left exactly what
the grammar allows there, one function after the other.

Whatever the grammar does not allow is refused, and what is reported then is
always that the line cannot be read.
-/

import Octet.Proofs.Lexing
import Octet.Proofs.Pointing

namespace Octet

/-! ### The grammar -/

/-- The tokens that can be written for an operand, with the argument that they make: a literal
or a name, which may stand in brackets if the operand is a memory cell. -/
inductive Arg.Written (operand : Operand) : List (Located Token) → Arg → Prop where
  | plain (content : Content) (span : Span) :
      Written operand [⟨content.token, span⟩] ⟨content, some span, false⟩
  | bracketed (content : Content) (opening span closing : Span) (cell : operand.meaning = .cell) :
      Written operand [⟨.bracketOpen, opening⟩, ⟨content.token, span⟩, ⟨.bracketClose, closing⟩]
        ⟨content, some span, true⟩

/-- The tokens that can be written for some operands, with the arguments that they make. -/
inductive Arg.AllWritten : List Operand → List (Located Token) → List Arg → Prop where
  | nil : AllWritten [] [] []
  | cons {operand : Operand} {operands : List Operand} {tokens rest : List (Located Token)}
      {arg : Arg} {args : List Arg} (first : Arg.Written operand tokens arg)
      (others : AllWritten operands rest args) :
      AllWritten (operand :: operands) (tokens ++ rest) (arg :: args)

/-- The tokens that can be written on a line, with the statement that they make. -/
inductive Statement.Written : List (Located Token) → Option Statement → Prop where
  | empty : Written [] none
  | label (name : String) (dot span colon : Span) :
      Written [⟨.dot, dot⟩, ⟨.identifier name, span⟩, ⟨.colon, colon⟩]
        (some (.label name (some span)))
  | byte (value : Int) (dot word span : Span) :
      Written [⟨.dot, dot⟩, ⟨.identifier "byte", word⟩, ⟨.literal value, span⟩]
        (some (.byte value))
  | instruction (held : Instruction) (word : Span) {tokens : List (Located Token)}
      (args : Arg.AllWritten held.opcode.operands tokens held.args) :
      Written (⟨.identifier held.opcode.mnemonic, word⟩ :: tokens) (some (.instruction held))

/-! ### What a reader takes and what it leaves -/

theorem bind_eq_ok_iff {Mistake First Second : Type} (outcome : Except Mistake First)
    (next : First → Except Mistake Second) (result : Second) :
    outcome >>= next = .ok result ↔ ∃ value, outcome = .ok value ∧ next value = .ok result := by
  cases outcome with
  | ok value => simp [bind, Except.bind]
  | error mistake => simp [bind, Except.bind]

theorem map_eq_ok_iff {Mistake First Second : Type} (outcome : Except Mistake First)
    (select : First → Second) (result : Second) :
    select <$> outcome = .ok result ↔ ∃ value, outcome = .ok value ∧ select value = result := by
  cases outcome with
  | ok value => simp [Functor.map, Except.map]
  | error mistake => simp [Functor.map, Except.map]

theorem Token.content?_eq_some_iff (token : Token) (content : Content) :
    token.content? = some content ↔ token = content.token := by
  cases token <;> cases content <;> simp [Token.content?, Content.token]

theorem Token.closing?_eq_some_iff (token : Token) (picked : Unit) :
    token.closing? = some picked ↔ token = .bracketClose := by
  cases token <;> simp [Token.closing?]

theorem Token.identifier?_eq_some_iff (token : Token) (name : String) :
    token.identifier? = some name ↔ token = .identifier name := by
  cases token <;> simp [Token.identifier?]

theorem Token.literal?_eq_some_iff (token : Token) (value : Int) :
    token.literal? = some value ↔ token = .literal value := by
  cases token <;> simp [Token.literal?]

theorem Content.token_ne_bracketOpen (content : Content) : content.token ≠ .bracketOpen := by
  cases content <;> exact Token.noConfusion

/-- Taking a token succeeds exactly if there is one and something can be picked from it. -/
theorem Cursor.expect_eq_ok_iff {Picked : Type} (cursor : Cursor) (select : Token → Option Picked)
    (expected : Expected) (taken : Located Picked × Cursor) :
    cursor.expect select expected = .ok taken ↔
      ∃ token, select token = some taken.1.value ∧ taken.2.past = taken.1.span.hi ∧
        cursor.tokens = ⟨token, taken.1.span⟩ :: taken.2.tokens := by
  obtain ⟨past, tokens⟩ := cursor
  obtain ⟨⟨value, span⟩, pastBehind, left⟩ := taken
  cases tokens with
  | nil => simp [Cursor.expect]
  | cons first rest =>
    obtain ⟨token, place⟩ := first
    simp only [Cursor.expect, List.cons.injEq, Located.mk.injEq]
    cases selected : select token with
    | none =>
      simp only [reduceCtorEq, false_iff]
      rintro ⟨other, found, _, ⟨rfl, _⟩, _⟩
      rw [selected] at found
      cases found
    | some held =>
      simp only [Except.ok.injEq, Prod.mk.injEq, Located.mk.injEq, Cursor.mk.injEq]
      constructor
      · rintro ⟨⟨rfl, rfl⟩, rfl, rfl⟩
        exact ⟨token, selected, rfl, ⟨rfl, rfl⟩, rfl⟩
      · rintro ⟨other, found, rfl, ⟨rfl, rfl⟩, rfl⟩
        rw [selected] at found
        exact ⟨⟨Option.some_inj.mp found, rfl⟩, rfl, rfl⟩

theorem Cursor.finish_eq_ok_iff (cursor : Cursor) (afterLabel : Bool) (done : Unit) :
    cursor.finish afterLabel = .ok done ↔ cursor.tokens = [] := by
  unfold Cursor.finish
  cases cursor.tokens <;> simp

section

variable (opcode : Opcode) (operand : Operand)

/-- An argument is read exactly where the tokens for one stand in front. -/
theorem readArg_eq_ok_iff (cursor : Cursor) (arg : Arg) (rest : List (Located Token)) :
    (∃ past, readArg opcode operand cursor = .ok (arg, ⟨past, rest⟩)) ↔
      ∃ tokens, Arg.Written operand tokens arg ∧ cursor.tokens = tokens ++ rest := by
  constructor
  · rintro ⟨past, read⟩
    unfold readArg at read
    split at read
    · rename_i opening left front
      by_cases cell : operand.meaning = .cell
      · simp only [if_pos cell, bind_eq_ok_iff, Cursor.expect_eq_ok_iff,
          Token.content?_eq_some_iff, Token.closing?_eq_some_iff] at read
        obtain ⟨⟨⟨content, span⟩, inside⟩, ⟨_, rfl, _, rfl⟩, ⟨⟨_, closing⟩, behind⟩,
          ⟨_, rfl, _, closed⟩, same⟩ := read
        obtain ⟨rfl, rfl⟩ := Prod.mk.inj (Except.ok.inj same)
        refine ⟨_, .bracketed content opening span closing cell, ?_⟩
        rw [front]
        exact congrArg (fun left => _ :: _ :: left) closed
      · rw [if_neg cell] at read
        cases read
    · simp only [bind_eq_ok_iff, Cursor.expect_eq_ok_iff, Token.content?_eq_some_iff] at read
      obtain ⟨⟨⟨content, span⟩, behind⟩, ⟨_, rfl, _, front⟩, same⟩ := read
      obtain ⟨rfl, rfl⟩ := Prod.mk.inj (Except.ok.inj same)
      exact ⟨_, .plain content span, front⟩
  · rintro ⟨tokens, written, front⟩
    unfold readArg
    cases written with
    | plain content span =>
      refine ⟨span.hi, ?_⟩
      split
      · rename_i opening left other
        rw [other] at front
        obtain ⟨opens, _⟩ := List.cons.inj front
        exact absurd (congrArg Located.value opens).symm content.token_ne_bracketOpen
      · simp only [bind_eq_ok_iff, Cursor.expect_eq_ok_iff, Token.content?_eq_some_iff]
        exact ⟨(⟨content, span⟩, ⟨span.hi, rest⟩), ⟨_, rfl, rfl, front⟩, rfl⟩
    | bracketed content opening span closing cell =>
      refine ⟨closing.hi, ?_⟩
      rw [front]
      simp only [List.cons_append, if_pos cell, bind_eq_ok_iff, Cursor.expect_eq_ok_iff,
        Token.content?_eq_some_iff, Token.closing?_eq_some_iff]
      exact ⟨(⟨content, span⟩, ⟨span.hi, ⟨.bracketClose, closing⟩ :: rest⟩), ⟨_, rfl, rfl, rfl⟩,
        (⟨(), closing⟩, ⟨closing.hi, rest⟩), ⟨_, rfl, rfl, rfl⟩, rfl⟩

/-- Arguments are read exactly where the tokens for one after the other stand in front. -/
theorem readArgs_eq_ok_iff (operands : List Operand) (cursor : Cursor) (args : List Arg)
    (rest : List (Located Token)) :
    (∃ complete past, readArgs opcode operands cursor = .ok (⟨args, complete⟩, ⟨past, rest⟩)) ↔
      ∃ tokens, Arg.AllWritten operands tokens args ∧ cursor.tokens = tokens ++ rest := by
  induction operands generalizing cursor args with
  | nil =>
    constructor
    · rintro ⟨complete, past, read⟩
      obtain ⟨none, rfl⟩ := Prod.mk.inj (Except.ok.inj read)
      obtain rfl := congrArg Subtype.val none
      exact ⟨[], .nil, rfl⟩
    · rintro ⟨tokens, written, front⟩
      cases written
      obtain ⟨past, tokens⟩ := cursor
      exact ⟨rfl, past, congrArg (fun left => Except.ok (_, Cursor.mk past left)) front⟩
  | cons operand operands inductionHypothesis =>
    constructor
    · rintro ⟨complete, past, read⟩
      simp only [readArgs, bind_eq_ok_iff] at read
      obtain ⟨⟨arg, behind⟩, first, ⟨⟨others, completeOthers⟩, afterwards⟩, further, same⟩ := read
      obtain ⟨whole, rfl⟩ := Prod.mk.inj (Except.ok.inj same)
      obtain rfl := congrArg Subtype.val whole
      obtain ⟨tokens, written, front⟩ :=
        (readArg_eq_ok_iff opcode operand cursor arg _).mp ⟨_, first⟩
      obtain ⟨left, allWritten, back⟩ :=
        (inductionHypothesis behind others).mp ⟨completeOthers, _, further⟩
      exact ⟨tokens ++ left, .cons written allWritten, by rw [front, back, List.append_assoc]⟩
    · rintro ⟨_, written, front⟩
      cases written with
      | @cons _ _ tokens left arg args first others =>
      rw [List.append_assoc] at front
      obtain ⟨between, read⟩ := (readArg_eq_ok_iff opcode operand cursor arg _).mpr
        ⟨tokens, first, front⟩
      obtain ⟨complete, past, further⟩ := (inductionHypothesis ⟨between, left ++ rest⟩ args).mpr
        ⟨left, others, rfl⟩
      refine ⟨congrArg (· + 1) complete, past, ?_⟩
      simp only [readArgs, bind_eq_ok_iff]
      exact ⟨_, read, _, further, rfl⟩

end

/-! ### A line is read exactly if it follows the grammar -/

/-- What follows a dot is read exactly if it makes a label or a byte. -/
theorem readDotted_eq_ok_iff (dot : Span) (rest : List (Located Token)) (statement : Statement) :
    readDotted ⟨dot.hi, rest⟩ = .ok statement ↔
      Statement.Written (⟨.dot, dot⟩ :: rest) (some statement) := by
  constructor
  · intro read
    simp only [readDotted, bind_eq_ok_iff, Cursor.expect_eq_ok_iff, Token.identifier?_eq_some_iff]
      at read
    obtain ⟨⟨⟨name, span⟩, behind⟩, ⟨_, rfl, _, rfl⟩, read⟩ := read
    split at read
    · rename_i colon left front
      simp only [bind_eq_ok_iff, Cursor.finish_eq_ok_iff] at read
      obtain ⟨_, rfl, same⟩ := read
      obtain rfl := Except.ok.inj same
      rw [front]
      exact .label name dot span colon
    · by_cases directive : name = "byte"
      · simp only [if_pos directive, bind_eq_ok_iff, Cursor.expect_eq_ok_iff,
          Token.literal?_eq_some_iff, Cursor.finish_eq_ok_iff] at read
        obtain ⟨⟨⟨value, place⟩, afterwards⟩, ⟨_, rfl, _, front⟩, _, nothing, same⟩ := read
        obtain rfl := Except.ok.inj same
        rw [front, nothing, directive]
        exact .byte value dot span place
      · rw [if_neg directive] at read
        cases read
  · intro written
    simp only [readDotted, bind_eq_ok_iff, Cursor.expect_eq_ok_iff, Token.identifier?_eq_some_iff]
    cases written with
    | label name _ span colon =>
      refine ⟨(⟨name, span⟩, ⟨span.hi, [⟨.colon, colon⟩]⟩), ⟨_, rfl, rfl, rfl⟩, ?_⟩
      simp only [bind_eq_ok_iff, Cursor.finish_eq_ok_iff]
      exact ⟨(), trivial, trivial⟩
    | byte value _ word span =>
      refine ⟨(⟨"byte", word⟩, ⟨word.hi, [⟨.literal value, span⟩]⟩), ⟨_, rfl, rfl, rfl⟩, ?_⟩
      simp only [if_pos, bind_eq_ok_iff, Cursor.expect_eq_ok_iff, Token.literal?_eq_some_iff,
        Cursor.finish_eq_ok_iff]
      exact ⟨(⟨value, span⟩, ⟨span.hi, []⟩), ⟨_, rfl, rfl, rfl⟩, (), rfl, rfl⟩

/-- What follows a word is read exactly if it makes an instruction. -/
theorem readInstruction_eq_ok_iff (word : String) (span : Span) (rest : List (Located Token))
    (statement : Statement) :
    readInstruction word span rest = .ok statement ↔
      Statement.Written (⟨.identifier word, span⟩ :: rest) (some statement) := by
  constructor
  · intro read
    unfold readInstruction at read
    split at read
    · cases read
    · rename_i opcode found
      simp only [bind_eq_ok_iff, Cursor.finish_eq_ok_iff] at read
      obtain ⟨⟨⟨args, complete⟩, past, left⟩, taken, _, nothing, same⟩ := read
      obtain rfl : left = [] := nothing
      obtain rfl := Except.ok.inj same
      obtain ⟨tokens, written, front⟩ :=
        (readArgs_eq_ok_iff opcode opcode.operands _ args []).mp ⟨complete, past, taken⟩
      obtain rfl : rest = tokens := front.trans (List.append_nil tokens)
      rw [← Opcode.mnemonic_of_ofMnemonic? found]
      exact .instruction ⟨opcode, args, complete⟩ span written
  · intro written
    cases written with
    | instruction held _ args =>
      obtain ⟨complete, past, taken⟩ :=
        (readArgs_eq_ok_iff held.opcode held.opcode.operands ⟨span.hi, rest⟩ held.args []).mpr
          ⟨rest, args, (List.append_nil rest).symm⟩
      rw [readInstruction, Opcode.ofMnemonic?_mnemonic]
      simp only [bind_eq_ok_iff, Cursor.finish_eq_ok_iff]
      exact ⟨_, taken, (), rfl, rfl⟩

/-- The tokens of a line are read exactly as the grammar says. -/
theorem Statement.ofTokens_eq_ok_iff (tokens : List (Located Token))
    (statement : Option Statement) :
    Statement.ofTokens tokens = .ok statement ↔ Statement.Written tokens statement := by
  unfold Statement.ofTokens
  split
  · constructor
    · rintro ⟨⟩
      exact .empty
    · rintro ⟨⟩
      rfl
  · rename_i dot rest
    simp only [map_eq_ok_iff, readDotted_eq_ok_iff]
    constructor
    · rintro ⟨read, written, rfl⟩
      exact written
    · intro written
      cases statement with
      | none => cases written
      | some read => exact ⟨read, written, rfl⟩
  · rename_i word span rest
    simp only [map_eq_ok_iff, readInstruction_eq_ok_iff]
    constructor
    · rintro ⟨read, written, rfl⟩
      exact written
    · intro written
      cases statement with
      | none => cases written
      | some read => exact ⟨read, written, rfl⟩
  · rename_i found span rest notDot notWord
    constructor
    · rintro ⟨⟩
    · intro written
      cases written with
      | label | byte => exact (notDot rfl).elim
      | instruction => exact (notWord _ rfl).elim

/-! ### What is refused is a line that cannot be read -/

/-- If something goes wrong, it is that the line cannot be read. -/
def Refuses {Value : Type} (outcome : Except Diagnostic Value) : Prop :=
  ∀ diagnostic, outcome = .error diagnostic → diagnostic.cause.kind = .unreadable

/-- Whatever is wrong with the tokens of a line, it is reported as a line that cannot be read. -/
theorem Refuses.ofTokens (tokens : List (Located Token)) :
    Refuses (Statement.ofTokens tokens) := by
  intro diagnostic outcome
  have points := Points.ofTokens tokens
  rw [outcome] at points
  exact points.kind

/-! ### The reader accepts the grammar -/

/-- The tokens of a line are read as a statement exactly if the grammar says so. If they follow
it in no way, they are refused as a line that cannot be read. -/
theorem line_reader_accepts_grammar (tokens : List (Located Token)) :
    (∀ statement, Statement.ofTokens tokens = .ok statement ↔
      Statement.Written tokens statement) ∧
      ((∃ statement, Statement.Written tokens statement) ∨
        ∃ diagnostic, Statement.ofTokens tokens = .error diagnostic ∧
          diagnostic.cause.kind = .unreadable) := by
  refine ⟨Statement.ofTokens_eq_ok_iff tokens, ?_⟩
  cases outcome : Statement.ofTokens tokens with
  | ok statement => exact Or.inl ⟨statement, (Statement.ofTokens_eq_ok_iff _ _).mp outcome⟩
  | error diagnostic =>
    exact Or.inr ⟨diagnostic, rfl, Refuses.ofTokens tokens diagnostic outcome⟩

end Octet
