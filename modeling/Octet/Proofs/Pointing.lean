/-
This file shows where the reader of a line points when it refuses one. It points
at the token that it complains about, or, where a token is missing, at the byte
behind the last token of the line.

While it reads, what is left of the line is always its end, and behind it lies
the token that was taken last. So if nothing is left, that token is the last of
the line. Each function of the reader keeps this up, and each of its complaints
is either about the first token that is left, about one that was taken before,
or about the end.
-/

import Octet.Assembly.Grammar

namespace Octet

/-! ### What a mistake is about -/

/-- The token that a mistake is about, if it is about one. -/
def Cause.token? : Cause → Option Token
  | unexpectedAtStart found | unexpectedToken found _ | trailingToken found _ => some found
  | unknownDirective name | unknownInstruction name => some (.identifier name)
  | bracketsNotAllowed _ _ => some .bracketOpen
  | _ => none

/-- Where a mistake among some tokens is: at the token that it is about, or behind the last one if
the line ends too early. -/
inductive Diagnostic.PointsAt (tokens : List (Located Token)) : Diagnostic → Prop
  | token {token : Located Token} {cause : Cause} (member : token ∈ tokens)
      (about : cause.token? = some token.value) : PointsAt tokens (.atSpan token.span cause)
  | ending {last : Located Token} {expected : Expected} (final : tokens.getLast? = some last) :
      PointsAt tokens (.atSpan (.behind last.span.hi) (.unexpectedEnd expected))

/-- A mistake at such a place is that the line cannot be read. -/
theorem Diagnostic.PointsAt.kind {tokens : List (Located Token)} {diagnostic : Diagnostic}
    (points : diagnostic.PointsAt tokens) : diagnostic.cause.kind = .unreadable := by
  cases points with
  | @token _ cause _ about => cases cause <;> first | rfl | cases about
  | ending => rfl

/-- What is left is the end of the line, behind a token of it. -/
def Cursor.Within (tokens : List (Located Token)) (cursor : Cursor) : Prop :=
  ∃ taken last, tokens = taken ++ last :: cursor.tokens ∧ cursor.past = last.span.hi

namespace Cursor.Within

variable {tokens rest : List (Located Token)} {cursor : Cursor}

theorem first (token : Located Token) (rest : List (Located Token)) :
    Within (token :: rest) ⟨token.span.hi, rest⟩ :=
  ⟨[], token, rfl, rfl⟩

/-- The next token can be taken. -/
theorem next {token : Located Token} (within : cursor.Within tokens)
    (front : cursor.tokens = token :: rest) : Within tokens ⟨token.span.hi, rest⟩ := by
  obtain ⟨taken, last, parts, -⟩ := within
  refine ⟨taken ++ [last], token, ?_, rfl⟩
  rw [parts, front, List.append_assoc]
  rfl

theorem mem {token : Located Token} (within : cursor.Within tokens)
    (front : cursor.tokens = token :: rest) : token ∈ tokens := by
  obtain ⟨taken, last, parts, -⟩ := within
  rw [parts, front]
  simp

/-- If nothing is left, the token in front was the last one. -/
theorem ending (within : cursor.Within tokens) (nothing : cursor.tokens = [])
    (expected : Expected) :
    Diagnostic.PointsAt tokens (.atSpan (.behind cursor.past) (.unexpectedEnd expected)) := by
  obtain ⟨taken, last, parts, past⟩ := within
  rw [past]
  refine .ending ?_
  rw [parts, nothing, List.getLast?_concat]

end Cursor.Within

/-! ### The reader points into the line -/

/-- Reading some tokens gives a value for which something holds, or points at what is wrong. -/
def Points {Value : Type} (tokens : List (Located Token)) (holds : Value → Prop) :
    Except Diagnostic Value → Prop
  | .ok value => holds value
  | .error diagnostic => diagnostic.PointsAt tokens

namespace Points

variable {First Second : Type} {tokens : List (Located Token)} {holds : First → Prop}
  {further : Second → Prop}

theorem bind {outcome : Except Diagnostic First} {next : First → Except Diagnostic Second}
    (first : Points tokens holds outcome)
    (second : ∀ value, holds value → Points tokens further (next value)) :
    Points tokens further (outcome >>= next) := by
  cases outcome with
  | ok value => exact second value first
  | error diagnostic => exact first

theorem map {outcome : Except Diagnostic First} (select : First → Second)
    (first : Points tokens holds outcome) (second : ∀ value, holds value → further (select value)) :
    Points tokens further (select <$> outcome) := by
  cases outcome with
  | ok value => exact second value first
  | error diagnostic => exact first

/-- What is picked comes from a token of the line. -/
theorem expect {Picked : Type} {cursor : Cursor} (within : cursor.Within tokens)
    (select : Token → Option Picked) (expected : Expected) :
    Points tokens
      (fun taken : Located Picked × Cursor => taken.2.Within tokens ∧
        ∃ token, select token = some taken.1.value ∧ ⟨token, taken.1.span⟩ ∈ tokens)
      (cursor.expect select expected) := by
  unfold Cursor.expect
  split
  · rename_i nothing
    exact within.ending nothing expected
  · rename_i token rest front
    split
    · rename_i picked selected
      exact ⟨within.next front, token.value, selected, within.mem front⟩
    · exact .token (within.mem front) rfl

theorem finish {cursor : Cursor} (within : cursor.Within tokens) (afterLabel : Bool) :
    Points tokens (fun _ => True) (cursor.finish afterLabel) := by
  unfold Cursor.finish
  split
  · trivial
  · rename_i token rest front
    exact .token (within.mem front) rfl

theorem readArg {cursor : Cursor} (within : cursor.Within tokens) (opcode : Opcode)
    (operand : Operand) :
    Points tokens (fun taken => taken.2.Within tokens) (readArg opcode operand cursor) := by
  unfold Octet.readArg
  split
  · rename_i span rest front
    split
    · refine (expect (within.next front) _ _).bind fun (content, inside) picked => ?_
      exact (expect picked.1 _ _).bind fun (_, behind) closed => closed.1
    · exact .token (within.mem front) rfl
  · exact (expect within _ _).bind fun (content, behind) picked => picked.1

theorem readArgs {cursor : Cursor} (within : cursor.Within tokens) (opcode : Opcode)
    (operands : List Operand) :
    Points tokens (fun taken => taken.2.Within tokens) (readArgs opcode operands cursor) := by
  induction operands generalizing cursor with
  | nil => exact within
  | cons operand operands inductionHypothesis =>
    refine (readArg within opcode operand).bind fun (arg, behind) left => ?_
    exact (inductionHypothesis left).bind fun (_, afterwards) further => further

theorem readDotted {cursor : Cursor} (within : cursor.Within tokens) :
    Points tokens (fun _ => True) (readDotted cursor) := by
  refine (expect within _ _).bind fun (name, behind) ⟨left, token, named, member⟩ => ?_
  dsimp only at left named member ⊢
  split
  · rename_i span rest front
    exact (finish (left.next front) true).bind fun _ _ => trivial
  · split
    · refine (expect left _ _).bind fun (value, afterwards) picked => ?_
      exact (finish picked.1 false).bind fun _ _ => trivial
    · refine .token member ?_
      cases token with
      | identifier word =>
        obtain rfl := Option.some_inj.mp named
        rfl
      | _ => cases named

theorem readInstruction (word : String) (span : Span) (rest : List (Located Token)) :
    Points (⟨.identifier word, span⟩ :: rest) (fun _ => True) (readInstruction word span rest) := by
  unfold Octet.readInstruction
  split
  · have word : (⟨.identifier word, span⟩ : Located Token) ∈ ⟨.identifier word, span⟩ :: rest :=
      List.mem_cons_self
    exact .token word rfl
  · rename_i opcode found
    refine (readArgs (.first _ rest) opcode opcode.operands).bind fun (_, behind) left => ?_
    exact (finish left false).bind fun _ _ => trivial

/-- Whatever is wrong with the tokens of a line, it is reported where it is. -/
theorem ofTokens (tokens : List (Located Token)) :
    Points tokens (fun _ => True) (Statement.ofTokens tokens) := by
  unfold Statement.ofTokens
  split
  · trivial
  · exact (readDotted (.first _ _)).map _ fun _ _ => trivial
  · exact (readInstruction _ _ _).map _ fun _ _ => trivial
  · rename_i found span rest _ _
    have start : (⟨found, span⟩ : Located Token) ∈ ⟨found, span⟩ :: rest := List.mem_cons_self
    exact .token start rfl

end Points

end Octet
