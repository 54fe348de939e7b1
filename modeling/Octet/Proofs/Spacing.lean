/-
This file shows that the layout of a source does not matter. Blanks, comments,
idle lines and the carriage returns of line ends are gone when its lines have
been cut into tokens. What is left of them are places: the spans of the tokens
and the numbers of the lines.

Reading compares no places. So two lines with the same tokens are read side by
side, and each function of the reader takes alike steps on both: both go on with
alike values, or both stop for the same cause. What a source says and what is
wrong with its lines is therefore told by the rows of its tokens alone.

Brackets are tokens, and a line may be refused for them. Where it is not, they
belong to the arguments of an instruction, and encoding does not look at them.
-/

import Octet.Proofs.Canonical
import Octet.Proofs.Essence
import Octet.Proofs.Joining

namespace Octet

/-! ### The tokens of a source -/

/-- The tokens of a line without their places, or the first mistake in it. -/
def tokensWithin (line : PhysicalLine) : Except Diagnostic (List Token) :=
  (tokensOfLine line.text).map (List.map Located.value)

/-- The tokens of each line that has some, without their places. There are none unless all lines
can be cut into tokens. -/
def tokenRows (source : String) : Except Diagnostic (List (List Token)) :=
  ((physicalLines source).mapM tokensWithin).map (List.filter (· ≠ []))

/-- Whether a token opens or closes a bracket. -/
def Token.isBracket : Token → Bool
  | bracketOpen | bracketClose => true
  | _ => false

/-- The tokens that are no brackets. -/
def withoutBrackets (row : List Token) : List Token :=
  row.filter fun token => !token.isBracket

/-- Whatever was assembled before, two sources are assembled to the same code with the same labels
in the same order, or they fail with mistakes of the same kinds and in the same words. -/
def AssembleAlike (first second : String) : Prop :=
  ∀ session : Session,
    (session.assemble first).1.image.code = (session.assemble second).1.image.code ∧
      (session.assemble first).1.image.labels.bindings =
        (session.assemble second).1.image.labels.bindings ∧
      (session.assemble first).2.mapError (List.map Diagnostic.gist) =
        (session.assemble second).2.mapError (List.map Diagnostic.gist)

/-! ### Reading side by side -/

/-- Two readers take alike steps: both have alike values, or both complain for the same cause. -/
def StepAlike {Value : Type} (alike : Value → Value → Prop) :
    Except Diagnostic Value → Except Diagnostic Value → Prop
  | .ok first, .ok second => alike first second
  | .error first, .error second => first.cause = second.cause
  | _, _ => False

/-- The same tokens are left of two lines, apart from their places. -/
def Cursor.Alike (first second : Cursor) : Prop :=
  first.tokens.map Located.value = second.tokens.map Located.value

namespace StepAlike

variable {First Second : Type} {alike : First → First → Prop} {further : Second → Second → Prop}

theorem bind {one other : Except Diagnostic First} {next after : First → Except Diagnostic Second}
    (steps : StepAlike alike one other)
    (others : ∀ first second, alike first second → StepAlike further (next first) (after second)) :
    StepAlike further (one >>= next) (other >>= after) := by
  cases one with
  | ok first =>
    cases other with
    | ok second => exact others first second steps
    | error diagnostic => exact steps.elim
  | error diagnostic =>
    cases other with
    | ok second => exact steps.elim
    | error another => exact steps

theorem map {one other : Except Diagnostic First} (select : First → Second)
    (steps : StepAlike alike one other)
    (others : ∀ first second, alike first second → further (select first) (select second)) :
    StepAlike further (select <$> one) (select <$> other) := by
  cases one with
  | ok first =>
    cases other with
    | ok second => exact others first second steps
    | error diagnostic => exact steps.elim
  | error diagnostic =>
    cases other with
    | ok second => exact steps.elim
    | error another => exact steps

variable {cursor other : Cursor}

theorem expect {Picked : Type} (same : cursor.Alike other) (select : Token → Option Picked)
    (expected : Expected) :
    StepAlike (fun one two => one.1.value = two.1.value ∧ one.2.Alike two.2)
      (cursor.expect select expected) (other.expect select expected) := by
  obtain ⟨past, tokens⟩ := cursor
  obtain ⟨behind, others⟩ := other
  cases tokens with
  | nil =>
    obtain rfl := List.map_eq_nil_iff.mp same.symm
    exact rfl
  | cons token rest =>
    obtain ⟨second, more, rfl, value, left⟩ := List.map_eq_cons_iff.mp same.symm
    simp only [Cursor.expect, value]
    cases select token.value with
    | none => exact rfl
    | some picked => exact ⟨rfl, left.symm⟩

theorem finish (same : cursor.Alike other) (afterLabel : Bool) :
    StepAlike (fun _ _ => True) (cursor.finish afterLabel) (other.finish afterLabel) := by
  obtain ⟨past, tokens⟩ := cursor
  obtain ⟨behind, others⟩ := other
  cases tokens with
  | nil =>
    obtain rfl := List.map_eq_nil_iff.mp same.symm
    exact trivial
  | cons token rest =>
    obtain ⟨second, more, rfl, value, left⟩ := List.map_eq_cons_iff.mp same.symm
    simp only [Cursor.finish, value]
    exact rfl

/-- Whether a token of a kind stands in front can be told from either line. -/
theorem front {token : Token} {span : Span} {rest : List (Located Token)}
    (same : cursor.Alike other) (first : cursor.tokens = ⟨token, span⟩ :: rest) :
    ∃ place more, other.tokens = ⟨token, place⟩ :: more ∧
      ∀ past behind, Cursor.Alike ⟨past, rest⟩ ⟨behind, more⟩ := by
  rw [Cursor.Alike, first] at same
  obtain ⟨⟨_, place⟩, more, second, rfl, left⟩ := List.map_eq_cons_iff.mp same.symm
  exact ⟨place, more, second, fun _ _ => left.symm⟩

theorem readArg (same : cursor.Alike other) (opcode : Opcode) (operand : Operand) :
    StepAlike (fun one two => one.1.unplaced = two.1.unplaced ∧ one.2.Alike two.2)
      (readArg opcode operand cursor) (readArg opcode operand other) := by
  unfold Octet.readArg
  split
  · rename_i span rest opens
    obtain ⟨place, more, opensOther, left⟩ := front same opens
    rw [opensOther]
    by_cases cell : operand.meaning = .cell
    · simp only [if_pos cell]
      refine (expect (left _ _) _ _).bind fun one two picked => ?_
      refine (expect picked.2 _ _).bind fun _ _ closed => ⟨?_, closed.2⟩
      simp only [Arg.unplaced, picked.1]
    · simp only [if_neg cell]
      exact rfl
  · rename_i plain
    split
    · rename_i place more opensOther
      obtain ⟨span, rest, opens, -⟩ := front same.symm opensOther
      exact absurd opens (plain span rest)
    · refine (expect same _ _).bind fun one two picked => ⟨?_, picked.2⟩
      simp only [Arg.unplaced, picked.1]

theorem readArgs (same : cursor.Alike other) (opcode : Opcode) (operands : List Operand) :
    StepAlike
      (fun one two => one.1.val.map Arg.unplaced = two.1.val.map Arg.unplaced ∧ one.2.Alike two.2)
      (readArgs opcode operands cursor) (readArgs opcode operands other) := by
  induction operands generalizing cursor other with
  | nil => exact ⟨rfl, same⟩
  | cons operand operands inductionHypothesis =>
    refine (readArg same opcode operand).bind fun one two first => ?_
    refine (inductionHypothesis first.2).bind fun _ _ others => ⟨?_, others.2⟩
    rw [List.map_cons, List.map_cons, first.1, others.1]

theorem readDotted (same : cursor.Alike other) :
    StepAlike (fun one two => one.unplaced = two.unplaced)
      (readDotted cursor) (readDotted other) := by
  refine (expect same _ _).bind fun (one, behind) (two, after) ⟨name, left⟩ => ?_
  dsimp only at name left ⊢
  split
  · rename_i span rest colon
    obtain ⟨place, more, colonOther, further⟩ := front left colon
    rw [colonOther]
    refine (finish (further _ _) true).bind fun _ _ _ => ?_
    exact congrArg (Statement.label · none) name
  · rename_i noColon
    have noColonOther : ∀ place more, after.tokens ≠ ⟨.colon, place⟩ :: more := by
      intro place more colonOther
      obtain ⟨span, rest, colon, -⟩ := front left.symm colonOther
      exact noColon span rest colon
    rw [name]
    by_cases directive : two.value = "byte"
    · simp only [if_pos directive]
      refine (expect left _ _).bind fun _ _ picked => ?_
      refine (finish picked.2 false).bind fun _ _ _ => ?_
      exact congrArg Statement.byte picked.1
    · simp only [if_neg directive]
      rfl

theorem readInstruction (word : String) {span place : Span} {rest more : List (Located Token)}
    (left : ∀ past behind, Cursor.Alike ⟨past, rest⟩ ⟨behind, more⟩) :
    StepAlike (fun one two => one.unplaced = two.unplaced)
      (readInstruction word span rest) (readInstruction word place more) := by
  unfold Octet.readInstruction
  cases Opcode.ofMnemonic? word with
  | none => exact rfl
  | some opcode =>
    refine (readArgs (left _ _) opcode opcode.operands).bind fun one two args => ?_
    refine (finish args.2 false).bind fun _ _ _ => ?_
    simp only [StepAlike, Statement.unplaced, Instruction.unplaced, args.1]

/-- The same tokens are read alike, wherever they stand. -/
theorem ofTokens {tokens others : List (Located Token)}
    (same : tokens.map Located.value = others.map Located.value) :
    StepAlike (fun one two => one.map Statement.unplaced = two.map Statement.unplaced)
      (Statement.ofTokens tokens) (Statement.ofTokens others) := by
  cases tokens with
  | nil =>
    obtain rfl := List.map_eq_nil_iff.mp same.symm
    exact rfl
  | cons token rest =>
    obtain ⟨⟨_, place⟩, more, rfl, rfl, left⟩ := List.map_eq_cons_iff.mp same.symm
    obtain ⟨value, span⟩ := token
    have behind : ∀ past behind, Cursor.Alike ⟨past, rest⟩ ⟨behind, more⟩ := fun _ _ => left.symm
    cases value with
    | dot => exact (readDotted (behind _ _)).map some fun _ _ alike => congrArg some alike
    | identifier word =>
      exact (readInstruction word behind).map some fun _ _ alike => congrArg some alike
    | _ => exact rfl

end StepAlike

/-! ### Reading rows of tokens -/

/-- What some tokens are read as, or what is wrong with them, apart from places. -/
def readRow (row : List Token) : Except (Kind × String) (Option Statement) :=
  let read := Statement.ofTokens (row.map (⟨·, Span.behind 0⟩))
  (read.map (Option.map Statement.unplaced)).mapError Diagnostic.gist

/-- The statement that a row of tokens makes, if it makes one. -/
def saidBy? (row : List Token) : Option Statement :=
  (readRow row).toOption.join

/-- What is wrong with a row of tokens, if something is. -/
def wrongWith? (row : List Token) : Option (Kind × String) :=
  match readRow row with
  | .ok _ => none
  | .error gist => some gist

theorem readRow_values (tokens : List (Located Token)) :
    readRow (tokens.map Located.value) =
      ((Statement.ofTokens tokens).map (Option.map Statement.unplaced)).mapError
        Diagnostic.gist := by
  have same : ((tokens.map Located.value).map (Located.mk · (Span.behind 0))).map Located.value =
      tokens.map Located.value := by
    rw [List.map_map]
    exact List.map_id _
  have alike := StepAlike.ofTokens same
  simp only [readRow]
  cases placed : Statement.ofTokens ((tokens.map Located.value).map (⟨·, Span.behind 0⟩)) with
  | ok one =>
    cases read : Statement.ofTokens tokens with
    | ok two =>
      rw [placed, read] at alike
      exact congrArg Except.ok alike
    | error diagnostic =>
      rw [placed, read] at alike
      exact alike.elim
  | error diagnostic =>
    cases read : Statement.ofTokens tokens with
    | ok two =>
      rw [placed, read] at alike
      exact alike.elim
    | error another =>
      rw [placed, read] at alike
      have cause : diagnostic.cause = another.cause := alike
      simp only [Except.map, Except.mapError, Diagnostic.gist, cause]

/-- What a line yields is told by the row of its tokens, apart from places. -/
theorem Entry.ofLine_of_tokensWithin {line : PhysicalLine} {row : List Token}
    (cut : tokensWithin line = .ok row) :
    (entryOf? (Entry.ofLine line)).map (fun entry => entry.statement.unplaced) = saidBy? row ∧
      (mistakeOf? (Entry.ofLine line)).map Diagnostic.gist = wrongWith? row := by
  obtain ⟨tokens, found, rfl⟩ := (map_eq_ok_iff _ _ _).mp cut
  have read : Statement.ofLine line.text = Statement.ofTokens tokens := by
    rw [Statement.ofLine, found]
    rfl
  simp only [saidBy?, wrongWith?, readRow_values, Entry.ofLine, read]
  cases Statement.ofTokens tokens with
  | error diagnostic => exact ⟨rfl, rfl⟩
  | ok statement => cases statement <;> exact ⟨rfl, rfl⟩

/-- What some lines yield is told by the rows of their tokens, apart from places. -/
theorem yielded_of_tokensWithin (lines : List PhysicalLine) {rows : List (List Token)}
    (cut : lines.mapM tokensWithin = .ok rows) :
    (lines.filterMap (entryOf? ∘ Entry.ofLine)).map (fun entry => entry.statement.unplaced) =
        rows.filterMap saidBy? ∧
      (lines.filterMap (mistakeOf? ∘ Entry.ofLine)).map Diagnostic.gist =
        rows.filterMap wrongWith? := by
  induction lines generalizing rows with
  | nil =>
    obtain rfl : rows = [] := (Except.ok.inj cut).symm
    exact ⟨rfl, rfl⟩
  | cons line rest inductionHypothesis =>
    rw [List.mapM_cons, bind_eq_ok_iff] at cut
    obtain ⟨row, first, cut⟩ := cut
    obtain ⟨others, left, same⟩ := (bind_eq_ok_iff _ _ _).mp cut
    obtain rfl : row :: others = rows := Except.ok.inj same
    obtain ⟨said, wrong⟩ := Entry.ofLine_of_tokensWithin first
    obtain ⟨saidOthers, wrongOthers⟩ := inductionHypothesis left
    rw [List.map_filterMap] at saidOthers wrongOthers ⊢
    rw [List.map_filterMap, List.filterMap_cons, List.filterMap_cons, List.filterMap_cons,
      List.filterMap_cons, ← saidOthers, ← wrongOthers, ← said, ← wrong]
    exact ⟨rfl, rfl⟩

/-- What a source yields is told by the rows of its tokens, apart from places. Idle lines yield
nothing. -/
theorem Program.survey_of_tokenRows {source : String} {rows : List (List Token)}
    (cut : tokenRows source = .ok rows) :
    (survey source).1.statements.map Statement.unplaced = rows.filterMap saidBy? ∧
      (survey source).2.map Diagnostic.gist = rows.filterMap wrongWith? := by
  obtain ⟨all, found, rfl⟩ := (map_eq_ok_iff _ _ _).mp cut
  obtain ⟨said, wrong⟩ := yielded_of_tokensWithin _ found
  have idle : ∀ {Yield : Type} (yield? : List Token → Option Yield), yield? [] = none →
      (all.filter (· ≠ [])).filterMap yield? = all.filterMap yield? := by
    intro Yield yield? nothing
    rw [List.filterMap_filter]
    refine List.filterMap_congr fun row _ => ?_
    by_cases empty : row = []
    · simp [empty, nothing]
    · simp [empty]
  rw [idle saidBy? rfl, idle wrongWith? rfl, ← said, ← wrong, survey_eq]
  exact ⟨List.map_map, rfl⟩

/-! ### Rows without brackets -/

section

variable {tokens : List (Located Token)}

/-- The located tokens that are no brackets. -/
def unbracketedTokens (tokens : List (Located Token)) : List (Located Token) :=
  tokens.filter fun token => !token.value.isBracket

/-- Without its brackets an argument can still be written for its operand. -/
theorem Arg.Written.unbracketed {operand : Operand} {arg : Arg}
    (written : Arg.Written operand tokens arg) :
    Arg.Written operand (unbracketedTokens tokens) arg.unbracketed := by
  cases written with
  | plain content span =>
    have kept : unbracketedTokens [⟨content.token, span⟩] = [⟨content.token, span⟩] := by
      cases content <;> rfl
    rw [kept]
    exact .plain content span
  | bracketed content opening span closing =>
    have kept : unbracketedTokens
        [⟨.bracketOpen, opening⟩, ⟨content.token, span⟩, ⟨.bracketClose, closing⟩] =
          [⟨content.token, span⟩] := by
      cases content <;> rfl
    rw [kept]
    exact .plain content span

theorem Arg.AllWritten.unbracketed {operands : List Operand} {args : List Arg}
    (written : Arg.AllWritten operands tokens args) :
    Arg.AllWritten operands (unbracketedTokens tokens) (args.map Arg.unbracketed) := by
  induction written with
  | nil => exact .nil
  | cons first others inductionHypothesis =>
    rw [unbracketedTokens, List.filter_append, List.map_cons]
    exact .cons first.unbracketed inductionHypothesis

/-- Without its brackets a line can still be written, for the statement without brackets. -/
theorem Statement.Written.unbracketed {statement : Option Statement}
    (written : Statement.Written tokens statement) :
    Statement.Written (unbracketedTokens tokens) (statement.map Statement.unbracketed) := by
  cases written with
  | empty => exact .empty
  | label name dot span colon => exact .label name dot span colon
  | byte value dot word span => exact .byte value dot word span
  | instruction held word args => exact .instruction held.unbracketed word args.unbracketed

end

theorem Statement.unbracketed_unplaced (statement : Statement) :
    statement.unbracketed.unplaced = statement.unplaced.unbracketed := by
  cases statement with
  | label name span => rfl
  | byte value => rfl
  | instruction held =>
    simp only [Statement.unbracketed, Statement.unplaced, Instruction.unbracketed,
      Instruction.unplaced, List.map_map]
    rfl

/-- A row that nothing is wrong with says the same without its brackets, but for the brackets. -/
theorem saidBy?_withoutBrackets {row : List Token} (right : wrongWith? row = none) :
    saidBy? (withoutBrackets row) = (saidBy? row).map Statement.unbracketed := by
  let tokens : List (Located Token) := row.map (⟨·, Span.behind 0⟩)
  have values : tokens.map Located.value = row := by
    rw [List.map_map]
    exact List.map_id _
  have kept : (unbracketedTokens tokens).map Located.value = withoutBrackets row := by
    rw [← values, withoutBrackets, List.filter_map]
    rfl
  rw [← kept]
  rw [← values] at right ⊢
  simp only [saidBy?, wrongWith?, readRow_values] at right ⊢
  cases read : Statement.ofTokens tokens with
  | error diagnostic =>
    rw [read] at right
    cases right
  | ok statement =>
    have written := ((Statement.ofTokens_eq_ok_iff _ _).mp read).unbracketed
    rw [(Statement.ofTokens_eq_ok_iff _ _).mpr written]
    cases statement with
    | none => rfl
    | some statement => exact congrArg some statement.unbracketed_unplaced

/-- Rows that nothing is wrong with say the same without their brackets, but for the brackets. -/
theorem filterMap_saidBy?_withoutBrackets {rows : List (List Token)}
    (right : rows.filterMap wrongWith? = []) :
    (rows.map withoutBrackets).filterMap saidBy? =
      (rows.filterMap saidBy?).map Statement.unbracketed := by
  rw [List.filterMap_map, List.map_filterMap]
  exact List.filterMap_congr fun row member =>
    saidBy?_withoutBrackets (List.filterMap_eq_nil_iff.mp right row member)

/-! ### Assembling side by side -/

/-- Sources that are read as the same statements, apart from places and brackets, are assembled
alike. -/
theorem AssembleAlike.of_parsed {first second : String} {program other : Program}
    (parsed : Program.ofSource first = .ok program)
    (parsedOther : Program.ofSource second = .ok other)
    (same : (program.statements.map Statement.unplaced).map Statement.unbracketed =
      (other.statements.map Statement.unplaced).map Statement.unbracketed) :
    AssembleAlike first second := by
  have said : ∀ program : Program, program.essence.statements.map Statement.unplaced =
      (program.statements.map Statement.unplaced).map Statement.unbracketed := by
    intro program
    rw [Program.essence, Program.statements, Program.statements]
    simp only [List.map_map]
    exact List.map_congr_left fun entry _ => entry.statement.unbracketed_unplaced
  have meaning : program.essence.Says other.essence.statements := by
    rw [Program.Says, said, said, same]
  intro session
  rw [session.assemble_of_parsed parsed, session.assemble_of_parsed parsedOther]
  have code := meaning.code_eq
  have labels := meaning.bindings
  have result := meaning.result_eq
  rw [Image.ofProgram_essence, Image.ofProgram_essence] at code
  rw [Image.ofProgram_essence, Image.ofProgram_essence, Image.result_detached,
    Image.result_detached] at result
  rw [Program.labels_essence, Program.labels_essence] at labels
  exact ⟨code, labels, result⟩

/-- Sources with the same rows of tokens are assembled alike. -/
theorem AssembleAlike.of_tokenRows {first second : String} {rows : List (List Token)}
    (cut : tokenRows first = .ok rows) (cutOther : tokenRows second = .ok rows) :
    AssembleAlike first second := by
  obtain ⟨said, wrong⟩ := Program.survey_of_tokenRows cut
  obtain ⟨saidOther, wrongOther⟩ := Program.survey_of_tokenRows cutOther
  by_cases right : rows.filterMap wrongWith? = []
  · rw [right, List.map_eq_nil_iff] at wrong wrongOther
    refine .of_parsed (by rw [Program.ofSource_eq, if_pos wrong])
      (by rw [Program.ofSource_eq, if_pos wrongOther]) ?_
    rw [said, saidOther]
  · have refused : ∀ {source : String},
        (Program.survey source).2.map Diagnostic.gist = rows.filterMap wrongWith? →
          Program.ofSource source = .error (Program.survey source).2 := by
      intro source wrong
      rw [Program.ofSource_eq, if_neg fun clean => right (by rw [← wrong, clean]; rfl)]
    intro session
    simp only [Session.assemble, refused wrong, refused wrongOther, Except.mapError, wrong,
      wrongOther, and_self]

/-- Sources with the same rows of tokens apart from brackets are assembled alike, if both can be
read. -/
theorem AssembleAlike.of_withoutBrackets {first second : String} {rows others : List (List Token)}
    {program other : Program} (cut : tokenRows first = .ok rows)
    (cutOther : tokenRows second = .ok others)
    (same : rows.map withoutBrackets = others.map withoutBrackets)
    (parsed : Program.ofSource first = .ok program)
    (parsedOther : Program.ofSource second = .ok other) : AssembleAlike first second := by
  obtain ⟨said, wrong⟩ := Program.survey_of_tokenRows cut
  obtain ⟨saidOther, wrongOther⟩ := Program.survey_of_tokenRows cutOther
  rw [Program.survey_of_ofSource parsed] at said wrong
  rw [Program.survey_of_ofSource parsedOther] at saidOther wrongOther
  refine .of_parsed parsed parsedOther ?_
  rw [said, saidOther, ← filterMap_saidBy?_withoutBrackets wrong.symm, same,
    filterMap_saidBy?_withoutBrackets wrongOther.symm]

/-! ### Layout does not matter -/

/-- Sources all of whose lines can be cut into tokens are assembled alike if the tokens of their
lines are the same, whatever their blanks, comments, idle lines and carriage returns are. If both
can be read, they are assembled alike even if brackets stand around different memory cells. -/
theorem layout_does_not_matter {first second : String} {rows others : List (List Token)}
    (cut : tokenRows first = .ok rows) (cutOther : tokenRows second = .ok others) :
    (rows = others → AssembleAlike first second) ∧
      (rows.map withoutBrackets = others.map withoutBrackets →
        (∃ program, Program.ofSource first = .ok program) →
        (∃ program, Program.ofSource second = .ok program) → AssembleAlike first second) := by
  refine ⟨?_, ?_⟩
  · rintro rfl
    exact .of_tokenRows cut cutOther
  · rintro same ⟨program, parsed⟩ ⟨other, parsedOther⟩
    exact .of_withoutBrackets cut cutOther same parsed parsedOther

/-- A load with blanks, a comment, carriage returns and idle lines around it is assembled like one
without, and like one with brackets. -/
theorem layouts_of_load :
    let plain := "ld $a"
    let spaced := "\r\n\tld\r$0A;é\r\n"
    let boxed := "ld [ $A ]"
    let rows : List (List Token) := [[.identifier "ld", .literal 10]]
    let bracketed : List (List Token) :=
      [[.identifier "ld", .bracketOpen, .literal 10, .bracketClose]]
    tokenRows plain = .ok rows ∧ tokenRows spaced = .ok rows ∧ tokenRows boxed = .ok bracketed ∧
      rows.map withoutBrackets = bracketed.map withoutBrackets ∧
      AssembleAlike plain spaced ∧ AssembleAlike plain boxed := by
  intro plain spaced boxed rows bracketed
  let load (span : Span) (bracketed : Bool) : Statement :=
    .instruction ⟨.ld, [⟨.value 10, some span, bracketed⟩], rfl⟩
  have cutPlain : tokenRows plain = .ok rows := by decide +kernel
  have cutSpaced : tokenRows spaced = .ok rows := by decide +kernel
  have cutBoxed : tokenRows boxed = .ok bracketed := by decide +kernel
  have readPlain : Program.ofSource plain =
      .ok [⟨load ⟨3, 5, by decide⟩ false, 0, 0, plain⟩] := by decide +kernel
  have readBoxed : Program.ofSource boxed =
      .ok [⟨load ⟨5, 7, by decide⟩ true, 0, 0, boxed⟩] := by decide +kernel
  have same : rows.map withoutBrackets = bracketed.map withoutBrackets := by decide
  exact ⟨cutPlain, cutSpaced, cutBoxed, same, (layout_does_not_matter cutPlain cutSpaced).1 rfl,
    (layout_does_not_matter cutPlain cutBoxed).2 same ⟨_, readPlain⟩ ⟨_, readBoxed⟩⟩

end Octet
