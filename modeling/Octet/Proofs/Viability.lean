/-
This file shows that a line that cannot be read is blamed on the right token.
Some tokens are viable if others can follow them so that all of them together
are read. The reader complains about the first token that ends this: the tokens
in front of it are viable, and with it they are beyond help. If it complains that
the line ends, all tokens of the line are viable, and the place that it points
at is the one behind the last of them.

There is one exception. A name behind a dot is viable whatever it is, because
it may become a label. If no colon follows it and it is no directive, it is the
name that is blamed, and not the token that could have been the colon.

Each function of the reader takes tokens from the front and leaves the rest to
whatever reads on. So each is shown to be guided when what reads on is guided,
and this is settled by what a reader does with the one token in front of it.
-/

import Octet.Proofs.Grammar

namespace Octet

/-! ### Viable tokens -/

/-- Whether other tokens, all of which a program can spell, can follow some tokens so that all of
them together are read. -/
def Viable {Value : Type} (read : List (Located Token) → Except Diagnostic Value)
    (tokens : List (Located Token)) : Prop :=
  ∃ more, (∀ token ∈ more, token.value.Proper) ∧ ∃ value, read (tokens ++ more) = .ok value

/-- Whether no tokens whatever can follow some tokens so that all of them together are read. -/
def Hopeless {Value : Type} (read : List (Located Token) → Except Diagnostic Value)
    (tokens : List (Located Token)) : Prop :=
  ∀ more value, read (tokens ++ more) ≠ .ok value

/-- Where a reader of some tokens should stop: at the first that does not fit, or at the end if all
of them do. -/
inductive StopsAt {Value : Type} (read : List (Located Token) → Except Diagnostic Value)
    (tokens : List (Located Token)) : Diagnostic → Prop
  | misfit (front : List (Located Token)) (token : Located Token) (back : List (Located Token))
      {cause : Cause} (split : tokens = front ++ token :: back) (viable : Viable read front)
      (hopeless : Hopeless read (front ++ [token]))
      (other : ∀ name, cause ≠ .unknownDirective name) :
      StopsAt read tokens (.atSpan token.span cause)
  | ending (span : Span) (expected : Expected) (viable : Viable read tokens) :
      StopsAt read tokens (.atSpan span (.unexpectedEnd expected))

/-- A reader that accepts something and otherwise stops where it should. -/
structure Guided {Value : Type} (read : List (Located Token) → Except Diagnostic Value) : Prop where
  satisfiable : Viable read []
  stops : ∀ tokens diagnostic, read tokens = .error diagnostic → StopsAt read tokens diagnostic

/-! ### One token at a time -/

section

variable {Value : Type} {read next : List (Located Token) → Except Diagnostic Value}
  {token : Located Token}

/-- If a reader takes a token and something else reads on, that decides what is viable. -/
theorem viable_cons_iff (same : ∀ more, read (token :: more) = next more)
    (tokens : List (Located Token)) : Viable read (token :: tokens) ↔ Viable next tokens := by
  simp only [Viable, List.cons_append, same]

theorem hopeless_cons_iff (same : ∀ more, read (token :: more) = next more)
    (tokens : List (Located Token)) : Hopeless read (token :: tokens) ↔ Hopeless next tokens := by
  simp only [Hopeless, List.cons_append, same]

theorem Viable.of_cons (proper : token.value.Proper) (viable : Viable read [token]) :
    Viable read [] := by
  obtain ⟨more, spellable, accepted⟩ := viable
  exact ⟨token :: more, List.forall_mem_cons.mpr ⟨proper, spellable⟩, accepted⟩

/-- A reader can be satisfied if it takes some token and what reads on can be satisfied. -/
theorem Guided.viable_of_takes (guided : Guided next) (token : Located Token)
    (proper : token.value.Proper) (same : ∀ more, read (token :: more) = next more) :
    Viable read [] :=
  .of_cons proper ((viable_cons_iff same []).mpr guided.satisfiable)

theorem StopsAt.cons (same : ∀ more, read (token :: more) = next more)
    {tokens : List (Located Token)} {diagnostic : Diagnostic}
    (stops : StopsAt next tokens diagnostic) : StopsAt read (token :: tokens) diagnostic := by
  cases stops with
  | misfit front token back split viable hopeless other =>
    rw [← viable_cons_iff same] at viable
    rw [← hopeless_cons_iff same] at hopeless
    exact .misfit (_ :: front) token back (congrArg (_ :: ·) split) viable hopeless other
  | ending span expected viable =>
    exact .ending span expected ((viable_cons_iff same _).mpr viable)

/-- What a reader may do with the token in front of it, whatever follows: take it and let a guided
reader go on, or complain about it. -/
inductive Handles (read : List (Located Token) → Except Diagnostic Value)
    (token : Located Token) : Prop
  | takes (next : List (Located Token) → Except Diagnostic Value) (guided : Guided next)
      (same : ∀ more, read (token :: more) = next more)
  | refuses (cause : Cause) (other : ∀ name, cause ≠ .unknownDirective name)
      (same : ∀ more, read (token :: more) = .error (.atSpan token.span cause))

theorem Handles.stops (handles : Handles read token) (satisfiable : Viable read [])
    {rest : List (Located Token)} {diagnostic : Diagnostic}
    (refused : read (token :: rest) = .error diagnostic) :
    StopsAt read (token :: rest) diagnostic := by
  cases handles with
  | takes next guided same =>
    rw [same] at refused
    exact (guided.stops _ _ refused).cons same
  | refuses cause other same =>
    obtain rfl := Except.error.inj ((same rest).symm.trans refused)
    refine .misfit [] token rest rfl satisfiable (fun more value accepted => ?_) other
    rw [List.nil_append, List.singleton_append, same] at accepted
    cases accepted

/-- A reader is guided if it handles every token that may come first, and complains about the end
alone if none comes. -/
theorem Guided.of_handles (satisfiable : Viable read [])
    (ends : ∀ diagnostic, read [] = .error diagnostic →
      ∃ span expected, diagnostic = .atSpan span (.unexpectedEnd expected))
    (handles : ∀ token, Handles read token) : Guided read := by
  refine ⟨satisfiable, fun tokens diagnostic refused => ?_⟩
  cases tokens with
  | nil =>
    obtain ⟨span, expected, rfl⟩ := ends diagnostic refused
    exact .ending span expected satisfiable
  | cons token rest => exact (handles token).stops satisfiable refused

end

/-! ### Readers that take tokens and hand on the rest -/

/-- Somewhere to put a token that nobody reads the place of. -/
def Token.somewhere (token : Token) : Located Token :=
  ⟨token, .behind 0⟩

namespace Guided

variable {Value : Type}

theorem expect {Picked : Type} {select : Token → Option Picked} (past : Nat) (expected : Expected)
    {next : Located Picked × Cursor → Except Diagnostic Value} (fitting : Token) {picked : Picked}
    (proper : fitting.Proper) (selected : select fitting = some picked)
    (further : ∀ picked : Located Picked,
      Guided fun rest => next (picked, ⟨picked.span.hi, rest⟩)) :
    Guided fun rest => Cursor.expect ⟨past, rest⟩ select expected >>= next := by
  have takes : ∀ (token : Located Token) (held : Picked), select token.value = some held →
      ∀ more, Cursor.expect ⟨past, token :: more⟩ select expected >>= next =
        next (⟨held, token.span⟩, ⟨token.span.hi, more⟩) := by
    intro token held found more
    simp only [Cursor.expect, found]
    rfl
  refine of_handles ?_ ?_ fun token => ?_
  · exact (further ⟨picked, _⟩).viable_of_takes fitting.somewhere proper
      (takes _ picked selected)
  · rintro diagnostic ⟨⟩
    exact ⟨_, expected, rfl⟩
  · cases found : select token.value with
    | some held => exact .takes _ (further ⟨held, token.span⟩) (takes token held found)
    | none =>
      refine .refuses (.unexpectedToken token.value expected) (fun _ => Cause.noConfusion) ?_
      intro more
      simp only [Cursor.expect, found]
      rfl

theorem finish (past : Nat) (afterLabel : Bool) (value : Value) :
    Guided fun rest => Cursor.finish ⟨past, rest⟩ afterLabel >>= fun _ => .ok value := by
  refine of_handles ⟨[], fun _ none => absurd none List.not_mem_nil, value, rfl⟩ ?_ fun token => ?_
  · rintro diagnostic ⟨⟩
  · exact .refuses (.trailingToken token.value afterLabel) (fun _ => Cause.noConfusion)
      fun _ => rfl

/-- A literal is a proper token for every operand. -/
theorem proper_zero : Token.Proper (.literal 0) :=
  ⟨Int.le_refl 0, by decide⟩

theorem readArg (opcode : Opcode) (operand : Operand) (past : Nat)
    {next : Arg × Cursor → Except Diagnostic Value}
    (further : ∀ arg past, Guided fun rest => next (arg, ⟨past, rest⟩)) :
    Guided fun rest => readArg opcode operand ⟨past, rest⟩ >>= next := by
  have plain : ∀ (token : Located Token) (content : Content), token.value.content? = some content →
      ∀ more, Octet.readArg opcode operand ⟨past, token :: more⟩ >>= next =
        next (⟨content, some token.span, false⟩, ⟨token.span.hi, more⟩) := by
    rintro ⟨token, span⟩ content found more
    cases token with
    | literal value | identifier name =>
      cases found
      rfl
    | _ => cases found
  refine of_handles ?_ ?_ fun token => ?_
  · exact (further ⟨.value 0, _, false⟩ _).viable_of_takes (Token.somewhere (.literal 0))
      proper_zero (plain _ _ rfl)
  · rintro diagnostic ⟨⟩
    exact ⟨_, _, rfl⟩
  · obtain ⟨token, span⟩ := token
    cases token with
    | literal value | identifier name => exact .takes _ (further _ _) (plain _ _ rfl)
    | bracketOpen =>
      by_cases cell : operand.meaning = .cell
      · have inside : ∀ content : Located Content, Guided fun rest =>
            Cursor.expect ⟨content.span.hi, rest⟩ Token.closing? .closingBracket >>= fun closed =>
              next (⟨content.value, some content.span, true⟩, closed.2) := fun content =>
          expect _ _ .bracketClose trivial rfl fun _ => further _ _
        have whole : Guided fun rest =>
            Cursor.expect ⟨span.hi, rest⟩ Token.content? .literalOrIdent >>= fun taken =>
              taken.2.expect Token.closing? .closingBracket >>= fun closed =>
                next (⟨taken.1.value, some taken.1.span, true⟩, closed.2) :=
          expect _ _ (.literal 0) proper_zero rfl inside
        refine .takes _ whole fun more => ?_
        simp only [Octet.readArg, if_pos cell, bind_assoc]
        rfl
      · refine .refuses (.bracketsNotAllowed opcode operand) (fun _ => Cause.noConfusion) ?_
        intro more
        simp only [Octet.readArg, if_neg cell]
        rfl
    | _ =>
      exact .refuses (.unexpectedToken _ .literalOrIdent) (fun _ => Cause.noConfusion) fun _ => rfl

theorem readArgs (opcode : Opcode) (operands : List Operand) (past : Nat)
    {next : { args : List Arg // args.length = operands.length } × Cursor →
      Except Diagnostic Value}
    (further : ∀ args past, Guided fun rest => next (args, ⟨past, rest⟩)) :
    Guided fun rest => readArgs opcode operands ⟨past, rest⟩ >>= next := by
  induction operands generalizing past with
  | nil => exact further ⟨[], rfl⟩ past
  | cons operand operands inductionHypothesis =>
    simp only [Octet.readArgs, bind_assoc]
    refine readArg opcode operand past fun arg past => ?_
    dsimp only
    refine inductionHypothesis past fun args past => ?_
    exact further ⟨arg :: args.1, congrArg (· + 1) args.2⟩ past

/-- What follows the name of an instruction. -/
theorem readInstruction {word : String} {opcode : Opcode}
    (found : Opcode.ofMnemonic? word = some opcode) (span : Span) :
    Guided fun rest => readInstruction word span rest := by
  simp only [Octet.readInstruction, found]
  refine readArgs opcode opcode.operands span.hi fun args past => ?_
  exact finish past false (Statement.instruction ⟨opcode, args.1, args.2⟩)

/-- What follows the one directive there is. -/
theorem directive (past : Nat) (span : Span) :
    Guided fun rest => readDotted ⟨past, ⟨.identifier "byte", span⟩ :: rest⟩ := by
  have literal : ∀ value : Located Int, Guided fun rest =>
      Cursor.finish ⟨value.span.hi, rest⟩ false >>= fun _ => .ok (Statement.byte value.value) :=
    fun value => finish value.span.hi false _
  refine of_handles ?_ ?_ fun token => ?_
  · exact (literal ⟨0, _⟩).viable_of_takes (Token.somewhere (.literal 0)) proper_zero fun _ => rfl
  · rintro diagnostic ⟨⟩
    exact ⟨_, _, rfl⟩
  · obtain ⟨token, place⟩ := token
    cases token with
    | colon => exact .takes _ (finish place.hi true (.label "byte" (some span))) fun _ => rfl
    | literal value => exact .takes _ (literal ⟨value, place⟩) fun _ => rfl
    | _ => exact .refuses (.unexpectedToken _ .literal) (fun _ => Cause.noConfusion) fun _ => rfl

end Guided

/-! ### The name behind a dot -/

/-- The name behind a dot is blamed: it is no directive, and no colon makes it a label. -/
def BlamesName (tokens : List (Located Token)) (diagnostic : Diagnostic) : Prop :=
  ∃ name span rest, tokens = ⟨.identifier name, span⟩ :: rest ∧ name ≠ "byte" ∧
    (∀ colon left, rest ≠ ⟨.colon, colon⟩ :: left) ∧
    diagnostic = .atSpan span (.unknownDirective name)

theorem readDotted_stops (past : Nat) (tokens : List (Located Token)) (diagnostic : Diagnostic)
    (refused : readDotted ⟨past, tokens⟩ = .error diagnostic) :
    StopsAt (fun rest => readDotted ⟨past, rest⟩) tokens diagnostic ∨
      BlamesName tokens diagnostic := by
  have viable : Viable (fun rest => readDotted ⟨past, rest⟩) [] :=
    (Guided.directive past _).viable_of_takes (Token.somewhere (.identifier "byte")) isName_byte
      fun _ => rfl
  cases tokens with
  | nil =>
    cases refused
    exact Or.inl (.ending _ _ viable)
  | cons first rest =>
    obtain ⟨token, span⟩ := first
    cases token with
    | identifier name =>
      by_cases directive : name = "byte"
      · subst directive
        exact Or.inl (((Guided.directive past span).stops _ _ refused).cons fun _ => rfl)
      · by_cases labelled : ∃ colon left, rest = ⟨.colon, colon⟩ :: left
        · obtain ⟨colon, left, rfl⟩ := labelled
          have label : Guided fun left => Cursor.finish ⟨colon.hi, left⟩ true >>= fun _ =>
              .ok (Statement.label name (some span)) := .finish colon.hi true _
          have stops : StopsAt (fun rest => readDotted ⟨past, ⟨.identifier name, span⟩ :: rest⟩)
              (⟨.colon, colon⟩ :: left) diagnostic :=
            (label.stops left diagnostic refused).cons fun _ => rfl
          exact Or.inl (stops.cons fun _ => rfl)
        · refine Or.inr ⟨name, span, rest, rfl, directive, ?_, ?_⟩
          · exact fun colon left same => labelled ⟨colon, left, same⟩
          · simp only [readDotted, Cursor.expect, Token.identifier?, bind, Except.bind] at refused
            split at refused
            · exact absurd ⟨_, _, rfl⟩ labelled
            · rw [if_neg directive] at refused
              exact (Except.error.inj refused).symm
    | _ =>
      refine Or.inl (Handles.stops ?_ viable refused)
      exact .refuses (.unexpectedToken _ .ident) (fun _ => Cause.noConfusion) fun _ => rfl

/-! ### The tokens of a line -/

theorem Viable.map {First Second : Type} {read : List (Located Token) → Except Diagnostic First}
    {tokens : List (Located Token)} (viable : Viable read tokens) (select : First → Second) :
    Viable (fun rest => select <$> read rest) tokens := by
  obtain ⟨more, spellable, value, accepted⟩ := viable
  exact ⟨more, spellable, select value, (map_eq_ok_iff _ _ _).mpr ⟨value, accepted, rfl⟩⟩

theorem Hopeless.map {First Second : Type} {read : List (Located Token) → Except Diagnostic First}
    {tokens : List (Located Token)} (hopeless : Hopeless read tokens) (select : First → Second) :
    Hopeless (fun rest => select <$> read rest) tokens := by
  intro more _ accepted
  obtain ⟨value, accepted, _⟩ := (map_eq_ok_iff _ _ _).mp accepted
  exact hopeless more value accepted

theorem StopsAt.map {First Second : Type} {read : List (Located Token) → Except Diagnostic First}
    {tokens : List (Located Token)} {diagnostic : Diagnostic}
    (stops : StopsAt read tokens diagnostic) (select : First → Second) :
    StopsAt (fun rest => select <$> read rest) tokens diagnostic := by
  cases stops with
  | misfit front token back split viable hopeless other =>
    exact .misfit front token back split (viable.map select) (hopeless.map select) other
  | ending span expected viable =>
    exact .ending span expected (viable.map select)

theorem eq_error_of_map {Mistake First Second : Type} {outcome : Except Mistake First}
    {select : First → Second} {mistake : Mistake} (refused : select <$> outcome = .error mistake) :
    outcome = .error mistake := by
  cases outcome with
  | ok value => cases refused
  | error other =>
    cases refused
    rfl

/-- The reader of a line stops where it should, unless it blames the name behind a dot. -/
theorem Statement.ofTokens_stops (tokens : List (Located Token)) (diagnostic : Diagnostic)
    (refused : Statement.ofTokens tokens = .error diagnostic) :
    StopsAt Statement.ofTokens tokens diagnostic ∨
      ∃ dot rest, tokens = ⟨.dot, dot⟩ :: rest ∧ BlamesName rest diagnostic := by
  have viable : Viable Statement.ofTokens [] :=
    ⟨[], fun _ none => absurd none List.not_mem_nil, none, rfl⟩
  cases tokens with
  | nil => cases refused
  | cons first rest =>
    obtain ⟨token, span⟩ := first
    cases token with
    | dot =>
      rcases readDotted_stops span.hi rest diagnostic (eq_error_of_map refused) with stops | blames
      · exact Or.inl ((stops.map some).cons fun _ => rfl)
      · exact Or.inr ⟨span, rest, rfl, blames⟩
    | identifier word =>
      cases found : Opcode.ofMnemonic? word with
      | some opcode =>
        have stops := (Guided.readInstruction found span).stops _ _ (eq_error_of_map refused)
        exact Or.inl ((stops.map some).cons fun _ => rfl)
      | none =>
        refine Or.inl (Handles.stops ?_ viable refused)
        refine .refuses (.unknownInstruction word) (fun _ => Cause.noConfusion) fun more => ?_
        rw [Statement.ofTokens, Octet.readInstruction, found]
        rfl
    | _ =>
      refine Or.inl (Handles.stops ?_ viable refused)
      exact .refuses (.unexpectedAtStart _) (fun _ => Cause.noConfusion) fun _ => rfl

/-- A refusal is blamed on the first token that nothing can follow any more, although the tokens in
front of it are viable, or on the place behind the last token if all of them are viable. Only a name
behind a dot may be called no directive, and then it is not `byte` and no colon follows it. -/
theorem first_misfit_is_blamed (tokens : List (Located Token)) (diagnostic : Diagnostic)
    (refused : Statement.ofTokens tokens = .error diagnostic) :
    ((∀ name, diagnostic.cause ≠ .unknownDirective name) →
      (∃ front token back, tokens = front ++ token :: back ∧
          diagnostic.span = some token.span ∧ Viable Statement.ofTokens front ∧
          Hopeless Statement.ofTokens (front ++ [token])) ∨
        ∃ last, tokens.getLast? = some last ∧
          diagnostic.span = some (.behind last.span.hi) ∧ Viable Statement.ofTokens tokens) ∧
      ∀ name, diagnostic.cause = .unknownDirective name →
        ∃ dot span rest, tokens = ⟨.dot, dot⟩ :: ⟨.identifier name, span⟩ :: rest ∧
          diagnostic.span = some span ∧ name ≠ "byte" ∧
          ∀ colon left, rest ≠ ⟨.colon, colon⟩ :: left := by
  have points := Points.ofTokens tokens
  rw [refused] at points
  rcases Statement.ofTokens_stops tokens diagnostic refused with stops | blames
  · cases stops with
    | misfit front token back split viable hopeless other =>
      refine ⟨fun _ => Or.inl ⟨front, token, back, split, rfl, viable, hopeless⟩, ?_⟩
      exact fun name directive => absurd directive (other name)
    | ending span expected viable =>
      refine ⟨fun _ => Or.inr ?_, fun _ => Cause.noConfusion⟩
      cases points with
      | token _ about => cases about
      | ending final => exact ⟨_, final, rfl, viable⟩
  · obtain ⟨dot, _, rfl, name, span, rest, rfl, different, unlabelled, rfl⟩ := blames
    refine ⟨fun other => absurd rfl (other name), ?_⟩
    rintro _ ⟨⟩
    exact ⟨dot, span, rest, rfl, rfl, different, unlabelled⟩

/-- What is in a bracket fits, but the bracket is not closed behind it. -/
theorem first_misfit_is_blamed_in_brackets :
    let tokens : List (Located Token) := [⟨.identifier "mov", ⟨0, 3, by decide⟩⟩,
      ⟨.bracketOpen, ⟨4, 5, by decide⟩⟩, ⟨.identifier "msg", ⟨5, 8, by decide⟩⟩,
      ⟨.colon, ⟨9, 10, by decide⟩⟩]
    let diagnostic : Diagnostic :=
      .atSpan ⟨9, 10, by decide⟩ (.unexpectedToken .colon .closingBracket)
    (tokensOfLine "mov [msg :").toOption = some tokens ∧
      Statement.ofTokens tokens = .error diagnostic ∧
      ((∃ front token back, tokens = front ++ token :: back ∧
          diagnostic.span = some token.span ∧ Viable Statement.ofTokens front ∧
          Hopeless Statement.ofTokens (front ++ [token])) ∨
        ∃ last, tokens.getLast? = some last ∧
          diagnostic.span = some (.behind last.span.hi) ∧ Viable Statement.ofTokens tokens) := by
  intro tokens diagnostic
  have cut : (tokensOfLine "mov [msg :").toOption = some tokens := by decide +kernel
  have refused : Statement.ofTokens tokens = .error diagnostic := rfl
  exact ⟨cut, refused,
    (first_misfit_is_blamed tokens diagnostic refused).1 fun _ => Cause.noConfusion⟩

end Octet
