/-
This file shows that nothing breaks down while a text is read. Reading by an
index that is checked each time follows reading from the front of what is left,
step by step.

A scanner takes a code point only where it has seen one, and what lies between
two of its marks is a span. The reader of a line never stands in front of the
first token, so there is a token behind which a line can end too early; and it
reads one argument for each operand, so they make an instruction.

A source need not be a text. If there is a surrogate in it, its lines are read
as those of a text up to the line of the first one, and there reading breaks
down: when the scanner takes the surrogate, or else when the bytes are counted.
-/

import Octet.Proofs.Following
import Octet.Proofs.Joining
import Octet.Proofs.Munch

namespace Octet.Guarded

/-! ### Code points -/

/-- No character comes next: nothing is left, or a surrogate comes first. -/
inductive Stops : List Point → Prop where
  | nothing : Stops []
  | surrogate (index : Fin 0x800) (rest : List Point) : Stops (.surrogate index :: rest)

theorem points_ofList (text : List Char) : points (String.ofList text) = text.map .character := by
  rw [points, String.toList_ofList]

/-- A source is a text, or there is a surrogate behind a text that it begins with. -/
theorem exists_text_or_surrogate (source : List Point) :
    (∃ text : List Char, source = text.map .character) ∨
      ∃ (text : List Char) (index : Fin 0x800) (rest : List Point),
        source = text.map .character ++ .surrogate index :: rest := by
  induction source with
  | nil => exact .inl ⟨[], rfl⟩
  | cons point source inductionHypothesis =>
    cases point with
    | surrogate index => exact .inr ⟨[], index, source, rfl⟩
    | character c =>
      rcases inductionHypothesis with ⟨text, rfl⟩ | ⟨text, index, rest, rfl⟩
      · exact .inl ⟨c :: text, rfl⟩
      · exact .inr ⟨c :: text, index, rest, rfl⟩

theorem encodable_text (text : List Char) : encodable (text.map .character) = .ok text := by
  induction text with
  | nil => rfl
  | cons c text inductionHypothesis =>
    rw [encodable] at inductionHypothesis
    rw [encodable, List.map_cons, List.mapM_cons, inductionHypothesis]
    rfl

theorem encodable_surrogate (text : List Char) (index : Fin 0x800) (rest : List Point) :
    encodable (text.map .character ++ .surrogate index :: rest) =
      .error (.breakdown (.noBytes index)) := by
  induction text with
  | nil => rfl
  | cons c text inductionHypothesis =>
    rw [encodable] at inductionHypothesis
    rw [encodable, List.map_cons, List.cons_append, List.mapM_cons, inductionHypothesis]
    rfl

/-- Work follows a reading, or it breaks down at the surrogate that comes next behind what is
read. -/
def FollowsUpTo {Value : Type} (tail : List Point) (work : Work Value)
    (outcome : Except Diagnostic Value) : Prop :=
  Follows (· = ·) work outcome ∨
    ∃ index rest, tail = .surrogate index :: rest ∧ work = .error (.breakdown (.noBytes index))

theorem Follows.bind_upTo {Found Value Further : Type} {alike : Found → Value → Prop}
    {tail : List Point} {work : Work Found} {outcome : Except Diagnostic Value}
    {next : Found → Work Further} {after : Value → Except Diagnostic Further}
    (follows : Follows alike work outcome)
    (others : ∀ found value, alike found value → FollowsUpTo tail (next found) (after value)) :
    FollowsUpTo tail (work >>= next) (outcome >>= after) := by
  cases follows with
  | done same => exact others _ _ same
  | mistaken diagnostic => exact .inl (.mistaken diagnostic)

theorem FollowsUpTo.bind_eq {Value Further : Type} {tail : List Point} {work : Work Value}
    {outcome : Except Diagnostic Value} {next : Value → Work Further}
    {after : Value → Except Diagnostic Further} (follows : FollowsUpTo tail work outcome)
    (others : ∀ value, FollowsUpTo tail (next value) (after value)) :
    FollowsUpTo tail (work >>= next) (outcome >>= after) := by
  rcases follows with follows | ⟨index, rest, first, broken⟩
  · refine follows.bind_upTo ?_
    rintro value _ rfl
    exact others value
  · rw [broken]
    exact .inr ⟨index, rest, first, rfl⟩

/-! ### Scanning -/

/-- The place behind some characters. -/
def Mark.behind (mark : Mark) (taken : List Char) : Mark :=
  ⟨mark.index + taken.length, mark.offset + Utf8.width taken⟩

theorem Mark.behind_cons (mark : Mark) (c : Char) (taken : List Char) :
    (mark.behind [c]).behind taken = mark.behind (c :: taken) := by
  simp only [Mark.behind, List.length_cons, List.length_nil, Utf8.width, Mark.mk.injEq]
  omega

theorem Mark.behind_nil (mark : Mark) : mark.behind [] = mark := rfl

/-- A code point that is left of a line is the item at the index, and leaves the rest. -/
theorem left_cons {text rest : List Point} {mark : Mark} {point : Point}
    (left : text.drop mark.index = point :: rest) :
    mark.index < text.length ∧ itemAt text mark.index = .ok point ∧
      text.drop (mark.index + 1) = rest := by
  have listed : text[mark.index]? = some point := by
    rw [← Nat.add_zero mark.index, ← List.getElem?_drop, left]
    rfl
  refine ⟨(List.getElem?_eq_some_iff.mp listed).1, itemAt_eq listed, ?_⟩
  rw [← List.drop_drop, left]
  rfl

theorem advance_character {line rest : List Point} {mark : Mark} {c : Char}
    (left : line.drop mark.index = .character c :: rest) :
    ∃ past, advance line mark = .ok (c, ⟨mark.behind [c], past⟩) := by
  rw [advance, (left_cons left).2.1]
  exact ⟨Nat.lt_succ_self _, rfl⟩

/-- A surrogate cannot be taken. -/
theorem advance_surrogate {line rest : List Point} {mark : Mark} {index : Fin 0x800}
    (left : line.drop mark.index = .surrogate index :: rest) :
    advance line mark = .error (.breakdown (.noBytes index)) := by
  rw [advance, (left_cons left).2.1]
  rfl

theorem not_lt_of_left_nil {line : List Point} {index : Nat} (left : line.drop index = []) :
    ¬index < line.length :=
  Nat.not_lt_of_le (List.drop_eq_nil_iff.mp left)

section

variable {line tail : List Point} {rest taken : List Char} {mark : Mark}

theorem takeWhile_eq {accepts : Char → Bool} (stops : Stops tail)
    (left : line.drop mark.index = rest.map .character ++ tail)
    (same : taken = rest.takeWhile accepts) :
    ∃ further, takeWhile accepts line mark = .ok (taken, ⟨mark.behind taken, further⟩) := by
  subst same
  induction rest generalizing mark with
  | nil =>
    rw [takeWhile]
    cases stops with
    | nothing =>
      rw [dif_neg (not_lt_of_left_nil left)]
      exact ⟨Nat.le_refl _, rfl⟩
    | surrogate index others =>
      obtain ⟨more, found, -⟩ := left_cons left
      rw [dif_pos more, found, ok_bind, Point.meets, if_neg Bool.false_ne_true]
      exact ⟨Nat.le_refl _, rfl⟩
  | cons c rest inductionHypothesis =>
    obtain ⟨more, found, next⟩ := left_cons left
    have further : line.drop (mark.behind [c]).index = rest.map .character ++ tail := next
    rw [takeWhile, dif_pos more, found, ok_bind, Point.meets]
    by_cases accepted : accepts c = true
    · obtain ⟨past, advanced⟩ := advance_character left
      obtain ⟨_, others⟩ := inductionHypothesis further
      rw [if_pos accepted, advanced, ok_bind]
      simp only [others, ok_bind, List.takeWhile_cons_of_pos accepted, Mark.behind_cons]
      exact ⟨Nat.le_add_right _ _, trivial⟩
    · rw [if_neg accepted, List.takeWhile_cons_of_neg accepted]
      exact ⟨Nat.le_refl _, rfl⟩

theorem takeWhile_nowhere {accepts : Char → Bool} (never : ∀ c, accepts c = false)
    (text : List Char) : text.takeWhile accepts = [] := by
  cases text with
  | nil => rfl
  | cons c rest => exact List.takeWhile_cons_of_neg (Bool.eq_false_iff.mp (never c))

/-- The bytes of some characters that begin at a mark. -/
def Mark.through (mark : Mark) (taken : List Char) : Span :=
  ⟨mark.offset, mark.offset + Utf8.width taken, Nat.le_add_right _ _⟩

theorem span_behind (mark : Mark) (taken : List Char) :
    span mark.offset (mark.behind taken).offset = .ok (mark.through taken) :=
  span_eq (Nat.le_add_right _ _)

theorem lookup_delimiterTokens {c : Char} (listed : c ∈ delimiters) :
    ∃ token, delimiterTokens.lookup c = some token ∧ Token.ofLexeme c [] = .ok token := by
  simp only [delimiters, List.mem_cons, List.not_mem_nil, or_false] at listed
  rcases listed with rfl | rfl | rfl | rfl <;> exact ⟨_, rfl, rfl⟩

/-- A number is made of the digits of a literal, unless there are none or it is too large. -/
theorem literal_follows {Found : Type} {alike : Found → Token → Prop} {digits : List Char}
    (hexadecimal : digits.all isHexDigit = true) (place : Span) {make : Nat → Found}
    (same : ∀ value, alike (make value) (.literal value)) :
    Follows alike
      (if digits = [] then complain place .emptyLiteral
        else number digits >>= fun value =>
          if 255 < value then complain place .literalOverflow else return make value)
      ((Token.ofLexeme '$' digits).mapError (.atSpan place)) := by
  have literal : Token.ofLexeme '$' digits =
      if digits.isEmpty then .error .emptyLiteral
      else if hexValue digits ≤ 255 then .ok (.literal (hexValue digits))
      else .error .literalOverflow := rfl
  rw [literal]
  by_cases nothing : digits = []
  · rw [if_pos nothing, if_pos (List.isEmpty_iff.mpr nothing), complain_eq]
    exact .mistaken _
  · have made : number digits = .ok (hexValue digits) := by
      rw [number, if_pos ⟨nothing, hexadecimal⟩]
    rw [if_neg nothing, if_neg (mt List.isEmpty_iff.mp nothing), made, ok_bind]
    by_cases large : 255 < hexValue digits
    · rw [if_pos large, if_neg (Nat.not_le_of_lt large), complain_eq]
      exact .mistaken _
    · rw [if_neg large, if_pos (Nat.le_of_not_lt large)]
      exact .done (same _)

/-- What begins with no delimiter and no dollar sign is a name, or it is no token. -/
theorem ofLexeme_undelimited {c : Char} (unlisted : c ∉ delimiters) (dollar : c ≠ '$')
    (tail : List Char) :
    Token.ofLexeme c tail =
      if opensName c then .ok (.identifier (String.ofList (c :: tail)))
      else .error .invalidStart := by
  simp only [delimiters, List.mem_cons, List.not_mem_nil, or_false, not_or] at unlisted
  obtain ⟨dot, colon, opening, closing⟩ := unlisted
  rw [Token.ofLexeme, if_neg dot, if_neg colon, if_neg opening, if_neg closing, if_neg dollar]

theorem lookup_undelimited {c : Char} (unlisted : c ∉ delimiters) :
    delimiterTokens.lookup c = none := by
  simp only [delimiters, List.mem_cons, List.not_mem_nil, or_false, not_or] at unlisted
  simp [delimiterTokens, List.lookup_eq_none_iff, unlisted]

/-- One token is taken just as the longest lexeme is. -/
theorem scanToken_follows {lexeme : List Char} {c : Char} (stops : Stops tail)
    (left : line.drop mark.index = (c :: rest).map .character ++ tail)
    (longest : lexeme = rest.takeWhile (continues c)) :
    Follows
      (fun found token => found.1 = ⟨token, mark.through (c :: lexeme)⟩ ∧
        found.2.val = mark.behind (c :: lexeme))
      (scanToken line mark)
      ((Token.ofLexeme c lexeme).mapError (.atSpan (mark.through (c :: lexeme)))) := by
  have further : line.drop (mark.behind [c]).index = rest.map .character ++ tail :=
    (left_cons left).2.2
  obtain ⟨past, advanced⟩ := advance_character left
  have ends : span mark.offset ((mark.behind [c]).behind lexeme).offset =
      .ok (mark.through (c :: lexeme)) := by
    rw [Mark.behind_cons, span_behind]
  rw [scanToken, advanced, ok_bind]
  by_cases listed : c ∈ delimiters
  · have alone : lexeme = [] := longest.trans (takeWhile_nowhere (continues_delimiter listed) rest)
    obtain ⟨token, known, made⟩ := lookup_delimiterTokens listed
    rw [alone, Mark.behind_nil] at ends
    simp only [known, Option.isSome_some, if_true, lookup, ok_bind, alone, made, ends]
    exact .done ⟨rfl, rfl⟩
  · simp only [lookup_undelimited listed, Option.isSome_none, Bool.false_eq_true, if_false]
    by_cases dollar : c = '$'
    · have digits : lexeme = rest.takeWhile isHexDigit := by
        rw [longest, continues, if_pos dollar]
      obtain ⟨_, taken⟩ := takeWhile_eq stops further digits
      simp only [if_pos dollar, taken, ok_bind, ends]
      subst dollar
      exact literal_follows (digits ▸ List.all_takeWhile) _ fun value =>
        ⟨rfl, mark.behind_cons _ lexeme⟩
    · rw [if_neg dollar, ofLexeme_undelimited listed dollar]
      by_cases opens : opensName c = true
      · have letters : lexeme = rest.takeWhile Character.isAlphanumeric := by
          rw [longest, continues_eq opens]
        obtain ⟨_, taken⟩ := takeWhile_eq stops further letters
        simp only [if_pos opens, taken, ok_bind, ends]
        exact .done ⟨rfl, mark.behind_cons c lexeme⟩
      · have never : ∀ other, continues c other = false := by
          rw [continues, if_neg dollar, if_neg opens]
          exact fun _ => rfl
        have alone : lexeme = [] := longest.trans (takeWhile_nowhere never rest)
        rw [alone, Mark.behind_nil] at ends
        rw [if_neg opens, if_neg opens]
        simp only [ends, ok_bind, complain_eq, alone]
        exact .mistaken _

theorem left_behind {c : Char} (left : line.drop mark.index = (c :: rest).map .character ++ tail)
    (accepts : Char → Bool) :
    line.drop (mark.behind (c :: rest.takeWhile accepts)).index =
      (rest.dropWhile accepts).map .character ++ tail := by
  have further : line.drop (mark.index + 1) = rest.map .character ++ tail := (left_cons left).2.2
  have parts : rest.takeWhile accepts ++ rest.dropWhile accepts = rest :=
    List.takeWhile_append_dropWhile
  have start : (mark.behind [c]).index = mark.index + 1 := rfl
  rw [← Mark.behind_cons, Mark.behind, ← List.drop_drop, start, further]
  generalize rest.takeWhile accepts = front at parts ⊢
  generalize rest.dropWhile accepts = back at parts ⊢
  rw [← parts, List.map_append, List.append_assoc, List.drop_left' (List.length_map _)]

end

/-- A lexeme and what stands behind it are scanned one after the other. -/
theorem scan_lexeme {c : Char} {rest tail : List Char} (mark : Mark)
    (unblank : ¬Character.isBlank c = true) (counts : ¬c = ';')
    (longest : tail = rest.takeWhile (continues c)) :
    Octet.scan mark.offset (c :: rest) =
      ((Token.ofLexeme c tail).mapError (.atSpan (mark.through (c :: tail))) >>= fun token =>
        Octet.scan (mark.behind (c :: tail)).offset (rest.dropWhile (continues c)) >>= fun others =>
          .ok (⟨token, mark.through (c :: tail)⟩ :: others)) := by
  subst longest
  rw [Octet.scan, if_neg unblank, if_neg counts]
  dsimp only [Mark.through, Mark.behind]
  cases Token.ofLexeme c (rest.takeWhile (continues c)) with
  | error cause => rfl
  | ok token =>
    cases Octet.scan (mark.offset + Utf8.width (c :: rest.takeWhile (continues c)))
        (rest.dropWhile (continues c)) <;> rfl

/-- Scanning goes on from a mark as it does with the characters that are left there. -/
theorem scan_follows {line tail : List Point} (stops : Stops tail) (mark : Mark)
    (rest : List Char) (left : line.drop mark.index = rest.map .character ++ tail) :
    FollowsUpTo tail (scan line mark) (Octet.scan mark.offset rest) := by
  induction mark using scan.induct line generalizing rest with
  | case1 mark more further =>
    rw [scan, dif_pos more]
    cases rest with
    | nil =>
      cases stops with
      | nothing => exact absurd more (not_lt_of_left_nil left)
      | surrogate index others =>
        -- The scanner takes the surrogate as the first of a token.
        rw [(left_cons left).2.1, ok_bind, Point.meets, if_neg Bool.false_ne_true,
          if_neg (by nofun), scanToken, advance_surrogate left]
        exact .inr ⟨index, others, rfl, rfl⟩
    | cons c rest =>
      obtain ⟨-, found, next⟩ := left_cons left
      rw [found, ok_bind, Point.meets]
      by_cases blank : Character.isBlank c = true
      · obtain ⟨past, advanced⟩ := advance_character left
        rw [if_pos blank, advanced, ok_bind, Octet.scan, if_pos blank]
        exact further _ past rest next
      · by_cases comment : c = ';'
        · rw [if_neg blank, if_pos (congrArg _ comment), Octet.scan, if_neg blank, if_pos comment]
          exact .inl (.done rfl)
        · rw [if_neg blank, if_neg (mt Point.character.inj comment),
            scan_lexeme mark blank comment rfl]
          refine (scanToken_follows stops left rfl).bind_upTo ?_
          rintro ⟨token, behind, later⟩ value ⟨rfl, rfl⟩
          have others := further _ later _ (left_behind left _)
          refine others.bind_eq fun tokens => ?_
          exact .inl (.done rfl)
  | case2 mark nothing =>
    have ended : rest.map .character ++ tail = [] :=
      left ▸ List.drop_eq_nil_of_le (Nat.le_of_not_lt nothing)
    rw [List.append_eq_nil_iff, List.map_eq_nil_iff] at ended
    rw [scan, dif_neg nothing, ended.1, Octet.scan]
    exact .inl (.done rfl)

/-! ### Reading the tokens of a line -/

/-- A cursor stands at an index: what is left of the line begins there, behind a token. -/
def StandsAt (tokens : List (Located Token)) (index : Nat) (cursor : Cursor) : Prop :=
  ∃ taken last, tokens = taken ++ last :: cursor.tokens ∧ index = taken.length + 1 ∧
    cursor.past = last.span.hi

section

variable {tokens : List (Located Token)} {index : Nat} {cursor : Cursor}

theorem StandsAt.first (token : Located Token) (rest : List (Located Token)) :
    StandsAt (token :: rest) 1 ⟨token.span.hi, rest⟩ :=
  ⟨[], token, rfl, rfl, rfl⟩

/-- A token that is left of the line has the index, and the next index is behind it. -/
theorem StandsAt.cons {token : Located Token} {rest : List (Located Token)}
    (stands : StandsAt tokens index cursor) (front : cursor.tokens = token :: rest) :
    ¬tokens.length ≤ index ∧ itemAt tokens index = .ok token ∧
      StandsAt tokens (index + 1) ⟨token.span.hi, rest⟩ := by
  obtain ⟨taken, last, parts, rfl, -⟩ := stands
  rw [front] at parts
  have place : taken.length + 1 = (taken ++ [last]).length := by
    rw [List.length_append, List.length_singleton]
  have split : tokens = (taken ++ [last]) ++ token :: rest := by
    rw [parts, List.append_assoc]
    rfl
  have listed : tokens[taken.length + 1]? = some token := by
    rw [split, place, List.getElem?_append_right (Nat.le_refl _), Nat.sub_self]
    rfl
  refine ⟨Nat.not_le_of_lt (List.getElem?_eq_some_iff.mp listed).1, itemAt_eq listed, ?_⟩
  exact ⟨taken ++ [last], token, split, by rw [place], rfl⟩

/-- If nothing is left, the token in front of the index is the last one. -/
theorem StandsAt.nil (stands : StandsAt tokens index cursor) (nothing : cursor.tokens = []) :
    tokens.length ≤ index ∧
      ∃ last, itemAt tokens ((index : Int) - 1) = .ok last ∧ last.span.hi = cursor.past := by
  obtain ⟨taken, last, parts, rfl, past⟩ := stands
  rw [nothing] at parts
  have listed : tokens[taken.length]? = some last := by
    rw [parts, List.getElem?_append_right (Nat.le_refl _), Nat.sub_self]
    rfl
  refine ⟨by rw [parts, List.length_append, List.length_singleton], last, ?_, past.symm⟩
  rw [show ((taken.length + 1 : Nat) : Int) - 1 = (taken.length : Nat) by omega]
  exact itemAt_eq listed

theorem expect_follows {Picked : Type} (stands : StandsAt tokens index cursor)
    (select : Token → Option Picked) (expected : Expected) :
    Follows (fun found taken => found.1 = taken.1 ∧ StandsAt tokens found.2 taken.2)
      (expect tokens index select expected) (cursor.expect select expected) := by
  unfold expect Cursor.expect
  cases left : cursor.tokens with
  | nil =>
    obtain ⟨ended, last, found, past⟩ := stands.nil left
    rw [if_pos ended, found, ok_bind, past, span_next, ok_bind, complain_eq]
    exact .mistaken _
  | cons token rest =>
    obtain ⟨more, found, behind⟩ := stands.cons left
    rw [if_neg more, found, ok_bind]
    cases selected : select token.value with
    | none =>
      simp only [selected, complain_eq]
      exact .mistaken _
    | some picked =>
      simp only [selected]
      exact .done ⟨rfl, behind⟩

/-- Without a token in front of the index, there would be nothing to blame. -/
example : expect [] 0 Token.identifier? .ident = .error (.breakdown (.noItem (-1) 0)) := rfl

theorem finish_follows (stands : StandsAt tokens index cursor) (afterLabel : Bool) :
    Follows (· = ·) (finish tokens index afterLabel) (cursor.finish afterLabel) := by
  unfold finish Cursor.finish
  cases left : cursor.tokens with
  | nil =>
    rw [if_pos (stands.nil left).1]
    exact .done rfl
  | cons token rest =>
    obtain ⟨more, found, -⟩ := stands.cons left
    rw [if_neg more, found, ok_bind, complain_eq]
    exact .mistaken _

/-- A token of a kind is skipped if it is the next one. -/
theorem skip_of_front {wanted : Token} {place : Span} {rest : List (Located Token)}
    (stands : StandsAt tokens index cursor) (front : cursor.tokens = ⟨wanted, place⟩ :: rest) :
    skip tokens index wanted = .ok (some (place, index + 1)) ∧
      StandsAt tokens (index + 1) ⟨place.hi, rest⟩ := by
  obtain ⟨more, found, behind⟩ := stands.cons front
  rw [skip, if_neg more, found, ok_bind, if_pos rfl]
  exact ⟨rfl, behind⟩

theorem skip_of_other {wanted : Token} (stands : StandsAt tokens index cursor)
    (other : ∀ place rest, cursor.tokens ≠ ⟨wanted, place⟩ :: rest) :
    skip tokens index wanted = .ok none := by
  rw [skip]
  cases left : cursor.tokens with
  | nil =>
    rw [if_pos (stands.nil left).1]
    rfl
  | cons token rest =>
    obtain ⟨more, found, -⟩ := stands.cons left
    have differs : ¬token.value = wanted := by
      rintro rfl
      exact other token.span rest left
    rw [if_neg more, found, ok_bind, if_neg differs]
    rfl

theorem readArg_follows (stands : StandsAt tokens index cursor) (opcode : Opcode)
    (operand : Operand) :
    Follows (fun found taken => found.1 = taken.1 ∧ StandsAt tokens found.2 taken.2)
      (readArg tokens opcode operand index) (Octet.readArg opcode operand cursor) := by
  unfold Octet.readArg
  split
  · rename_i place rest front
    obtain ⟨skipped, inside⟩ := skip_of_front stands front
    rw [readArg, skipped, ok_bind]
    by_cases cell : operand.meaning = .cell
    · simp only [if_pos cell]
      refine (expect_follows inside _ _).bind ?_
      rintro ⟨content, behind⟩ ⟨_, left⟩ ⟨rfl, further⟩
      refine (expect_follows further _ _).bind ?_
      rintro ⟨closing, afterwards⟩ ⟨_, after⟩ ⟨rfl, closed⟩
      exact .done ⟨rfl, closed⟩
    · simp only [if_neg cell, complain_eq]
      exact .mistaken _
  · rename_i plain
    rw [readArg, skip_of_other stands plain, ok_bind]
    refine (expect_follows stands _ _).bind ?_
    rintro ⟨content, behind⟩ ⟨_, left⟩ ⟨rfl, further⟩
    exact .done ⟨rfl, further⟩

theorem readArgs_follows (stands : StandsAt tokens index cursor) (opcode : Opcode)
    (operands : List Operand) :
    Follows (fun found taken => found.1 = taken.1.val ∧ StandsAt tokens found.2 taken.2)
      (readArgs tokens opcode operands index) (Octet.readArgs opcode operands cursor) := by
  induction operands generalizing index cursor with
  | nil => exact .done ⟨rfl, stands⟩
  | cons operand operands inductionHypothesis =>
    refine (readArg_follows stands opcode operand).bind ?_
    rintro ⟨arg, behind⟩ ⟨_, left⟩ ⟨rfl, further⟩
    refine (inductionHypothesis further).bind ?_
    rintro ⟨args, afterwards⟩ ⟨⟨_, complete⟩, after⟩ ⟨rfl, beyond⟩
    exact .done ⟨rfl, beyond⟩

theorem readDotted_follows (stands : StandsAt tokens index cursor) :
    Follows (· = ·) (readDotted tokens index) (Octet.readDotted cursor) := by
  refine (expect_follows stands _ _).bind ?_
  rintro ⟨name, behind⟩ ⟨_, left⟩ ⟨rfl, further⟩
  by_cases colon : ∃ place rest, left.tokens = ⟨.colon, place⟩ :: rest
  · obtain ⟨place, rest, front⟩ := colon
    obtain ⟨skipped, beyond⟩ := skip_of_front further front
    simp only [skipped, ok_bind, front]
    refine (finish_follows beyond true).bind_eq fun _ => ?_
    exact .done rfl
  · have uncolon : ∀ place rest, left.tokens ≠ ⟨.colon, place⟩ :: rest :=
      fun place rest front => colon ⟨place, rest, front⟩
    simp only [skip_of_other further uncolon, ok_bind]
    by_cases directive : name.value = "byte"
    · simp only [if_pos directive]
      refine (expect_follows further _ _).bind ?_
      rintro ⟨value, afterwards⟩ ⟨_, after⟩ ⟨rfl, beyond⟩
      refine (finish_follows beyond false).bind_eq fun _ => ?_
      exact .done rfl
    · simp only [if_neg directive, complain_eq]
      exact .mistaken _

theorem readInstruction_follows {word : String} {place : Span} {rest : List (Located Token)}
    (stands : StandsAt tokens index ⟨place.hi, rest⟩) :
    Follows (· = ·) (readInstruction tokens word place index)
      (Octet.readInstruction word place rest) := by
  rw [readInstruction, Octet.readInstruction, lookup_mnemonics]
  cases Opcode.ofMnemonic? word with
  | none =>
    simp only [complain_eq]
    exact .mistaken _
  | some opcode =>
    simp only [lookup_operandTable, ok_bind]
    refine (readArgs_follows stands opcode opcode.operands).bind ?_
    rintro ⟨args, behind⟩ ⟨⟨_, complete⟩, left⟩ ⟨rfl, further⟩
    refine (finish_follows further false).bind_eq fun _ => ?_
    simp only [instruction_eq complete, ok_bind]
    exact .done rfl

end

/-- The tokens of a line are read one by one as they are from the front of what is left. -/
theorem readTokens_follows (tokens : List (Located Token)) :
    Follows (· = ·) (readTokens tokens) (Statement.ofTokens tokens) := by
  cases tokens with
  | nil => exact .done rfl
  | cons token rest =>
    obtain ⟨value, place⟩ := token
    have stands := StandsAt.first ⟨value, place⟩ rest
    rw [readTokens, if_neg (List.cons_ne_nil _ _), itemAt_zero, ok_bind]
    cases value with
    | dot =>
      refine (readDotted_follows stands).bind_eq fun _ => ?_
      exact .done rfl
    | identifier word =>
      refine (readInstruction_follows stands).bind_eq fun _ => ?_
      exact .done rfl
    | _ =>
      simp only [complain_eq]
      exact .mistaken _

/-! ### Reading a source -/

theorem dropReturn_text (piece : List Char) :
    dropReturn (piece.map .character) = (Octet.dropReturn piece).map .character := by
  have last : (piece.map Point.character).getLast? = some (.character '\r') ↔
      piece.getLast? = some '\r' := by
    rw [List.getLast?_map]
    exact Option.map_eq_some_iff.trans
      ⟨fun ⟨c, found, same⟩ => Point.character.inj same ▸ found, fun found => ⟨_, found, rfl⟩⟩
  rw [dropReturn, Octet.dropReturn]
  by_cases ends : piece.getLast? = some '\r'
  · rw [if_pos ends, if_pos (last.mpr ends), List.map_dropLast]
  · rw [if_neg ends, if_neg (mt last.mp ends)]

/-- What is dropped lies behind the first surrogate of a piece. -/
theorem dropReturn_surrogate (text : List Char) (index : Fin 0x800) (rest : List Point) :
    ∃ others, dropReturn (text.map .character ++ .surrogate index :: rest) =
      text.map .character ++ .surrogate index :: others := by
  rw [dropReturn]
  split
  · rename_i ends
    cases rest with
    | nil => simp at ends
    | cons point rest =>
      refine ⟨(point :: rest).dropLast, ?_⟩
      rw [List.dropLast_append_of_ne_nil (List.cons_ne_nil _ _)]
      rfl
  · exact ⟨rest, rfl⟩

/-- A line is read as the entry that it yields. The bytes that it takes are a span. -/
theorem readLine_follows {tail : List Point} (stops : Stops tail) (number : Int) (offset : Nat)
    (text : List Char) :
    FollowsUpTo tail (readLine number offset (text.map .character ++ tail))
      (Octet.scan 0 text >>= fun tokens =>
        Statement.ofTokens tokens >>= fun statement =>
          .ok (statement.map (⟨·, number, offset, String.ofList text⟩))) := by
  refine (scan_follows stops ⟨0, 0⟩ text rfl).bind_eq fun tokens => ?_
  refine FollowsUpTo.bind_eq (.inl (readTokens_follows tokens)) fun statement => ?_
  cases statement with
  | none => exact .inl (.done rfl)
  | some statement =>
    cases stops with
    | nothing =>
      have taken : span offset (offset + Utf8.width text) =
          .ok ⟨offset, offset + Utf8.width text, Nat.le_add_right _ _⟩ :=
        span_eq (Nat.le_add_right _ _)
      simp only [List.append_nil, encodable_text, taken, ok_bind]
      exact .inl (.done rfl)
    | surrogate index rest =>
      simp only [encodable_surrogate]
      exact .inr ⟨index, rest, rfl, rfl⟩

/-- A piece of characters is read as the line that it holds, and then the others are read. -/
theorem readPieces_cons (number offset : Nat) (piece : List Char) (rest : List (List Point)) :
    readPieces number offset (piece.map .character :: rest) =
      (readPieces (number + 1) (offset + Utf8.width piece + 1) rest).map fun (program, mistakes) =>
        let outcome := Entry.ofLine ⟨number, offset, String.ofList (Octet.dropReturn piece)⟩
        ((entryOf? outcome).toList ++ program, (mistakeOf? outcome).toList ++ mistakes) := by
  have read := readLine_follows .nothing number offset (Octet.dropReturn piece)
  rw [List.append_nil] at read
  rcases read with read | ⟨_, _, absent, -⟩
  · rw [readPieces, dropReturn_text, read.caught_eq, ok_bind, encodable_text, ok_bind]
    simp only [Entry.ofLine, Statement.ofLine, tokensOfLine, String.toList_ofList]
    cases readPieces (number + 1) (offset + Utf8.width piece + 1) rest with
    | error failure => rfl
    | ok others =>
      cases Octet.scan 0 (Octet.dropReturn piece) with
      | error diagnostic => rfl
      | ok tokens =>
        simp only [Except.mapError, bind, Except.bind]
        cases Statement.ofTokens tokens with
        | error diagnostic => rfl
        | ok statement => cases statement <;> rfl
  · cases absent

/-- Reading the pieces of a text yields what their lines yield one by one. -/
theorem readPieces_text (number offset : Nat) (pieces : List (List Char)) :
    readPieces number offset (pieces.map (List.map .character)) =
      .ok ((numberPieces number offset pieces).filterMap (entryOf? ∘ Entry.ofLine),
        (numberPieces number offset pieces).filterMap (mistakeOf? ∘ Entry.ofLine)) := by
  induction pieces generalizing number offset with
  | nil => rfl
  | cons piece rest inductionHypothesis =>
    rw [List.map_cons, readPieces_cons, inductionHypothesis, numberPieces,
      List.filterMap_cons, List.filterMap_cons]
    simp only [Function.comp, Except.map]
    cases Entry.ofLine ⟨number, offset, String.ofList (Octet.dropReturn piece)⟩ with
    | error diagnostic => rfl
    | ok entry => cases entry <;> rfl

/-- Reading breaks down at the first surrogate, and at the latest when the bytes of its piece are
counted. -/
theorem readPieces_surrogate (number offset : Nat) (pieces : List (List Char)) (text : List Char)
    (index : Fin 0x800) (rest : List Point) (others : List (List Point)) :
    readPieces number offset (pieces.map (List.map .character) ++
        (text.map .character ++ .surrogate index :: rest) :: others) =
      .error (.breakdown (.noBytes index)) := by
  induction pieces generalizing number offset with
  | nil =>
    obtain ⟨shorter, dropped⟩ := dropReturn_surrogate text index rest
    have read := readLine_follows (.surrogate index shorter) number offset text
    rw [List.map_nil, List.nil_append, readPieces, dropped]
    rcases read with read | ⟨_, _, first, broken⟩
    · rw [read.caught_eq, ok_bind, encodable_surrogate]
      rfl
    · cases first
      rw [broken]
      rfl
  | cons piece pieces inductionHypothesis =>
    rw [List.map_cons, List.cons_append, readPieces_cons, inductionHypothesis]
    rfl

theorem splitOn_text (text : List Char) :
    (text.map Point.character).splitOn (.character '\n') =
      (text.splitOn '\n').map (List.map .character) := by
  induction text with
  | nil => rfl
  | cons c text inductionHypothesis =>
    rw [List.map_cons, List.splitOn_cons_eq_if_modifyHead, List.splitOn_cons_eq_if_modifyHead,
      inductionHypothesis]
    by_cases feed : c = '\n'
    · subst feed
      rfl
    · rw [if_neg (mt eq_of_beq feed), if_neg (mt eq_of_beq (mt Point.character.inj feed))]
      cases text.splitOn '\n' <;> rfl

/-- The first surrogate lies in a piece, and the pieces in front of it are characters. -/
theorem splitOn_surrogate (text : List Char) (index : Fin 0x800) (rest : List Point) :
    ∃ (pieces : List (List Char)) (front : List Char) (back : List Point)
        (others : List (List Point)),
      (text.map Point.character ++ .surrogate index :: rest).splitOn (.character '\n') =
        pieces.map (List.map .character) ++
          (front.map .character ++ .surrogate index :: back) :: others := by
  induction text with
  | nil =>
    obtain ⟨back, others, cut⟩ := List.exists_cons_of_ne_nil
      (List.splitOn_ne_nil (.character '\n') rest)
    refine ⟨[], [], back, others, ?_⟩
    rw [List.map_nil, List.nil_append, List.splitOn_cons_eq_if_modifyHead, cut]
    rfl
  | cons c text inductionHypothesis =>
    obtain ⟨pieces, front, back, others, cut⟩ := inductionHypothesis
    rw [List.map_cons, List.cons_append, List.splitOn_cons_eq_if_modifyHead, cut]
    by_cases feed : c = '\n'
    · subst feed
      exact ⟨[] :: pieces, front, back, others, rfl⟩
    · rw [if_neg (mt eq_of_beq (mt Point.character.inj feed))]
      cases pieces with
      | nil => exact ⟨[], c :: front, back, others, rfl⟩
      | cons piece pieces => exact ⟨(c :: piece) :: pieces, front, back, others, rfl⟩

end Octet.Guarded
