/-
This file ties the tokens of a line to its lexemes. What stands in front of the
first semicolon is taken apart into pieces, and reading goes through them one
after the other. If each denotes a token, then these are the tokens of the line,
each at the bytes that its lexeme takes there; otherwise the first piece that
denotes none is the mistake that is reported, at the bytes that it takes.

The width of what stands in front of a piece is the offset at which it is
scanned. Everything about bytes follows from that and from where the pieces lie.
-/

import Mathlib.Data.List.Forall2
import Octet.Proofs.Munch

namespace Octet

open Character

/-! ### What a piece denotes -/

/-- The token that a lexeme is. -/
inductive Denotes : List Char → Token → Prop
  | dot : Denotes ['.'] .dot
  | colon : Denotes [':'] .colon
  | bracketOpen : Denotes ['['] .bracketOpen
  | bracketClose : Denotes [']'] .bracketClose
  | literal {digits : List Char} (something : digits ≠ []) (small : hexValue digits ≤ 255) :
      Denotes ('$' :: digits) (.literal (hexValue digits))
  | identifier {first : Char} {rest : List Char}
      (opens : first = '_' ∨ isAlphabetic first = true) :
      Denotes (first :: rest) (.identifier (String.ofList (first :: rest)))

/-- What is wrong with a piece that is no token: a character that begins no lexeme, a dollar sign
without digits, or a literal that no byte can hold. -/
inductive Offends : List Char → Cause → Prop
  | invalidStart {c : Char} (strange : ¬Lexeme [c]) : Offends [c] .invalidStart
  | emptyLiteral : Offends ['$'] .emptyLiteral
  | literalOverflow {digits : List Char} (large : 255 < hexValue digits) :
      Offends ('$' :: digits) .literalOverflow

theorem Offends.kind {text : List Char} {cause : Cause} (offends : Offends text cause) :
    cause.kind = .unreadable := by
  cases offends <;> rfl

/-- What denotes a token is not wrong. -/
theorem Denotes.not_offends {text : List Char} {token : Token} {cause : Cause}
    (denotes : Denotes text token) : ¬Offends text cause := by
  have dollar : ¬('$' = '_' ∨ isAlphabetic '$' = true) := by decide +kernel
  have delimiter : ∀ mark ∈ delimiters, ¬Offends [mark] cause := by
    intro mark listed offends
    cases offends with
    | invalidStart strange => exact strange (.delimiter listed)
    | emptyLiteral => exact absurd listed (by decide)
    | literalOverflow => exact absurd listed (by decide)
  cases denotes with
  | dot => exact delimiter _ (by decide)
  | colon => exact delimiter _ (by decide)
  | bracketOpen => exact delimiter _ (by decide)
  | bracketClose => exact delimiter _ (by decide)
  | literal something small =>
    intro offends
    cases offends with
    | invalidStart => exact something rfl
    | emptyLiteral => exact something rfl
    | literalOverflow large => exact Nat.not_lt_of_le small large
  | identifier opens =>
    intro offends
    cases offends with
    | invalidStart strange =>
      exact strange (.name opens fun c none => absurd none List.not_mem_nil)
    | emptyLiteral => exact dollar opens
    | literalOverflow => exact dollar opens

theorem Token.ofLexeme_overflow {digits : List Char} (large : 255 < hexValue digits) :
    Token.ofLexeme '$' digits = .error .literalOverflow := by
  have something : ¬digits.isEmpty := by
    rintro nothing
    rw [List.isEmpty_iff.mp nothing] at large
    exact absurd large (by decide)
  show (if digits.isEmpty then (.error .emptyLiteral : Except Cause Token)
    else if hexValue digits ≤ 255 then .ok (.literal (hexValue digits))
    else .error .literalOverflow) = .error .literalOverflow
  rw [if_neg something, if_neg (Nat.not_le_of_lt large)]

/-- A lexeme is made into the token that it denotes, or it is wrong. -/
theorem ofLexeme_judged {first : Char} {tail : List Char} (made : Lexeme (first :: tail)) :
    match Token.ofLexeme first tail with
    | .ok token => Denotes (first :: tail) token
    | .error cause => Offends (first :: tail) cause := by
  cases made with
  | delimiter listed =>
    simp only [delimiters, List.mem_cons, List.not_mem_nil, or_false] at listed
    rcases listed with rfl | rfl | rfl | rfl
    · exact .dot
    · exact .colon
    · exact .bracketOpen
    · exact .bracketClose
  | literal =>
    by_cases something : tail = []
    · subst something
      exact .emptyLiteral
    by_cases small : hexValue tail ≤ 255
    · rw [Token.ofLexeme_dollar something small]
      exact .literal something small
    · rw [Token.ofLexeme_overflow (Nat.lt_of_not_le small)]
      exact .literalOverflow (Nat.lt_of_not_le small)
  | name opens =>
    rw [Token.ofLexeme_eq (opensName_iff.mpr opens)]
    exact .identifier opens

/-- A character that begins no lexeme is made into nothing, and nothing continues it. -/
theorem ofLexeme_strange {c : Char} (strange : ¬OpensLexeme c) (rest : List Char) :
    Token.ofLexeme c rest = .error .invalidStart ∧ continues c = fun _ => false := by
  rw [OpensLexeme, not_or, not_or] at strange
  obtain ⟨unlisted, noDollar, closed⟩ := strange
  simp only [delimiters, List.mem_cons, List.not_mem_nil, or_false, not_or] at unlisted
  obtain ⟨dot, colon, opening, closing⟩ := unlisted
  constructor
  · rw [Token.ofLexeme, if_neg dot, if_neg colon, if_neg opening, if_neg closing, if_neg noDollar,
      if_neg closed]
  · rw [continues, if_neg noDollar, if_neg closed]

/-! ### Reading the pieces one after the other -/

/-- The token is what the piece denotes, at the bytes that the piece takes. -/
def Piece.Gives (piece : Piece) (token : Located Token) : Prop :=
  token.span = piece.span ∧ Denotes piece.text token.value

/-- What reading some pieces gives: a token for each, or the first mistake. -/
def Judged (pieces : List Piece) : Except Diagnostic (List (Located Token)) → Prop
  | .ok tokens => List.Forall₂ Piece.Gives pieces tokens
  | .error diagnostic =>
    ∃ sound bad more cause, pieces = sound ++ bad :: more ∧
      (∀ piece ∈ sound, ∃ token, Denotes piece.text token) ∧ Offends bad.text cause ∧
      diagnostic = .atSpan bad.span cause

namespace Judged

variable {piece : Piece} {pieces : List Piece}

theorem offends {cause : Cause} (offends : Offends piece.text cause) :
    Judged (piece :: pieces) (.error (.atSpan piece.span cause)) :=
  ⟨[], piece, pieces, cause, rfl, fun _ none => absurd none List.not_mem_nil, offends, rfl⟩

theorem token {token : Token} {tokens : List (Located Token)} (denotes : Denotes piece.text token)
    (judged : Judged pieces (.ok tokens)) :
    Judged (piece :: pieces) (.ok (⟨token, piece.span⟩ :: tokens)) :=
  .cons ⟨rfl, denotes⟩ judged

theorem later {token : Token} {diagnostic : Diagnostic} (denotes : Denotes piece.text token)
    (judged : Judged pieces (.error diagnostic)) :
    Judged (piece :: pieces) (.error diagnostic) := by
  obtain ⟨sound, bad, more, cause, rfl, clean, offends, same⟩ := judged
  exact ⟨piece :: sound, bad, more, cause, rfl, List.forall_mem_cons.mpr ⟨⟨token, denotes⟩, clean⟩,
    offends, same⟩

end Judged

/-- The tokens of a text are those of its pieces. -/
theorem Munch.judged_scan {before text : List Char} {pieces : List Piece}
    (munch : Munch before text pieces) (ends : ';' ∉ text) :
    Judged pieces (scan (Utf8.width before) text) := by
  -- each piece is scanned at the width of what stands in front of it, and so are those behind
  induction munch with
  | done before =>
    rw [scan]
    exact .nil
  | @blank before text c pieces blank further inductionHypothesis =>
    have judged := inductionHypothesis fun member => ends (List.mem_cons_of_mem _ member)
    rw [Utf8.width_append] at judged
    rwa [scan, if_pos blank]
  | @lexeme before text lexeme pieces longest further inductionHypothesis =>
    have judged := inductionHypothesis fun member => ends (List.mem_of_mem_drop member)
    obtain ⟨first, rest, rfl, opens, rfl, left⟩ := longest.cons_cases
    rw [left, Utf8.width_append] at judged
    have denotes := ofLexeme_judged longest.made
    rw [scan, if_neg (Bool.eq_false_iff.mp (isBlank_of_opensLexeme opens)),
      if_neg (ne_semicolon_of_opensLexeme opens)]
    simp only
    cases made : Token.ofLexeme first (rest.takeWhile (continues first)) with
    | error cause =>
      rw [made] at denotes
      exact .offends denotes
    | ok token =>
      rw [made] at denotes
      simp only
      revert judged
      cases scan _ (rest.dropWhile (continues first)) with
      | error diagnostic => exact fun judged => .later denotes judged
      | ok tokens => exact fun judged => .token denotes judged
  | @other before text c pieces visible strange further inductionHypothesis =>
    have closed : ¬OpensLexeme c := fun opens => strange [c] (lexeme_singleton.mpr opens)
      (List.cons_prefix_cons.mpr ⟨rfl, List.nil_prefix⟩)
    have counts : c ≠ ';' := fun same => ends (same ▸ List.mem_cons_self)
    obtain ⟨made, alone⟩ := ofLexeme_strange closed []
    have single : text.takeWhile (continues c) = [] := by
      rw [alone]
      cases text <;> rfl
    rw [scan, if_neg (Bool.eq_false_iff.mp visible), if_neg counts]
    simp only [single, made]
    exact .offends (.invalidStart fun lexeme => closed (lexeme_singleton.mp lexeme))

/-! ### The body of a line -/

/-- What stands in front of the first semicolon. -/
def body (text : List Char) : List Char :=
  text.takeWhile (· ≠ ';')

theorem semicolon_not_mem_body (text : List Char) : ';' ∉ body text := by
  intro member
  have differs := List.all_eq_true.mp (List.all_takeWhile (p := (· ≠ ';')) (l := text)) _ member
  exact absurd rfl (of_decide_eq_true differs)

/-- Scanning stops at the first semicolon. -/
theorem harmless_body : Harmless body := by
  refine ⟨fun _ _ counts => List.takeWhile_cons_of_pos (decide_eq_true counts), .nil,
    fun rest => ?_⟩
  have nothing : body (';' :: rest) = [] := List.takeWhile_cons_of_neg (by decide)
  rw [nothing]
  exact .nil

/-! ### Bytes of a line -/

/-- The bytes that a span holds. -/
def Span.cut (span : Span) (bytes : List UInt8) : List UInt8 :=
  (bytes.drop span.lo).take span.length

theorem Piece.cut_span {piece : Piece} {text : List Char}
    (within : piece.before ++ piece.text <+: text) :
    piece.span.cut (Utf8.encodeChars text) = Utf8.encodeChars piece.text := by
  obtain ⟨rest, rfl⟩ := within
  have first : (Utf8.encodeChars piece.before).length = piece.span.lo := Utf8.length_encodeChars _
  have length : (Utf8.encodeChars piece.text).length = piece.span.length := by
    rw [Utf8.length_encodeChars, Span.length]
    exact (Nat.add_sub_cancel_left _ _).symm
  rw [Span.cut, Utf8.encodeChars_append, Utf8.encodeChars_append, List.append_assoc,
    List.drop_left' first, List.take_left' length]

theorem width_le_of_front {front text : List Char} (within : front <+: text) :
    Utf8.width front ≤ Utf8.width text := by
  obtain ⟨rest, rfl⟩ := within
  rw [Utf8.width_append]
  exact Nat.le_add_right _ _

/-- Every byte of a text belongs to one of its characters. -/
theorem exists_char_at {text : List Char} {place : Nat} (inside : place < Utf8.width text) :
    ∃ front c back, text = front ++ c :: back ∧ Utf8.width front ≤ place ∧
      place < Utf8.width front + c.utf8Size := by
  induction text generalizing place with
  | nil => exact absurd inside (Nat.not_lt_zero _)
  | cons c rest inductionHypothesis =>
    rw [Utf8.width] at inside
    by_cases here : place < c.utf8Size
    · exact ⟨[], c, rest, rfl, Nat.zero_le _, by rwa [Utf8.width, Nat.zero_add]⟩
    · have later : place - c.utf8Size < Utf8.width rest := by omega
      obtain ⟨front, d, back, rfl, least, most⟩ := inductionHypothesis later
      refine ⟨c :: front, d, back, rfl, ?_, ?_⟩
      · rw [Utf8.width]
        omega
      · rw [Utf8.width]
        omega

/-! ### The tokens of a line -/

/-- The tokens stand for the pieces of a line. Each is what its piece denotes, at the bytes that the
piece takes; and what no token holds, up to the first semicolon, is blank. -/
structure Tokenized (text : List Char) (pieces : List Piece) (tokens : List (Located Token)) :
    Prop where
  lexemes : List.Forall₂ Piece.Gives pieces tokens
  bytes : ∀ piece ∈ pieces,
    Utf8.decode (piece.span.cut (Utf8.encodeChars text)) = .ok (String.ofList piece.text)
  nonempty : ∀ token ∈ tokens, token.span.lo < token.span.hi
  ordered : tokens.Pairwise fun first second => first.span.hi ≤ second.span.lo
  blanks : ∀ place < Utf8.width (body text),
    (∀ token ∈ tokens, place < token.span.lo ∨ token.span.hi ≤ place) →
    ∃ front c back, body text = front ++ c :: back ∧ isBlank c = true ∧
      Utf8.width front ≤ place ∧ place < Utf8.width front + c.utf8Size

/-- The line is refused for the first of its pieces that denotes no token, at the bytes that this
piece takes. -/
def Refused (line : String) (pieces : List Piece) (diagnostic : Diagnostic) : Prop :=
  ∃ sound bad more cause, pieces = sound ++ bad :: more ∧
    (∀ piece ∈ sound, ∀ cause, ¬Offends piece.text cause) ∧ Offends bad.text cause ∧
    cause.kind = .unreadable ∧ diagnostic = ⟨cause, some bad.span, some line, none⟩

theorem spans_eq {pieces : List Piece} {tokens : List (Located Token)}
    (judged : Judged pieces (.ok tokens)) :
    tokens.map Located.span = pieces.map Piece.span := by
  have lexemes : List.Forall₂ Piece.Gives pieces tokens := judged
  induction lexemes with
  | nil => rfl
  | cons head further inductionHypothesis =>
    rw [List.map_cons, List.map_cons, head.1, inductionHypothesis further]

/-- A byte of a text belongs to a piece or to a blank. -/
theorem Tiles.holds_or_blank {text : List Char} {pieces : List Piece} {place : Nat}
    (tiles : Tiles [] text pieces) (inside : place < Utf8.width text) :
    (∃ piece ∈ pieces, piece.span.lo ≤ place ∧ place < piece.span.hi) ∨
      ∃ front c back, text = front ++ c :: back ∧ isBlank c = true ∧
        Utf8.width front ≤ place ∧ place < Utf8.width front + c.utf8Size := by
  obtain ⟨front, c, back, parts, least, most⟩ := exists_char_at inside
  cases blank : isBlank c with
  | true => exact Or.inr ⟨front, c, back, parts, blank, least, most⟩
  | false =>
    obtain ⟨piece, member, behind, covered⟩ := tiles.covers front c back parts blank
    have low : piece.span.lo ≤ Utf8.width front := width_le_of_front behind
    have high : Utf8.width (front ++ [c]) ≤ Utf8.width (piece.before ++ piece.text) :=
      width_le_of_front covered
    rw [Utf8.width_append, Utf8.width_append] at high
    exact Or.inl ⟨piece, member, Nat.le_trans low least, Nat.lt_of_lt_of_le most high⟩

theorem Tiles.tokenized {text : List Char} {pieces : List Piece} {tokens : List (Located Token)}
    (tiles : Tiles [] (body text) pieces) (judged : Judged pieces (.ok tokens)) :
    Tokenized text pieces tokens := by
  have spans := spans_eq judged
  have within : body text <+: text := List.takeWhile_prefix _
  refine ⟨judged, fun piece member => ?_, fun token member => ?_, ?_,
    fun place inside outside => ?_⟩
  · have front := (tiles.inside piece member).2.2.trans within
    rw [Piece.cut_span front, Utf8.decode_encodeChars]
  · have listed : token.span ∈ pieces.map Piece.span := spans ▸ List.mem_map_of_mem member
    obtain ⟨piece, member, same⟩ := List.mem_map.mp listed
    rw [← same]
    exact Nat.lt_add_of_pos_right (Utf8.width_pos (tiles.inside piece member).1)
  · have apart : (pieces.map Piece.span).Pairwise fun first second => first.hi ≤ second.lo := by
      refine List.pairwise_map.mpr (tiles.ordered.imp fun front => ?_)
      have less := width_le_of_front front
      rwa [Utf8.width_append] at less
    rw [← spans] at apart
    exact List.pairwise_map.mp apart
  · rcases tiles.holds_or_blank inside with ⟨piece, member, least, most⟩ | blank
    · have listed : piece.span ∈ tokens.map Located.span := spans ▸ List.mem_map_of_mem member
      obtain ⟨token, member, same⟩ := List.mem_map.mp listed
      rcases same ▸ outside token member with below | above
      · exact absurd below (Nat.not_lt_of_le least)
      · exact absurd most (Nat.not_lt_of_le above)
    · exact blank

theorem Judged.not_offends {pieces : List Piece} {tokens : List (Located Token)}
    (judged : Judged pieces (.ok tokens)) :
    ∀ piece ∈ pieces, ∀ cause, ¬Offends piece.text cause := by
  have lexemes : List.Forall₂ Piece.Gives pieces tokens := judged
  induction lexemes with
  | nil => exact fun _ none => absurd none List.not_mem_nil
  | cons head further inductionHypothesis =>
    exact List.forall_mem_cons.mpr ⟨fun _ => head.2.not_offends, inductionHypothesis further⟩

theorem Judged.refused {pieces : List Piece} {diagnostic : Diagnostic}
    (judged : Judged pieces (.error diagnostic)) (line : String) :
    Refused line pieces { diagnostic with lineText := some line } := by
  obtain ⟨sound, bad, more, cause, rfl, clean, offends, rfl⟩ := judged
  refine ⟨sound, bad, more, cause, rfl, fun piece member cause => ?_, offends, offends.kind, rfl⟩
  obtain ⟨token, denotes⟩ := clean piece member
  exact denotes.not_offends

/-- The tokens of a line are its longest lexemes. What stands in front of the first semicolon can be
taken apart in one way only; the line is read if none of the pieces is wrong, and then its tokens
are the pieces, at their bytes. Otherwise the line is refused for the first piece that is wrong. -/
theorem tokens_are_longest_lexemes (line : String) :
    ∃ pieces, (∀ others, Munch [] (body line.toList) others ↔ others = pieces) ∧
      ((∃ tokens, tokensOfLine line = .ok tokens) ↔
        ∀ piece ∈ pieces, ∀ cause, ¬Offends piece.text cause) ∧
      (∀ tokens, tokensOfLine line = .ok tokens → Tokenized line.toList pieces tokens) ∧
      ∀ diagnostic, tokensOfLine line = .error diagnostic → Refused line pieces diagnostic := by
  obtain ⟨pieces, munch⟩ := Munch.exists_pieces [] (body line.toList)
  have judged : Judged pieces (scan 0 (body line.toList)) :=
    munch.judged_scan (semicolon_not_mem_body _)
  rw [harmless_body.scan_eq] at judged
  refine ⟨pieces, fun others => ⟨fun other => other.unique munch, fun same => same ▸ munch⟩, ?_⟩
  rw [tokensOfLine]
  cases scanned : scan 0 line.toList with
  | ok tokens =>
    rw [scanned] at judged
    refine ⟨iff_of_true ⟨tokens, rfl⟩ judged.not_offends, ?_, fun _ refused => nomatch refused⟩
    rintro _ ⟨⟩
    exact munch.tiles.tokenized judged
  | error diagnostic =>
    rw [scanned] at judged
    have refused := judged.refused line
    refine ⟨iff_of_false (fun ⟨_, read⟩ => (nomatch read)) fun clean => ?_,
      fun _ read => (nomatch read), ?_⟩
    · obtain ⟨sound, bad, more, cause, rfl, -, offends, -⟩ := refused
      exact clean bad (List.mem_append_right _ List.mem_cons_self) cause offends
    · rintro _ ⟨⟩
      exact refused

end Octet
