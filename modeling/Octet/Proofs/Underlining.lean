/-
This file shows that a report underlines what it complains about. A span counts
the bytes of its line, and the carets stand under characters. Where a span
begins and ends with a character, the carets stand under exactly the characters
that the span holds, however many bytes each of them takes.

A line that ends too early is reported at the byte behind its last token. That
byte may be anything: the first of a longer character, of which nothing else
belongs to the span, or none of the line at all. It always takes one column, for
a broken character is shown as one, and so is a byte behind the end.
-/

import Octet.Diagnostic.Render
import Octet.Proofs.Joining
import Octet.Proofs.Pointing
import Octet.Proofs.Tokens

namespace Octet

/-! ### Columns -/

namespace Utf8

/-- Behind some characters, bytes are shown as many characters more as they have segments. -/
theorem length_decodeLossy_append (text : List Char) (rest : List UInt8) :
    (decodeLossy (encodeChars text ++ rest)).length = text.length + (segments rest).length := by
  rw [decodeLossy, String.length_ofList, List.length_map, segments_encodeChars_append,
    List.length_append, List.length_map]

/-- A single byte is one segment, broken or not. -/
theorem length_segments_singleton (byte : UInt8) : (segments [byte]).length = 1 := by
  rw [segments, List.drop_nil, segments]
  rfl

end Utf8

section

variable {line : String} {front back : List Char}

/-- Where a character begins or the line ends, there are as many columns in front as characters. -/
theorem columnOfByte_width (parts : line.toList = front ++ back) :
    columnOfByte line (Utf8.width front) = front.length := by
  have within : Utf8.width front ≤ (Utf8.encode line).length := by
    rw [Utf8.encode, parts, Utf8.length_encodeChars]
    exact width_le_of_front ⟨back, rfl⟩
  have taken : (Utf8.encode line).take (Utf8.width front) = Utf8.encodeChars front ++ [] := by
    rw [Utf8.encode, parts, Utf8.encodeChars_append,
      List.take_left' (Utf8.length_encodeChars front), List.append_nil]
  simp only [columnOfByte, taken]
  rw [Utf8.length_decodeLossy_append, Nat.sub_eq_zero_of_le within, Utf8.segments]
  rfl

/-- The byte behind some characters takes one column, whatever it is. -/
theorem columnOfByte_behind (parts : line.toList = front ++ back) :
    columnOfByte line (Utf8.width front + 1) = front.length + 1 := by
  have whole : (Utf8.encodeChars front).length = Utf8.width front := Utf8.length_encodeChars front
  cases back with
  | nil =>
    have bytes : Utf8.encode line = Utf8.encodeChars front ++ [] := by
      rw [Utf8.encode, parts, List.append_nil, List.append_nil]
    have taken : (Utf8.encodeChars front ++ []).take (Utf8.width front + 1) =
        Utf8.encodeChars front ++ [] := by
      refine List.take_of_length_le ?_
      rw [List.append_nil, whole]
      exact Nat.le_succ _
    simp only [columnOfByte, bytes, taken]
    rw [Utf8.length_decodeLossy_append, List.append_nil, whole, Nat.add_sub_cancel_left,
      Utf8.segments]
    rfl
  | cons c rest =>
    obtain ⟨first, tail, opens, -⟩ := Utf8.opening_encodeChar c []
    have bytes : Utf8.encode line =
        Utf8.encodeChars front ++ [first] ++ (tail ++ Utf8.encodeChars rest) := by
      rw [Utf8.encode, parts, Utf8.encodeChars_append, Utf8.encodeChars, Utf8.encodeChars,
        List.flatMap_cons, opens]
      simp only [List.append_assoc, List.cons_append, List.nil_append, Utf8.encodeChars]
    have length : (Utf8.encodeChars front ++ [first]).length = Utf8.width front + 1 := by
      rw [List.length_append, whole, List.length_singleton]
    have within : Utf8.width front + 1 ≤ (Utf8.encode line).length := by
      rw [bytes, List.length_append, length]
      exact Nat.le_add_right _ _
    simp only [columnOfByte]
    rw [Nat.sub_eq_zero_of_le within, bytes, List.take_left' length,
      Utf8.length_decodeLossy_append, Utf8.length_segments_singleton]

/-- The carets for some characters of a line stand under these characters. -/
theorem caretRange_piece {piece : Piece} (within : piece.before ++ piece.text <+: line.toList)
    (something : piece.text ≠ []) :
    caretRange line piece.span = (piece.before.length, piece.text.length) := by
  obtain ⟨rest, parts⟩ := within
  have low : columnOfByte line piece.span.lo = piece.before.length :=
    columnOfByte_width (parts.symm.trans (List.append_assoc _ _ _))
  have high : columnOfByte line piece.span.hi = (piece.before ++ piece.text).length := by
    rw [← columnOfByte_width parts.symm, Utf8.width_append]
    rfl
  have positive : 1 ≤ piece.text.length := List.length_pos_of_ne_nil something
  rw [caretRange, low, high, List.length_append, Nat.add_sub_cancel_left, Nat.max_eq_left positive]

/-- A caret for the byte behind some characters stands behind these characters. -/
theorem caretRange_behind (parts : line.toList = front ++ back) :
    caretRange line (.behind (Utf8.width front)) = (front.length, 1) := by
  simp only [caretRange, Span.behind, columnOfByte_width parts, columnOfByte_behind parts,
    Nat.add_sub_cancel_left, Nat.max_self]

end

/-! ### What a mistake underlines -/

/-- What a mistake in a line underlines, with the bytes, the column and the number of characters: a
piece that is wrong, the lexeme of the token that the mistake is about, or what follows the last
piece if the line ends too early. -/
inductive Underlines (pieces : List Piece) (cause : Cause) : Span → Nat → Nat → Prop
  | wrong {piece : Piece} (member : piece ∈ pieces) (offends : Offends piece.text cause) :
      Underlines pieces cause piece.span piece.before.length piece.text.length
  | token {piece : Piece} {token : Token} (member : piece ∈ pieces) (made : Lexeme piece.text)
      (denotes : Denotes piece.text token) (about : cause.token? = some token) :
      Underlines pieces cause piece.span piece.before.length piece.text.length
  | ending {last : Piece} {token : Token} {expected : Expected}
      (final : pieces.getLast? = some last) (denotes : Denotes last.text token)
      (early : cause = .unexpectedEnd expected) :
      Underlines pieces cause (.behind last.span.hi) (last.before ++ last.text).length 1

/-- A piece that denotes a token is a lexeme. -/
theorem Munch.lexeme_of_denotes {before text : List Char} {pieces : List Piece}
    (munch : Munch before text pieces) :
    ∀ piece ∈ pieces, ∀ token, Denotes piece.text token → Lexeme piece.text := by
  induction munch with
  | done => exact fun _ none => absurd none List.not_mem_nil
  | blank _ _ inductionHypothesis => exact inductionHypothesis
  | lexeme longest _ inductionHypothesis =>
    exact List.forall_mem_cons.mpr ⟨fun _ _ => longest.made, inductionHypothesis⟩
  | @other _ text c _ _ strange _ inductionHypothesis =>
    refine List.forall_mem_cons.mpr ⟨fun token denotes => ?_, inductionHypothesis⟩
    have alone : ¬Lexeme [c] := fun made => strange [c] made ⟨text, rfl⟩
    exact absurd (.invalidStart alone) denotes.not_offends

/-- Each token comes from a piece. -/
theorem exists_piece_of_mem {pieces : List Piece} {tokens : List (Located Token)}
    (lexemes : List.Forall₂ Piece.Gives pieces tokens) :
    ∀ token ∈ tokens, ∃ piece ∈ pieces, piece.Gives token := by
  induction lexemes with
  | nil => exact fun _ none => absurd none List.not_mem_nil
  | @cons piece token _ _ head _ inductionHypothesis =>
    refine List.forall_mem_cons.mpr ⟨⟨piece, List.mem_cons_self, head⟩, fun token member => ?_⟩
    obtain ⟨piece, listed, gives⟩ := inductionHypothesis token member
    exact ⟨piece, List.mem_cons_of_mem _ listed, gives⟩

/-- The last token comes from the last piece. -/
theorem exists_last_piece {pieces : List Piece} {tokens : List (Located Token)}
    {last : Located Token} (lexemes : List.Forall₂ Piece.Gives pieces tokens)
    (final : tokens.getLast? = some last) :
    ∃ piece, pieces.getLast? = some piece ∧ piece.Gives last := by
  have turned := List.forall₂_reverse_iff.mpr lexemes
  simp only [List.getLast?_eq_head?_reverse] at final ⊢
  generalize tokens.reverse = tokensBack at turned final
  generalize pieces.reverse = piecesBack at turned
  cases turned with
  | nil => cases final
  | cons head =>
    obtain rfl := Option.some_inj.mp final
    exact ⟨_, rfl, head⟩

/-- A line that is refused underlines what it is refused for. -/
theorem Statement.underlines_of_refused {line : String} {diagnostic : Diagnostic}
    (refused : Statement.ofLine line = .error diagnostic) {pieces : List Piece}
    (munch : Munch [] (body line.toList) pieces) :
    ∃ span column width, diagnostic.span = some span ∧
      Underlines pieces diagnostic.cause span column width := by
  have judged : Judged pieces (scan 0 (body line.toList)) :=
    munch.judged_scan (semicolon_not_mem_body _)
  rw [harmless_body.scan_eq] at judged
  rw [Statement.ofLine, tokensOfLine] at refused
  cases scanned : scan 0 line.toList with
  | error mistake =>
    rw [scanned] at judged refused
    obtain ⟨sound, bad, more, cause, rfl, -, offends, rfl⟩ := judged
    obtain rfl := Except.error.inj refused
    exact ⟨bad.span, _, _, rfl, .wrong (List.mem_append_right _ List.mem_cons_self) offends⟩
  | ok tokens =>
    rw [scanned] at judged refused
    have points := Points.ofTokens tokens
    replace refused : Statement.ofTokens tokens = .error diagnostic := refused
    rw [refused] at points
    cases points with
    | token member about =>
      obtain ⟨piece, listed, same, denotes⟩ := exists_piece_of_mem judged _ member
      refine ⟨piece.span, _, _, congrArg some same, .token listed ?_ denotes about⟩
      exact munch.lexeme_of_denotes piece listed _ denotes
    | ending final =>
      obtain ⟨piece, last, same, denotes⟩ := exists_last_piece judged final
      refine ⟨.behind piece.span.hi, _, _, ?_, .ending last denotes rfl⟩
      rw [same]
      rfl

/-- What lies in the body of a line lies in the line. -/
theorem Tiles.inside_line {line : List Char} {pieces : List Piece}
    (tiles : Tiles [] (body line) pieces) :
    ∀ piece ∈ pieces, piece.text ≠ [] ∧ piece.before ++ piece.text <+: line := by
  intro piece member
  obtain ⟨something, -, within⟩ := tiles.inside piece member
  exact ⟨something, within.trans (List.takeWhile_prefix _)⟩

/-- The carets stand under what a mistake underlines. -/
theorem Underlines.caretRange_eq {line : String} {pieces : List Piece} {cause : Cause} {span : Span}
    {column width : Nat} (underlines : Underlines pieces cause span column width)
    (inside : ∀ piece ∈ pieces, piece.text ≠ [] ∧ piece.before ++ piece.text <+: line.toList) :
    caretRange line span = (column, width) := by
  cases underlines with
  | wrong member | token member =>
    obtain ⟨something, within⟩ := inside _ member
    exact caretRange_piece within something
  | @ending last _ _ final =>
    obtain ⟨-, rest, parts⟩ := inside last (List.mem_of_getLast? final)
    have place : last.span.hi = Utf8.width (last.before ++ last.text) :=
      (Utf8.width_append _ _).symm
    rw [place]
    exact caretRange_behind parts.symm

/-! ### The lines that reports show -/

theorem getElem?_numberPieces (number offset : Nat) (pieces : List (List Char)) (index : Nat) :
    (numberPieces number offset pieces)[index]? = pieces[index]?.map fun piece =>
      ⟨(number + index : Nat), offset + piecesWidth (pieces.take index),
        String.ofList (dropReturn piece)⟩ := by
  induction pieces generalizing number offset index with
  | nil => rfl
  | cons piece rest inductionHypothesis =>
    cases index with
    | zero => rfl
    | succ index =>
      rw [numberPieces, List.getElem?_cons_succ, List.getElem?_cons_succ, inductionHypothesis,
        List.take_succ_cons, piecesWidth, piecesWidth, List.map_cons, List.sum_cons,
        Nat.add_assoc number, Nat.add_comm 1 index, Nat.add_assoc offset, Nat.add_assoc]

/-- What is wrong with a source is wrong with one of its lines. -/
theorem exists_line_of_misreading {source : String} {diagnostics : List Diagnostic}
    (failed : Program.ofSource source = .error diagnostics) :
    ∀ diagnostic ∈ diagnostics, ∃ (number : Nat) (line : String) (mistake : Diagnostic),
      (source.toList.splitOn '\n')[number]?.map dropReturn = some line.toList ∧
        Statement.ofLine line = .error mistake ∧ diagnostic = mistake.onLine line number := by
  intro diagnostic member
  have listed : diagnostic ∈ Program.misreadings source := by
    rwa [Program.misreadings, failed]
  rw [Program.misreadings_eq, survey_eq] at listed
  obtain ⟨line, known, mistaken⟩ := List.mem_filterMap.mp listed
  obtain ⟨number, found⟩ := List.getElem?_of_mem known
  rw [physicalLines, getElem?_numberPieces] at found
  obtain ⟨piece, cut, rfl⟩ := Option.map_eq_some_iff.mp found
  rw [Nat.zero_add] at mistaken
  simp only [Function.comp, Entry.ofLine] at mistaken
  cases refused : Statement.ofLine (String.ofList (dropReturn piece)) with
  | ok statement =>
    rw [refused] at mistaken
    cases mistaken
  | error mistake =>
    rw [refused] at mistaken
    refine ⟨number, _, mistake, ?_, refused, (Option.some_inj.mp mistaken).symm⟩
    rw [cut, Option.map_some, String.toList_ofList]

/-! ### Reports -/

/-- A line as a report shows it, behind its number, and below it carets behind a gutter of the same
width. -/
def underlinedRows (number : Int) (line : String) (column width : Nat) : List String :=
  let gutter := toString (number + 1)
  [gutter ++ " | " ++ line,
    Text.repeated gutter.length ' ' ++ " | " ++ Text.repeated column ' ' ++
      Text.repeated width '^']

/-- The mistake is about a line of the source, and its report underlines there what it is about. -/
structure Diagnostic.Underlined (diagnostic : Diagnostic) (source : String) (number : Nat)
    (line : String) (pieces : List Piece) (span : Span) (column width : Nat) : Prop where
  physical : (source.toList.splitOn '\n')[number]?.map dropReturn = some line.toList
  shown : diagnostic.lineNumber = some (number : Int) ∧ diagnostic.lineText = some line
  munch : Munch [] (body line.toList) pieces
  inside : ∀ piece ∈ pieces, piece.text ≠ [] ∧ piece.before ++ piece.text <+: line.toList
  spanned : diagnostic.span = some span
  underlines : Underlines pieces diagnostic.cause span column width
  rendered : ∃ notes, diagnostic.render false =
    "\n".intercalate
      (("error: " ++ diagnostic.cause.message) :: underlinedRows number line column width ++ notes)

/-- A report without colours shows the line and the carets, and notes below them. -/
theorem Diagnostic.render_plain {diagnostic : Diagnostic} {number : Int} {line : String}
    {span : Span} {column width : Nat} (numbered : diagnostic.lineNumber = some number)
    (written : diagnostic.lineText = some line) (spanned : diagnostic.span = some span)
    (carets : caretRange line span = (column, width)) :
    ∃ notes, diagnostic.render false =
      "\n".intercalate (("error: " ++ diagnostic.cause.message) ::
        underlinedRows number line column width ++ notes) := by
  have excerpt : diagnostic.excerpt false = underlinedRows number line column width := by
    simp only [excerpt, spanned, written, carets, gutter, numbered, dressedIf, underlinedRows,
      String.append_assoc]
    rfl
  refine ⟨diagnostic.cause.notes.map (diagnostic.noteLine false) ++ [""], ?_⟩
  rw [render, excerpt, List.append_assoc]
  rfl

/-- The report of every mistake in the lines of a source underlines what the mistake is about. It
shows the line of the source that has its number, and below it carets. They stand under a lexeme or
under a character that begins none, or under whatever follows the last token if the line ends too
early; and they stand under just its characters, while its span is just its bytes. -/
theorem reports_underline_mistakes {source : String} {diagnostics : List Diagnostic}
    (failed : Program.ofSource source = .error diagnostics) :
    ∀ diagnostic ∈ diagnostics, ∃ number line pieces span column width,
      diagnostic.Underlined source number line pieces span column width := by
  intro diagnostic member
  obtain ⟨number, line, mistake, physical, refused, rfl⟩ :=
    exists_line_of_misreading failed diagnostic member
  obtain ⟨pieces, munch⟩ := Munch.exists_pieces [] (body line.toList)
  obtain ⟨span, column, width, spanned, underlines⟩ := Statement.underlines_of_refused refused munch
  have inside := munch.tiles.inside_line
  exact ⟨number, line, pieces, span, column, width, physical, ⟨rfl, rfl⟩, munch, inside, spanned,
    underlines, Diagnostic.render_plain rfl rfl spanned (underlines.caretRange_eq inside)⟩

/-- A blank of two bytes behind the last token is cut by the span and takes one column, and so does
each character of a name that takes two bytes. -/
theorem reports_underline_wide_characters :
    let source := "ldi\u00a0;é\nstop\u00a0größe"
    let early : Diagnostic :=
      ⟨.unexpectedEnd .literalOrIdent, some ⟨3, 4, by decide⟩, some "ldi\u00a0;é", some 0⟩
    let late : Diagnostic :=
      ⟨.trailingToken (.identifier "größe") false, some ⟨6, 13, by decide⟩,
        some "stop\u00a0größe", some 1⟩
    Program.ofSource source = .error [early, late] ∧
      early.excerpt false = ["1 | ldi\u00a0;é", "  |    ^"] ∧
      late.excerpt false = ["2 | stop\u00a0größe", "  |      ^^^^^"] ∧
      ∀ diagnostic ∈ [early, late], ∃ number line pieces span column width,
        diagnostic.Underlined source number line pieces span column width := by
  intro source early late
  have read : (Program.ofSource source, early.excerpt false, late.excerpt false) =
      (.error [early, late], ["1 | ldi\u00a0;é", "  |    ^"],
        ["2 | stop\u00a0größe", "  |      ^^^^^"]) := by
    decide +kernel
  obtain ⟨failed, shown⟩ := Prod.mk.inj read
  obtain ⟨shownEarly, shownLate⟩ := Prod.mk.inj shown
  exact ⟨failed, shownEarly, shownLate, reports_underline_mistakes failed⟩

end Octet
