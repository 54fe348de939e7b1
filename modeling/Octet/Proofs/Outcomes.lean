/-
This file shows that assembling a text has two outcomes. It results in code, or
in a list of mistakes that is not empty; and nothing that it relies on without a
check ever fails.

What can fail is left partial in the guarded assembler. While a text is read, no
operation breaks down. While a program is encoded, it is the count of places
that has to be right: the place of an emission is the length of its code, so
zeros are filled in up to a place that is not in front of it.

A source is UTF-8 text, and so are the sources that assembling is about. Code
points that are no text can be handed over all the same. They have no encoding,
because there is a surrogate among them, and at the first one assembling breaks
down.

The mistakes of a source that cannot be read come one per line, in the order of
the lines, and each has a span that ends within its line or just behind.
-/

import Octet.Proofs.Mistakes
import Octet.Proofs.Underlining
import Octet.Proofs.Unbroken

namespace Octet

namespace Guarded

/-! ### Encoding does not break down -/

theorem sizeOf_eq (statement : Statement) : sizeOf statement = .ok statement.size := by
  cases statement with
  | label name span => rfl
  | byte value => rfl
  | instruction held =>
    rw [sizeOf, lookup_operandTable]
    rfl

theorem placeFrom_eq (address : Nat) (program : Program) :
    placeFrom address program = .ok (program.placedFrom address, address + program.size) := by
  induction program generalizing address with
  | nil => rfl
  | cons entry rest inductionHypothesis =>
    rw [placeFrom, sizeOf_eq, ok_bind, inductionHypothesis, ok_bind, Program.size, Nat.add_assoc]
    rfl

/-- The first definition of a name is looked up only if there is one. -/
theorem define_eq (labels : Labels) (placed : List Placed) :
    define labels placed = .ok (labels.collect placed) := by
  induction placed generalizing labels with
  | nil => rfl
  | cons head rest inductionHypothesis =>
    obtain ⟨address, ⟨statement, line⟩⟩ := head
    cases statement with
    | label name place =>
      simp only [define, Labels.collect]
      cases found : labels.find? name with
      | none =>
        rw [if_neg ((labels.find?_eq_none_iff name).mp found)]
        exact inductionHypothesis _
      | some first =>
        have listed : name ∈ labels.map Label.name :=
          Decidable.not_not.mp fun unlisted => by
            rw [(labels.find?_eq_none_iff name).mpr unlisted] at found
            cases found
        rw [if_pos listed, labelNamed, found, ok_bind, inductionHypothesis]
        rfl
    | byte value => exact inductionHypothesis _
    | instruction held => exact inductionHypothesis _

theorem resolve_follows (labels : Labels) (arg : Arg) :
    Follows (· = ·) (resolve labels arg) (labels.resolve arg) := by
  obtain ⟨content, span, bracketed⟩ := arg
  cases content with
  | value number => exact .done rfl
  | label name =>
    simp only [resolve, Labels.resolve]
    cases labels.find? name with
    | none =>
      simp only [suggestions_eq, ok_bind]
      exact .mistaken _
    | some label =>
      by_cases inside : label.address < memorySize
      · simp only [if_pos inside]
        exact .done rfl
      · simp only [if_neg inside]
        exact .mistaken _

theorem mapM_resolve_follows (labels : Labels) (args : List Arg) :
    Follows (· = ·) (args.mapM (resolve labels)) (args.mapM labels.resolve) := by
  induction args with
  | nil => exact .done rfl
  | cons arg rest inductionHypothesis =>
    rw [List.mapM_cons, List.mapM_cons]
    refine (resolve_follows labels arg).bind_eq fun number => ?_
    refine inductionHypothesis.bind_eq fun numbers => ?_
    exact .done rfl

theorem encode_follows (labels : Labels) (statement : Statement) :
    Follows (· = ·) (encode labels statement) (labels.encode statement) := by
  cases statement with
  | label name span => exact .done rfl
  | byte value => exact .done rfl
  | instruction held =>
    refine (mapM_resolve_follows labels held.args).bind_eq fun numbers => ?_
    exact .done rfl

/-- The place of an emission is behind its last byte. -/
def Level (emission : Emission) : Prop :=
  emission.code.length = emission.position

/-- An entry is emitted without a breakdown, and the emission stays level. -/
theorem emit_eq {emission : Emission} (level : Level emission) (labels : Labels) (entry : Entry) :
    emit labels emission entry = .ok (emission.emit labels entry) ∧
      Level (emission.emit labels entry) := by
  rw [emit, (encode_follows labels entry.statement).caught_eq, ok_bind, Emission.emit]
  cases labels.encode entry.statement with
  | ok bytes =>
    refine ⟨rfl, ?_⟩
    simp only [Level, Emission.lay, Emission.note, List.length_append] at level ⊢
    rw [level]
  | error mistake =>
    have filling : zeros (((emission.position + entry.statement.size : Nat) : Int) -
        emission.code.length) =
          .ok (List.replicate
            (emission.position + entry.statement.size - emission.code.length) 0) := by
      have known := level
      rw [Level] at known
      have enough : (0 : Int) ≤ ((emission.position + entry.statement.size : Nat) : Int) -
          emission.code.length := by omega
      rw [zeros, if_pos enough, ← Int.toNat_sub]
    simp only [sizeOf_eq, ok_bind, filling]
    refine ⟨rfl, ?_⟩
    simp only [Level, Emission.fillTo, Emission.report, Emission.note, List.length_append,
      List.length_replicate] at level ⊢
    omega

theorem foldlM_emit_eq (labels : Labels) {emission : Emission} (level : Level emission)
    (program : Program) :
    program.foldlM (emit labels) emission =
      .ok (program.foldl (Emission.emit labels) emission) := by
  induction program generalizing emission with
  | nil => rfl
  | cons entry rest inductionHypothesis =>
    obtain ⟨emitted, still⟩ := emit_eq level labels entry
    rw [List.foldlM_cons, emitted, ok_bind, List.foldl_cons]
    exact inductionHypothesis still

theorem imageOf_eq (program : Program) : imageOf program = .ok (Image.ofProgram program) := by
  rw [imageOf, placeFrom_eq, ok_bind, Nat.zero_add]
  simp only [define_eq, foldlM_emit_eq _ (show Level .empty from rfl), ok_bind]
  rfl

/-- Nothing breaks down while a text is assembled, and the outcome is the same. -/
theorem assemble_text (source : String) :
    assemble (points source) = .ok (Octet.assemble source) := by
  rw [assemble, points, splitOn_text, readPieces_text, ← physicalLines, ← survey_eq, ok_bind]
  have read := Program.ofSource_eq source
  cases surveyed : Program.survey source with
  | mk program mistakes =>
    rw [surveyed] at read
    cases mistakes with
    | nil =>
      rw [if_pos rfl] at read
      simp only [imageOf_eq, ok_bind, Octet.assemble, Session.fresh.assemble_of_parsed read]
    | cons first others =>
      rw [if_neg (List.cons_ne_nil _ _)] at read
      simp only [Octet.assemble, Session.assemble, read]

/-- There is no outcome if there is a surrogate behind some text. -/
theorem assemble_surrogate (text : String) (index : Fin 0x800) (rest : List Point) :
    assemble (points text ++ .surrogate index :: rest) = .error (.breakdown (.noBytes index)) := by
  obtain ⟨pieces, front, back, others, cut⟩ := splitOn_surrogate text.toList index rest
  rw [assemble, points, cut, readPieces_surrogate]
  rfl

/-- What stands in a comment is not scanned, but its bytes are counted. -/
example : assemble [.character ';', .surrogate 0] = .error (.breakdown (.noBytes 0)) :=
  assemble_surrogate ";" 0 []

end Guarded

/-! ### What is wrong with the lines of a source -/

/-- A mistake is about a line: it has the number and the text of the line, and a span that ends
within the line or one byte behind. -/
structure Diagnostic.About (diagnostic : Diagnostic) (line : PhysicalLine) : Prop where
  numbered : diagnostic.lineNumber = some line.number
  shown : diagnostic.lineText = some line.text
  spanned : ∃ span, diagnostic.span = some span ∧ span.lo ≤ span.hi ∧
    span.hi ≤ Utf8.width line.text.toList + 1

/-- What a mistake underlines ends within the line or one byte behind. -/
theorem Underlines.hi_le {line : List Char} {pieces : List Piece} {cause : Cause} {span : Span}
    {column width : Nat} (underlines : Underlines pieces cause span column width)
    (inside : ∀ piece ∈ pieces, piece.text ≠ [] ∧ piece.before ++ piece.text <+: line) :
    span.hi ≤ Utf8.width line + 1 := by
  have within : ∀ piece ∈ pieces, piece.span.hi ≤ Utf8.width line := by
    intro piece member
    have front := width_le_of_front (inside piece member).2
    rwa [Utf8.width_append] at front
  cases underlines with
  | wrong member | token member => exact Nat.le_succ_of_le (within _ member)
  | ending final => exact Nat.succ_le_succ (within _ (List.mem_of_getLast? final))

/-- A mistake that a line yields is about the line. -/
theorem Diagnostic.about_of_mistakeOf? {line : PhysicalLine} {diagnostic : Diagnostic}
    (mistaken : mistakeOf? (Entry.ofLine line) = some diagnostic) : diagnostic.About line := by
  rw [Entry.ofLine] at mistaken
  cases refused : Statement.ofLine line.text with
  | ok statement =>
    rw [refused] at mistaken
    cases mistaken
  | error mistake =>
    rw [refused] at mistaken
    obtain rfl := Option.some_inj.mp mistaken
    obtain ⟨pieces, munch⟩ := Munch.exists_pieces [] (body line.text.toList)
    obtain ⟨span, column, width, spanned, underlines⟩ :=
      Statement.underlines_of_refused refused munch
    exact ⟨rfl, rfl, span, spanned, span.ordered, underlines.hi_le munch.tiles.inside_line⟩

/-- The lines of a source have increasing numbers. -/
theorem pairwise_lt_numbers (source : String) :
    (physicalLines source).Pairwise fun first second => first.number < second.number := by
  have numbers : ((physicalLines source).map PhysicalLine.number).Pairwise (· < ·) := by
    rw [physicalLines, map_number_numberPieces]
    exact List.pairwise_map.mpr ((List.pairwise_lt_range' 1).imp Int.ofNat_lt.mpr)
  exact List.pairwise_map.mp numbers

/-- One mistake is on a line in front of that of another. -/
def Diagnostic.InFront (first second : Diagnostic) : Prop :=
  ∃ before after, first.lineNumber = some before ∧ second.lineNumber = some after ∧ before < after

theorem pairwise_inFront_survey (source : String) :
    (Program.survey source).2.Pairwise Diagnostic.InFront := by
  rw [survey_eq]
  refine List.pairwise_filterMap.mpr ((pairwise_lt_numbers source).imp ?_)
  intro line another further first yieldsFirst second yieldsSecond
  exact ⟨line.number, another.number, (Diagnostic.about_of_mistakeOf? yieldsFirst).numbered,
    (Diagnostic.about_of_mistakeOf? yieldsSecond).numbered, further⟩

/-! ### Two outcomes -/

/-- A source that cannot be assembled has at least one mistake. -/
theorem ne_nil_of_assemble {source : String} {diagnostics : List Diagnostic}
    (failed : assemble source = .error diagnostics) : diagnostics ≠ [] := by
  rw [assemble] at failed
  cases read : Program.ofSource source with
  | ok program =>
    rw [Session.fresh.assemble_of_parsed read] at failed
    exact ((Image.result_eq_error_iff _ _).mp failed).1
  | error mistakes =>
    simp only [Session.assemble, read, Except.error.injEq] at failed
    have misread := (Program.ofSource_error_iff source).mp ⟨mistakes, read⟩
    rwa [Program.misreadings, read, failed] at misread

end Octet
