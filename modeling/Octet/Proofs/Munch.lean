/-
This file says what the lexemes of a line are, without regard to how they are
found: which characters make a lexeme, which lexeme is the longest that a text
begins with, and how a text is taken apart by skipping blanks and otherwise
taking the longest lexeme.

There is exactly one way to take a text apart like this. Its pieces lie in the
text one behind the other, and what lies between them is blank.
-/

import Octet.Proofs.Lexing
import Octet.Proofs.Utf8

namespace Octet

open Character

/-! ### Lexemes -/

/-- The characters that are a lexeme by themselves. -/
def delimiters : List Char :=
  ['.', ':', '[', ']']

/-- The digits that a literal is written with. -/
def literalDigits : List Char :=
  "0123456789abcdefABCDEF".toList

/-- The characters that make a lexeme: a delimiter, a dollar sign and any number of hexadecimal
digits, or a letter or an underscore and any number of letters and numbers. -/
inductive Lexeme : List Char → Prop
  | delimiter {mark : Char} (listed : mark ∈ delimiters) : Lexeme [mark]
  | literal {digits : List Char} (hexadecimal : ∀ digit ∈ digits, digit ∈ literalDigits) :
      Lexeme ('$' :: digits)
  | name {first : Char} {rest : List Char} (opens : first = '_' ∨ isAlphabetic first = true)
      (continued : ∀ c ∈ rest, isAlphanumeric c = true) : Lexeme (first :: rest)

/-- The lexeme is the longest that the text begins with. -/
structure Longest (lexeme text : List Char) : Prop where
  made : Lexeme lexeme
  front : lexeme <+: text
  most : ∀ other, Lexeme other → other <+: text → other.length ≤ lexeme.length

theorem isHexDigit_iff {c : Char} : isHexDigit c = true ↔ c ∈ literalDigits := by
  constructor
  · intro digit
    have checked : ∀ code < 128,
        isHexDigit (Char.ofNat code) = true → Char.ofNat code ∈ literalDigits := by
      decide +kernel
    have found := checked c.toNat (small_of_isHexDigit digit)
    rw [Char.ofNat_toNat] at found
    exact found digit
  · have checked : literalDigits.all isHexDigit = true := by decide +kernel
    exact List.all_eq_true.mp checked c

/-- The characters that a lexeme begins with. -/
def OpensLexeme (c : Char) : Prop :=
  c ∈ delimiters ∨ c = '$' ∨ opensName c = true

theorem opensName_iff {c : Char} : opensName c = true ↔ c = '_' ∨ isAlphabetic c = true := by
  rw [opensName, Bool.or_eq_true, decide_eq_true_iff]

theorem mem_marks_of_mem_delimiters {c : Char} (listed : c ∈ delimiters) : c ∈ marks := by
  simp only [delimiters, marks, List.mem_cons, List.not_mem_nil, or_false] at listed ⊢
  tauto

theorem continues_delimiter {mark : Char} (listed : mark ∈ delimiters) (c : Char) :
    continues mark c = false := by
  have alone : mark ≠ '$' := by
    rintro rfl
    exact absurd listed (by decide)
  rw [continues, if_neg alone,
    if_neg (Bool.eq_false_iff.mp (apart_of_mem_marks (mem_marks_of_mem_delimiters listed)).2.2)]

/-- A lexeme is a character that begins one, and characters that continue it. -/
theorem lexeme_cons_iff {first : Char} {tail : List Char} :
    Lexeme (first :: tail) ↔ OpensLexeme first ∧ ∀ c ∈ tail, continues first c = true := by
  constructor
  · intro lexeme
    cases lexeme with
    | delimiter listed => exact ⟨Or.inl listed, fun c none => absurd none List.not_mem_nil⟩
    | literal hexadecimal =>
      exact ⟨Or.inr (Or.inl rfl), fun c member => isHexDigit_iff.mpr (hexadecimal c member)⟩
    | name opens continued =>
      have opens := opensName_iff.mpr opens
      exact ⟨Or.inr (Or.inr opens), fun c member => by rw [continues_eq opens, continued c member]⟩
  · rintro ⟨listed | rfl | opens, continued⟩
    · cases tail with
      | nil => exact .delimiter listed
      | cons c rest =>
        have further := continued c List.mem_cons_self
        rw [continues_delimiter listed] at further
        cases further
    · exact .literal fun digit member => isHexDigit_iff.mp (continued digit member)
    · rw [continues_eq opens] at continued
      exact .name (opensName_iff.mp opens) continued

theorem Lexeme.ne_nil {lexeme : List Char} (made : Lexeme lexeme) : lexeme ≠ [] := by
  cases made <;> exact List.cons_ne_nil _ _

theorem isBlank_of_opensLexeme {c : Char} (opens : OpensLexeme c) : isBlank c = false := by
  rcases opens with listed | rfl | opens
  · exact (apart_of_mem_marks (mem_marks_of_mem_delimiters listed)).1
  · exact (apart_of_mem_marks (by simp [marks])).1
  · exact isBlank_of_opensName opens

theorem ne_semicolon_of_opensLexeme {c : Char} (opens : OpensLexeme c) : c ≠ ';' := by
  rcases opens with listed | rfl | opens
  · rintro rfl
    exact absurd listed (by decide)
  · decide
  · exact ne_of_opensName opens (by simp [marks])

/-- A text that begins with a lexeme begins with a character that begins one. -/
theorem opensLexeme_of_front {lexeme text : List Char} {c : Char} (made : Lexeme lexeme)
    (front : lexeme <+: c :: text) : OpensLexeme c := by
  cases lexeme with
  | nil => exact absurd rfl made.ne_nil
  | cons first tail =>
    obtain ⟨rfl, _⟩ := List.cons_prefix_cons.mp front
    exact (lexeme_cons_iff.mp made).1

theorem lexeme_singleton {c : Char} : Lexeme [c] ↔ OpensLexeme c := by
  rw [lexeme_cons_iff]
  exact and_iff_left fun c none => absurd none List.not_mem_nil

/-! ### The longest lexeme -/

theorem prefix_takeWhile {tail text : List Char} {holds : Char → Bool} (front : tail <+: text)
    (all : ∀ c ∈ tail, holds c = true) : tail <+: text.takeWhile holds := by
  obtain ⟨rest, rfl⟩ := front
  rw [List.takeWhile_append_of_pos all]
  exact List.prefix_append _ _

/-- The longest lexeme goes as far as characters continue it. -/
theorem longest_takeWhile {first : Char} (opens : OpensLexeme first) (text : List Char) :
    Longest (first :: text.takeWhile (continues first)) (first :: text) := by
  refine ⟨lexeme_cons_iff.mpr ⟨opens, List.all_eq_true.mp List.all_takeWhile⟩,
    List.cons_prefix_cons.mpr ⟨rfl, List.takeWhile_prefix _⟩, fun other made front => ?_⟩
  cases other with
  | nil => exact Nat.zero_le _
  | cons start tail =>
    obtain ⟨rfl, further⟩ := List.cons_prefix_cons.mp front
    exact Nat.succ_le_succ (prefix_takeWhile further (lexeme_cons_iff.mp made).2).length_le

namespace Longest

variable {lexeme other text : List Char}

theorem unique (longest : Longest lexeme text) (otherLongest : Longest other text) :
    lexeme = other := by
  have shorter := otherLongest.most lexeme longest.made longest.front
  have longer := longest.most other otherLongest.made otherLongest.front
  exact (List.prefix_of_prefix_length_le longest.front otherLongest.front shorter).eq_of_length
    (Nat.le_antisymm shorter longer)

/-- Where the longest lexeme begins and ends, and what it leaves. -/
theorem cons_cases (longest : Longest lexeme text) :
    ∃ first rest, text = first :: rest ∧ OpensLexeme first ∧
      lexeme = first :: rest.takeWhile (continues first) ∧
      text.drop lexeme.length = rest.dropWhile (continues first) := by
  cases text with
  | nil => exact absurd (List.prefix_nil.mp longest.front) longest.made.ne_nil
  | cons first rest =>
    have opens := opensLexeme_of_front longest.made longest.front
    obtain rfl := longest.unique (longest_takeWhile opens rest)
    refine ⟨first, rest, rfl, opens, rfl, ?_⟩
    rw [List.length_cons, List.drop_succ_cons]
    exact (congrArg (List.drop _) List.takeWhile_append_dropWhile.symm).trans List.drop_left

end Longest

/-! ### Taking a text apart -/

/-- Some characters of a line, and all those in front of them. -/
structure Piece where
  before : List Char
  text : List Char
deriving DecidableEq

/-- The bytes that a piece takes in the encoding of its line. -/
def Piece.span (piece : Piece) : Span :=
  ⟨Utf8.width piece.before, Utf8.width piece.before + Utf8.width piece.text, Nat.le_add_right _ _⟩

/-- Takes a text apart that stands behind some other. A blank is skipped; otherwise the longest
lexeme is a piece, and where no lexeme begins, a single character is. -/
inductive Munch : (before text : List Char) → List Piece → Prop
  | done (before : List Char) : Munch before [] []
  | blank {before text : List Char} {c : Char} {pieces : List Piece} (blank : isBlank c = true)
      (further : Munch (before ++ [c]) text pieces) : Munch before (c :: text) pieces
  | lexeme {before text lexeme : List Char} {pieces : List Piece} (longest : Longest lexeme text)
      (further : Munch (before ++ lexeme) (text.drop lexeme.length) pieces) :
      Munch before text (⟨before, lexeme⟩ :: pieces)
  | other {before text : List Char} {c : Char} {pieces : List Piece} (visible : isBlank c = false)
      (strange : ∀ lexeme, Lexeme lexeme → ¬lexeme <+: c :: text)
      (further : Munch (before ++ [c]) text pieces) :
      Munch before (c :: text) (⟨before, [c]⟩ :: pieces)

namespace Munch

variable {before text : List Char} {pieces others : List Piece}

/-- Every text can be taken apart. -/
theorem exists_pieces (before text : List Char) : ∃ pieces, Munch before text pieces := by
  -- by the length of the text, for a lexeme takes away more than one character
  induction length : text.length using Nat.strongRecOn generalizing before text with
  | ind count inductionHypothesis =>
    cases text with
    | nil => exact ⟨[], .done before⟩
    | cons c rest =>
      have shorter : rest.length < count := length ▸ Nat.lt_succ_self _
      obtain ⟨pieces, further⟩ := inductionHypothesis _ shorter (before ++ [c]) rest rfl
      cases blank : isBlank c with
      | true => exact ⟨pieces, .blank blank further⟩
      | false =>
        by_cases opens : OpensLexeme c
        · have longest := longest_takeWhile opens rest
          have less :
              ((c :: rest).drop (c :: rest.takeWhile (continues c)).length).length < count := by
            rw [List.length_drop, ← length, List.length_cons, List.length_cons]
            omega
          obtain ⟨later, further⟩ := inductionHypothesis _ less (before ++ _) _ rfl
          exact ⟨_, .lexeme longest further⟩
        · exact ⟨_, .other blank (fun lexeme made front =>
            opens (opensLexeme_of_front made front)) further⟩

/-- A blank is not where a lexeme begins. -/
theorem not_longest_of_isBlank {c : Char} {lexeme : List Char} (blank : isBlank c = true) :
    ¬Longest lexeme (c :: text) := by
  intro longest
  rw [isBlank_of_opensLexeme (opensLexeme_of_front longest.made longest.front)] at blank
  cases blank

/-- There is only one way to take a text apart. -/
theorem unique (munch : Munch before text pieces) (other : Munch before text others) :
    pieces = others := by
  induction munch generalizing others with
  | done before =>
    cases other with
    | done => rfl
    | lexeme longest => exact absurd (List.prefix_nil.mp longest.front) longest.made.ne_nil
  | blank blank _ inductionHypothesis =>
    cases other with
    | blank _ further => exact inductionHypothesis further
    | lexeme longest => exact absurd longest (not_longest_of_isBlank blank)
    | other visible => exact absurd blank (Bool.eq_false_iff.mp visible)
  | lexeme longest _ inductionHypothesis =>
    cases other with
    | done => exact absurd (List.prefix_nil.mp longest.front) longest.made.ne_nil
    | blank blank => exact absurd longest (not_longest_of_isBlank blank)
    | lexeme otherLongest further =>
      obtain rfl := longest.unique otherLongest
      rw [inductionHypothesis further]
    | other _ strange => exact absurd longest.front (strange _ longest.made)
  | other visible strange _ inductionHypothesis =>
    cases other with
    | blank blank => exact absurd blank (Bool.eq_false_iff.mp visible)
    | lexeme longest => exact absurd longest.front (strange _ longest.made)
    | other _ _ further => rw [inductionHypothesis further]

end Munch

/-! ### Where the pieces lie -/

/-- How pieces lie in a text that stands behind some other: each within it, one behind the other,
and so that whatever is not blank belongs to one of them. -/
structure Tiles (before text : List Char) (pieces : List Piece) : Prop where
  inside : ∀ piece ∈ pieces, piece.text ≠ [] ∧ before <+: piece.before ∧
    piece.before ++ piece.text <+: before ++ text
  ordered : pieces.Pairwise fun first second => first.before ++ first.text <+: second.before
  covers : ∀ front c back, text = front ++ c :: back → isBlank c = false →
    ∃ piece ∈ pieces, piece.before <+: before ++ front ∧
      before ++ front ++ [c] <+: piece.before ++ piece.text

namespace Tiles

variable {before text rest : List Char} {pieces : List Piece}

theorem nil (before : List Char) : Tiles before [] [] := by
  refine ⟨fun _ none => absurd none List.not_mem_nil, List.Pairwise.nil,
    fun front c back parted => ?_⟩
  exact absurd parted.symm (List.append_ne_nil_of_right_ne_nil _ (List.cons_ne_nil _ _))

theorem blank {c : Char} (blank : isBlank c = true) (tiles : Tiles (before ++ [c]) rest pieces) :
    Tiles before (c :: rest) pieces := by
  refine ⟨fun piece member => ?_, tiles.ordered, fun front d back parted visible => ?_⟩
  · obtain ⟨something, behind, within⟩ := tiles.inside piece member
    refine ⟨something, (List.prefix_append _ _).trans behind, ?_⟩
    rwa [List.append_assoc] at within
  · cases front with
    | nil =>
      obtain ⟨rfl, rfl⟩ := List.cons.inj parted
      exact absurd blank (Bool.eq_false_iff.mp visible)
    | cons head front =>
      obtain ⟨rfl, behind⟩ := List.cons.inj parted
      have covered := tiles.covers front d back behind visible
      simpa only [List.append_assoc, List.cons_append, List.nil_append] using covered

/-- A piece lies in front of those that come behind it. -/
theorem piece (something : text ≠ []) (tiles : Tiles (before ++ text) rest pieces) :
    Tiles before (text ++ rest) (⟨before, text⟩ :: pieces) := by
  refine ⟨List.forall_mem_cons.mpr ⟨?_, fun piece member => ?_⟩,
    List.pairwise_cons.mpr ⟨fun piece member => (tiles.inside piece member).2.1, tiles.ordered⟩,
    fun front c back parted visible => ?_⟩
  · refine ⟨something, List.prefix_refl _, ?_⟩
    rw [← List.append_assoc]
    exact List.prefix_append _ _
  · obtain ⟨something, behind, within⟩ := tiles.inside piece member
    refine ⟨something, (List.prefix_append _ _).trans behind, ?_⟩
    rwa [List.append_assoc] at within
  · -- a character behind the piece belongs to a later one
    have later : ∀ between, front = text ++ between → rest = between ++ c :: back →
        ∃ piece ∈ (⟨before, text⟩ :: pieces : List Piece), piece.before <+: before ++ front ∧
          before ++ front ++ [c] <+: piece.before ++ piece.text := by
      rintro between rfl behind
      obtain ⟨piece, member, covered⟩ := tiles.covers between c back behind visible
      rw [List.append_assoc before] at covered
      exact ⟨piece, List.mem_cons_of_mem _ member, covered⟩
    rcases List.append_eq_append_iff.mp parted with ⟨between, behind, same⟩ | ⟨inner, parts, same⟩
    · exact later between behind same
    · cases inner with
      | nil => exact later [] (by rw [parts]; simp) same.symm
      | cons d inner =>
        obtain ⟨rfl, -⟩ := List.cons.inj same
        refine ⟨_, List.mem_cons_self, List.prefix_append _ _, ?_⟩
        exact ⟨inner, by simp [parts]⟩

end Tiles

/-- The pieces of a text tile it. -/
theorem Munch.tiles {before text : List Char} {pieces : List Piece}
    (munch : Munch before text pieces) : Tiles before text pieces := by
  induction munch with
  | done before => exact .nil before
  | blank blank _ inductionHypothesis => exact inductionHypothesis.blank blank
  | lexeme longest _ inductionHypothesis =>
    obtain ⟨rest, rfl⟩ := longest.front
    rw [List.drop_left] at inductionHypothesis
    exact inductionHypothesis.piece longest.made.ne_nil
  | other _ _ _ inductionHypothesis => exact inductionHypothesis.piece (List.cons_ne_nil _ _)

end Octet
