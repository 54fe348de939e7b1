/-
This file shows that colour is lost on whatever is not a terminal. A report may
quote any text, and such a text may hold control sequences and beginnings of
them. Undressing the report removes the sequences that dress it together with
those that the text brought, and it is to be shown that the two kinds never mix:
that no beginning in a text goes on in a sequence that dresses it.

Behind its escape character a sequence consists of a bracket, of parameters and
of a letter. A style begins with an escape character and every row of a report
ends with a line feed, neither of which is any of these. So what comes behind a
quoted text in a report never completes a sequence that the text began.
-/

import Octet.Diagnostic.Render
import Octet.Proofs.Printing

namespace Octet

namespace Text

/-! ### Control sequences -/

/-- A control sequence: an escape character, a bracket, parameters and a letter. -/
def ControlSequence (sequence : List Char) : Prop :=
  ∃ (parameters : List Char) (letter : Char),
    sequence = '\x1b' :: '[' :: (parameters ++ [letter]) ∧
      (∀ c ∈ parameters, isParameter c = true) ∧ letter.isAlpha = true

/-- A character that no control sequence has behind its first. -/
def Stops (c : Char) : Prop :=
  c ≠ '[' ∧ isParameter c = false ∧ c.isAlpha = false

instance (c : Char) : Decidable (Stops c) :=
  inferInstanceAs (Decidable (_ ∧ _))

theorem ControlSequence.exists_tail {sequence : List Char} (control : ControlSequence sequence) :
    ∃ tail, sequence = '\x1b' :: tail ∧ ∀ c ∈ tail, ¬Stops c := by
  obtain ⟨parameters, letter, rfl, digits, alpha⟩ := control
  refine ⟨_, rfl, fun c member stops => ?_⟩
  rcases List.mem_cons.mp member with rfl | behind
  · exact stops.1 rfl
  rcases List.mem_append.mp behind with parameter | final
  · exact Bool.false_ne_true (stops.2.1.symm.trans (digits c parameter))
  · rw [List.mem_singleton.mp final] at stops
    exact Bool.false_ne_true (stops.2.2.symm.trans alpha)

/-- A letter is no parameter. -/
theorem isParameter_of_isAlpha {letter : Char} (alpha : letter.isAlpha = true) :
    isParameter letter = false := by
  have letters : (decide (letter.val ≥ 'A'.val ∧ letter.val ≤ 'Z'.val) ||
      decide (letter.val ≥ 'a'.val) && decide (letter.val ≤ 'z'.val)) = true := alpha
  have digit : letter.isDigit = false := by
    simp only [Char.isDigit, Bool.or_eq_true, Bool.and_eq_true, decide_eq_true_eq,
      Bool.and_eq_false_iff, decide_eq_false_iff_not, ge_iff_le,
      UInt32.le_iff_toNat_le] at letters ⊢
    have nine : '9'.val.toNat = 57 := rfl
    have capital : 'A'.val.toNat = 65 := rfl
    have small : 'a'.val.toNat = 97 := rfl
    omega
  rw [isParameter, digit, Bool.or_false, Bool.or_eq_false_iff, decide_eq_false_iff_not,
    decide_eq_false_iff_not]
  constructor <;> rintro rfl <;> exact absurd alpha (by decide)

/-- The characters behind an escape character that make up a sequence are counted. -/
theorem sequenceLength_eq {parameters : List Char} {letter : Char} (rest : List Char)
    (digits : ∀ c ∈ parameters, isParameter c = true) (alpha : letter.isAlpha = true) :
    sequenceLength ('[' :: (parameters ++ letter :: rest)) = parameters.length + 2 := by
  have stop : ¬isParameter letter = true := by
    rw [isParameter_of_isAlpha alpha]
    exact Bool.false_ne_true
  rw [sequenceLength, List.dropWhile_append_of_pos digits, List.dropWhile_cons_of_neg stop,
    List.takeWhile_append_of_pos digits, List.takeWhile_cons_of_neg stop, List.append_nil]
  exact if_pos alpha

/-- Characters are counted only where they make up a sequence. -/
theorem exists_parts_of_ne_zero {rest : List Char} (counted : sequenceLength rest ≠ 0) :
    ∃ (parameters : List Char) (letter : Char) (others : List Char),
      rest = '[' :: (parameters ++ letter :: others) ∧
        (∀ c ∈ parameters, isParameter c = true) ∧ letter.isAlpha = true := by
  unfold sequenceLength at counted
  split at counted
  · next behind =>
    cases left : behind.dropWhile isParameter with
    | nil =>
      rw [left] at counted
      exact absurd rfl counted
    | cons letter others =>
      simp only [left] at counted
      have whole : behind.takeWhile isParameter ++ letter :: others = behind := by
        rw [← left, List.takeWhile_append_dropWhile]
      have digits : ∀ c ∈ behind.takeWhile isParameter, isParameter c = true :=
        List.all_eq_true.mp List.all_takeWhile
      by_cases alpha : letter.isAlpha = true
      · exact ⟨_, letter, others, congrArg ('[' :: ·) whole.symm, digits, alpha⟩
      · exact absurd (if_neg alpha) counted
  · exact absurd rfl counted

/-! ### Taking the sequences out -/

/-- What is left of a text when its control sequences are taken out in one pass from the left. -/
inductive Undressed : List Char → List Char → Prop
  | nil : Undressed [] []
  | sequence {front rest left : List Char} (control : ControlSequence front)
      (further : Undressed rest left) : Undressed (front ++ rest) left
  | character {c : Char} {rest left : List Char}
      (single : ∀ front, ControlSequence front → ¬front <+: c :: rest)
      (further : Undressed rest left) : Undressed (c :: rest) (c :: left)

/-- A sequence at the beginning is taken out. -/
theorem plainChars_sequence {front : List Char} (control : ControlSequence front)
    (rest : List Char) : plainChars (front ++ rest) = plainChars rest := by
  obtain ⟨parameters, letter, rfl, digits, alpha⟩ := control
  have behind : '[' :: (parameters ++ [letter]) ++ rest =
      '[' :: (parameters ++ letter :: rest) := by
    rw [List.cons_append, List.append_assoc]
    rfl
  have counted := sequenceLength_eq rest digits alpha
  have length : ('[' :: (parameters ++ [letter])).length = parameters.length + 2 := by
    rw [List.length_cons, List.length_append, List.length_singleton]
  have dropped : ('[' :: (parameters ++ letter :: rest)).drop (parameters.length + 2) = rest := by
    rw [← behind, List.drop_left' length]
  rw [List.cons_append, behind, plainChars]
  simp only [if_true, counted, dropped]
  exact if_neg (Nat.succ_ne_zero _)

/-- A character stays where no sequence begins. -/
theorem plainChars_character {c : Char} {rest : List Char}
    (single : ∀ front, ControlSequence front → ¬front <+: c :: rest) :
    plainChars (c :: rest) = c :: plainChars rest := by
  have none : (if c = '\x1b' then sequenceLength rest else 0) = 0 := by
    by_cases escape : c = '\x1b'
    · rw [if_pos escape]
      refine Decidable.byContradiction fun counted => ?_
      obtain ⟨parameters, letter, others, rfl, digits, alpha⟩ := exists_parts_of_ne_zero counted
      refine single _ ⟨parameters, letter, rfl, digits, alpha⟩ ⟨others, ?_⟩
      rw [escape, List.cons_append, List.cons_append, List.append_assoc]
      rfl
    · exact if_neg escape
  rw [plainChars]
  exact if_pos none

/-- The sequences of every text can be taken out, and in one way. -/
theorem undressed_iff {text left : List Char} : Undressed text left ↔ left = plainChars text := by
  constructor
  · intro undressed
    induction undressed with
    | nil => rw [plainChars]
    | sequence control _ inductionHypothesis =>
      rw [plainChars_sequence control, inductionHypothesis]
    | character single _ inductionHypothesis =>
      rw [plainChars_character single, inductionHypothesis]
  · rintro rfl
    induction length : text.length using Nat.strongRecOn generalizing text with
    | ind size inductionHypothesis =>
    cases text with
    | nil =>
      rw [plainChars]
      exact .nil
    | cons c rest =>
      by_cases begins : ∃ front, ControlSequence front ∧ front <+: c :: rest
      · obtain ⟨front, control, others, parts⟩ := begins
        have shorter : others.length < size := by
          obtain ⟨tail, rfl, -⟩ := control.exists_tail
          rw [← length, ← parts, List.length_append, List.length_cons]
          omega
        rw [← parts, plainChars_sequence control]
        exact .sequence control (inductionHypothesis _ shorter rfl)
      · have single : ∀ front, ControlSequence front → ¬front <+: c :: rest :=
          fun front control within => begins ⟨front, control, within⟩
        have shorter : rest.length < size := by rw [← length, List.length_cons]; omega
        rw [plainChars_character single]
        exact .character single (inductionHypothesis _ shorter rfl)

/-- Texts are undressed one after the other if no sequence can go on in the second. -/
theorem Undressed.append {front back left right : List Char} (first : Undressed front left)
    (second : Undressed back right) (stops : ∀ c ∈ back.head?, Stops c) :
    Undressed (front ++ back) (left ++ right) := by
  induction first with
  | nil => exact second
  | sequence control _ inductionHypothesis =>
    rw [List.append_assoc]
    exact .sequence control inductionHypothesis
  | @character c rest _ single _ inductionHypothesis =>
    refine .character (fun sequence control within => ?_) inductionHypothesis
    rcases List.prefix_or_prefix_of_prefix within (List.prefix_append (c :: rest) back) with
      inside | ⟨more, parts⟩
    · exact single sequence control inside
    cases more with
    | nil =>
      rw [List.append_nil] at parts
      exact single sequence control (parts ▸ List.prefix_rfl)
    | cons d more =>
      -- A sequence that is longer than what stands in front holds the character that stops it.
      obtain ⟨others, whole⟩ := within
      have same : (c :: rest) ++ (d :: (more ++ others)) = (c :: rest) ++ back := by
        rw [← List.cons_append, ← List.append_assoc, parts, whole]
        rfl
      have head : d ∈ back.head? := by
        rw [← List.append_cancel_left same]
        rfl
      obtain ⟨tail, rfl, goesOn⟩ := control.exists_tail
      obtain ⟨-, rfl⟩ := List.cons.inj parts
      exact goesOn d (List.mem_append_right _ List.mem_cons_self) (stops d head)

/-- Nothing is taken out of characters none of which is an escape character. -/
theorem Undressed.bare {front back left : List Char} (bare : '\x1b' ∉ front)
    (further : Undressed back left) : Undressed (front ++ back) (front ++ left) := by
  induction front with
  | nil => exact further
  | cons c rest inductionHypothesis =>
    refine .character (fun sequence control within => ?_)
      (inductionHypothesis fun inside => bare (List.mem_cons_of_mem _ inside))
    obtain ⟨tail, rfl, -⟩ := control.exists_tail
    obtain ⟨others, same⟩ := within
    exact bare ((List.cons.inj same).1 ▸ List.mem_cons_self)

theorem stops_escape : Stops '\x1b' := by decide

theorem stops_lineFeed : Stops '\n' := by decide

theorem controlSequence_reset : ControlSequence "\x1b[0m".toList :=
  ⟨['0'], 'm', by decide, List.all_eq_true.mp rfl, rfl⟩

theorem controlSequence_bold : ControlSequence "\x1b[1m".toList :=
  ⟨['1'], 'm', by decide, List.all_eq_true.mp rfl, rfl⟩

theorem Colour.controlSequence (colour : Colour) : ControlSequence colour.sequence.toList := by
  cases colour with
  | red => exact ⟨['3', '1'], 'm', by decide, List.all_eq_true.mp rfl, rfl⟩
  | blue => exact ⟨['3', '4'], 'm', by decide, List.all_eq_true.mp rfl, rfl⟩

/-- A dressed text loses what dresses it, and what is left of the text itself is left. -/
theorem Undressed.bold {text left : List Char} (colour : Option Colour)
    (inner : Undressed text left) {back right : List Char} (further : Undressed back right) :
    Undressed ((Text.bold colour (String.ofList text)).toList ++ back) (left ++ right) := by
  have closed : Undressed (text ++ ("\x1b[0m".toList ++ back)) (left ++ right) :=
    inner.append (.sequence controlSequence_reset further) fun c head => by
      obtain rfl : '\x1b' = c := Option.some_inj.mp head
      exact stops_escape
  have opened := Undressed.sequence controlSequence_bold closed
  simp only [Text.bold, String.toList_append, String.toList_ofList, List.append_assoc]
  cases colour with
  | none => exact opened
  | some colour => exact .sequence colour.controlSequence opened

/-! ### Texts without their sequences -/

/-- A text that holds no escape character. -/
def Bare (text : String) : Prop :=
  '\x1b' ∉ text.toList

instance (text : String) : Decidable (Bare text) :=
  inferInstanceAs (Decidable (_ ∉ _))

theorem toList_plain (text : String) : (plain text).toList = plainChars text.toList :=
  String.toList_ofList

theorem undressed_plain (text : String) : Undressed text.toList (plain text).toList :=
  undressed_iff.mpr (toList_plain text)

theorem plain_eq {text left : String} (undressed : Undressed text.toList left.toList) :
    plain text = left := by
  rw [← String.toList_inj, toList_plain, undressed_iff.mp undressed]

theorem plain_bare_append {front : String} (bare : Bare front) (back : String) :
    plain (front ++ back) = front ++ plain back := by
  refine plain_eq ?_
  rw [String.toList_append, String.toList_append]
  exact (undressed_plain back).bare bare

theorem plain_of_bare {text : String} (bare : Bare text) : plain text = text := by
  have whole := Undressed.nil.bare bare
  rw [List.append_nil] at whole
  exact plain_eq whole

theorem plain_empty : plain "" = "" :=
  plain_of_bare List.not_mem_nil

theorem plain_bold_append (colour : Option Colour) (text back : String) :
    plain (bold colour text ++ back) = plain text ++ plain back := by
  have dressed := (undressed_plain text).bold colour (undressed_plain back)
  rw [String.ofList_toList] at dressed
  refine plain_eq ?_
  rwa [String.toList_append, String.toList_append]

/-- A line feed stops every sequence, and the rows of a text are undressed one by one. -/
theorem plain_lineFeed_append (front back : String) :
    plain (front ++ "\n" ++ back) = plain front ++ "\n" ++ plain back := by
  have feed : Undressed ("\n".toList ++ back.toList) ("\n".toList ++ (plain back).toList) :=
    (undressed_plain back).bare (by decide)
  refine plain_eq ?_
  rw [String.append_assoc, String.append_assoc, String.toList_append, String.toList_append,
    String.toList_append, String.toList_append]
  refine (undressed_plain front).append feed fun c head => ?_
  obtain rfl : '\n' = c := Option.some_inj.mp head
  exact stops_lineFeed

theorem plain_intercalate (rows : List String) :
    plain ("\n".intercalate rows) = "\n".intercalate (rows.map plain) := by
  induction rows with
  | nil => exact plain_empty
  | cons row rest inductionHypothesis =>
    by_cases last : rest = []
    · rw [last, List.map_cons, List.map_nil, String.intercalate_singleton,
        String.intercalate_singleton]
    · have others : rest.map plain ≠ [] := fun none => last (List.map_eq_nil_iff.mp none)
      rw [String.intercalate_cons_of_ne_nil last, plain_lineFeed_append, inductionHypothesis,
        List.map_cons, String.intercalate_cons_of_ne_nil others]

theorem plain_lineFeed (text : String) : plain (text ++ "\n") = plain text ++ "\n" := by
  have ended := plain_lineFeed_append text ""
  rwa [String.append_empty, plain_empty, String.append_empty] at ended

theorem bare_repeated (count : Nat) {filler : Char} (other : filler ≠ '\x1b') :
    Bare (repeated count filler) := by
  rw [Bare, repeated, String.toList_ofList]
  exact fun inside => other (List.eq_of_mem_replicate inside).symm

theorem bare_toString (number : Int) : Bare (toString number) := by
  have digits (magnitude : Nat) : Bare (toString magnitude) := fun inside =>
    absurd (isAlphanumeric_of_mem_toString magnitude '\x1b' inside) (by decide)
  cases number with
  | ofNat magnitude => exact digits magnitude
  | negSucc predecessor =>
    have sign : (toString (Int.negSucc predecessor)).toList =
        '-' :: (toString (predecessor + 1)).toList := String.toList_append
    rw [Bare, sign, List.mem_cons, not_or]
    exact ⟨by decide, digits (predecessor + 1)⟩

end Text

/-! ### Reports without their sequences -/

section

variable (dressed : Bool) (colour : Option Text.Colour)

theorem plain_dressedIf (text : String) :
    Text.plain (dressedIf dressed colour text) = Text.plain text := by
  cases dressed with
  | false => rfl
  | true =>
    have undressed := Text.plain_bold_append colour text ""
    rwa [String.append_empty, Text.plain_empty, String.append_empty] at undressed

theorem plain_dressedIf_append {text : String} (bare : Text.Bare text) (back : String) :
    Text.plain (dressedIf dressed colour text ++ back) = text ++ Text.plain back := by
  cases dressed with
  | false => exact Text.plain_bare_append bare back
  | true =>
    have undressed := Text.plain_bold_append colour text back
    rwa [Text.plain_of_bare bare] at undressed

end

namespace Diagnostic

theorem bare_gutter (diagnostic : Diagnostic) : Text.Bare diagnostic.gutter := by
  rw [gutter]
  cases diagnostic.lineNumber with
  | none => exact List.not_mem_nil
  | some number => exact Text.bare_toString (number + 1)

/-- The rows of a report that is not dressed, with something done to each text that it quotes. -/
def rows (diagnostic : Diagnostic) (quoted : String → String) : List String :=
  let margin := Text.repeated diagnostic.gutter.length ' '
  let excerpt :=
    match diagnostic.span, diagnostic.lineText with
    | some span, some line =>
      let (column, width) := caretRange line span
      [diagnostic.gutter ++ " " ++ "|" ++ " " ++ quoted line,
        margin ++ " " ++ "|" ++ " " ++ Text.repeated column ' ' ++ Text.repeated width '^']
    | _, _ => []
  ("error" ++ ": " ++ quoted diagnostic.cause.message) :: excerpt ++
    diagnostic.cause.notes.map (fun note => margin ++ " " ++ "= note:" ++ " " ++ quoted note) ++
      [""]

theorem render_false (diagnostic : Diagnostic) :
    diagnostic.render false = "\n".intercalate (diagnostic.rows id) := by
  have notes : diagnostic.noteLine false = fun note =>
      Text.repeated diagnostic.gutter.length ' ' ++ " " ++ "= note:" ++ " " ++ note := rfl
  rw [render, rows, excerpt, notes]
  cases diagnostic.span <;> cases diagnostic.lineText <;> rfl

/-- What is left of a report is the report on what is left of the texts that it quotes. -/
theorem plain_render (diagnostic : Diagnostic) (dressed : Bool) :
    Text.plain (diagnostic.render dressed) = "\n".intercalate (diagnostic.rows Text.plain) := by
  have colon : Text.Bare ": " := by decide
  have blank : Text.Bare " " := by decide
  have blanks (count : Nat) : Text.Bare (Text.repeated count ' ') :=
    Text.bare_repeated count (by decide)
  have carets (count : Nat) : Text.plain (Text.repeated count '^') = Text.repeated count '^' :=
    Text.plain_of_bare (Text.bare_repeated count (by decide))
  have error : Text.Bare "error" := by decide
  have bar : Text.Bare "|" := by decide
  have mark : Text.Bare "= note:" := by decide
  have notes : Text.plain ∘ diagnostic.noteLine dressed = fun note =>
      Text.repeated diagnostic.gutter.length ' ' ++ " " ++ "= note:" ++ " " ++ Text.plain note := by
    funext note
    simp only [Function.comp, noteLine, String.append_assoc, Text.plain_bare_append (blanks _),
      Text.plain_bare_append blank, plain_dressedIf_append dressed none mark]
  rw [render, Text.plain_intercalate, rows, excerpt]
  simp only [List.map_append, List.map_cons, List.map_nil, List.map_map, notes, Text.plain_empty,
    String.append_assoc, plain_dressedIf_append dressed _ error, Text.plain_bare_append colon,
    plain_dressedIf]
  cases diagnostic.span <;> cases diagnostic.lineText <;>
    simp only [List.map_cons, List.map_nil,
      plain_dressedIf_append dressed _ diagnostic.bare_gutter, Text.plain_bare_append blank,
      plain_dressedIf_append dressed _ bar, Text.plain_bare_append (blanks _), plain_dressedIf,
      carets]

/-- Nothing is taken out of a report if none of the texts that it quotes has an escape character. -/
theorem rows_of_bare {diagnostic : Diagnostic} (message : Text.Bare diagnostic.cause.message)
    (notes : ∀ note ∈ diagnostic.cause.notes, Text.Bare note)
    (line : ∀ line ∈ diagnostic.lineText, Text.Bare line) :
    diagnostic.rows Text.plain = diagnostic.rows id := by
  have noted (margin : String) :
      (diagnostic.cause.notes.map fun note =>
          margin ++ " " ++ "= note:" ++ " " ++ Text.plain note) =
        diagnostic.cause.notes.map fun note => margin ++ " " ++ "= note:" ++ " " ++ note :=
    List.map_congr_left fun note member => by rw [Text.plain_of_bare (notes note member)]
  rw [rows, rows, noted, Text.plain_of_bare message]
  cases written : diagnostic.lineText with
  | none => cases diagnostic.span <;> rfl
  | some text =>
    have same : Text.plain text = text := Text.plain_of_bare (line text written)
    cases diagnostic.span with
    | none => rfl
    | some span =>
      simp only [same]
      rfl

end Diagnostic

/-- Off a terminal a report reads the same whether or not it was dressed: its control sequences are
taken out, those of the texts that it quotes among them, and what is left does not tell the two
apart. If no quoted text has an escape character, what is left is the report without colours. -/
theorem coloured_reports_print_plain (diagnostic : Diagnostic) :
    diagnostic.emitted .automatic = diagnostic.emitted .never ∧
      (∃ text : String, diagnostic.emitted .automatic = text ++ "\n" ∧
        ∀ (dressed : Bool) (left : List Char),
          Text.Undressed (diagnostic.render dressed).toList left ↔ left = text.toList) ∧
      (Text.Bare diagnostic.cause.message →
        (∀ note ∈ diagnostic.cause.notes, Text.Bare note) →
        (∀ line ∈ diagnostic.lineText, Text.Bare line) →
          diagnostic.emitted .automatic = diagnostic.render false ++ "\n") := by
  have automatic : diagnostic.emitted .automatic = Text.plain (diagnostic.render true) ++ "\n" :=
    Text.plain_lineFeed _
  have never : diagnostic.emitted .never = Text.plain (diagnostic.render false) ++ "\n" :=
    Text.plain_lineFeed _
  have undressed (dressed : Bool) :
      Text.plain (diagnostic.render dressed) = Text.plain (diagnostic.render true) := by
    rw [diagnostic.plain_render, diagnostic.plain_render]
  refine ⟨?_, ⟨Text.plain (diagnostic.render true), automatic, fun dressed left => ?_⟩,
    fun message notes line => ?_⟩
  · rw [automatic, never, undressed false]
  · rw [Text.undressed_iff, ← undressed dressed, Text.toList_plain]
  · rw [automatic, diagnostic.plain_render, Diagnostic.rows_of_bare message notes line,
      diagnostic.render_false]

/-- Beginnings of sequences right in front of sequences that dress them stay what they are, and so
does a report in which nothing begins. -/
theorem coloured_reports_print_beginnings :
    let broken : Diagnostic :=
      ⟨.stated "a\x1b[3" ["\x1b[1mm\x1b"], some ⟨0, 2, by decide⟩, some "\x1b[", some 0⟩
    let bare : Diagnostic :=
      ⟨.stated "é" ["note"], some ⟨1, 3, by decide⟩, some "[ß", none⟩
    (broken.emitted .automatic = broken.emitted .never ∧
        broken.emitted .never = "error: a\x1b[3\n1 | \x1b[\n  | ^^\n  = note: m\x1b\n\n") ∧
      (Text.Bare bare.cause.message ∧ (∀ note ∈ bare.cause.notes, Text.Bare note) ∧
        ∀ line ∈ bare.lineText, Text.Bare line) ∧
      bare.emitted .automatic = bare.render false ++ "\n" := by
  intro broken bare
  have shown : broken.emitted .never =
      "error: a\x1b[3\n1 | \x1b[\n  | ^^\n  = note: m\x1b\n\n" := by decide +kernel
  have message : Text.Bare bare.cause.message := by decide
  have notes : ∀ note ∈ bare.cause.notes, Text.Bare note := by decide
  have line : ∀ line ∈ bare.lineText, Text.Bare line := by decide
  exact ⟨⟨(coloured_reports_print_plain broken).1, shown⟩, ⟨message, notes, line⟩,
    (coloured_reports_print_plain bare).2.2 message notes line⟩

end Octet
