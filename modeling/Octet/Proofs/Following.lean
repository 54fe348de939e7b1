/-
This file says what it means that work which may break down does not. It follows
a reading that cannot: it is done with the same value, or it finds the same
mistake, and there is no third way for it to end. Work that follows, one step
after the other, follows as a whole.

Single operations are shown to work on what they are given. Tables have entries
for all keys, of which there are finitely many, so a mistake can always be put
into words. Rows of distances have an entry for each ending of a text, so the
next row can be computed from each.
-/

import Octet.Assembly.Guarded

namespace Octet.Guarded

/-! ### Following -/

/-- Work follows a reading: both are done with alike values, or both find the same mistake. -/
inductive Follows {Found Value : Type} (alike : Found → Value → Prop) :
    Work Found → Except Diagnostic Value → Prop where
  | done {found : Found} {value : Value} (same : alike found value) :
      Follows alike (.ok found) (.ok value)
  | mistaken (diagnostic : Diagnostic) :
      Follows alike (.error (.mistake diagnostic)) (.error diagnostic)

section

variable {Found Value More Further : Type} {alike : Found → Value → Prop}
  {related : More → Further → Prop} {work : Work Found} {outcome : Except Diagnostic Value}

theorem Follows.bind {next : Found → Work More} {after : Value → Except Diagnostic Further}
    (follows : Follows alike work outcome)
    (others : ∀ found value, alike found value → Follows related (next found) (after value)) :
    Follows related (work >>= next) (outcome >>= after) := by
  cases follows with
  | done same => exact others _ _ same
  | mistaken diagnostic => exact .mistaken diagnostic

/-- Where both are done with the same value, both can go on from it. -/
theorem Follows.bind_eq {work : Work Value} {next : Value → Work More}
    {after : Value → Except Diagnostic Further} (follows : Follows (· = ·) work outcome)
    (others : ∀ value, Follows related (next value) (after value)) :
    Follows related (work >>= next) (outcome >>= after) := by
  refine follows.bind ?_
  rintro value _ rfl
  exact others value

/-- Work that follows a reading ends with what is read, and its mistakes can be caught. -/
theorem Follows.caught_eq {work : Work Value} (follows : Follows (· = ·) work outcome) :
    caught work = .ok outcome := by
  cases follows with
  | done same => rw [same]; rfl
  | mistaken diagnostic => rfl

end

theorem ok_bind {Found Value : Type} (found : Found) (next : Found → Work Value) :
    (.ok found >>= next) = next found := rfl

/-! ### Operations that are given what they can work on -/

theorem itemAt_eq {Item : Type} {items : List Item} {index : Nat} {found : Item}
    (listed : items[index]? = some found) : itemAt items index = .ok found := by
  have front : ¬(index : Int) < 0 := by omega
  simp only [itemAt, if_neg front, Int.toNat_natCast, listed]

theorem itemAt_zero {Item : Type} (first : Item) (rest : List Item) :
    itemAt (first :: rest) 0 = .ok first := rfl

theorem span_eq {lo hi : Nat} (ordered : lo ≤ hi) : span lo hi = .ok ⟨lo, hi, ordered⟩ := by
  have bounds : (0 : Int) ≤ lo ∧ (lo : Int) ≤ hi := by omega
  simp only [span, Span.ofBounds, dif_pos bounds, Int.toNat_natCast]
  rfl

theorem span_next (place : Nat) : span place (place + 1) = .ok (.behind place) :=
  span_eq (Nat.le_succ place)

theorem instruction_eq {opcode : Opcode} {args : List Arg}
    (complete : args.length = opcode.operands.length) :
    instruction opcode args = .ok ⟨opcode, args, complete⟩ := by
  rw [instruction, Instruction.ofArgs, dif_pos complete]
  rfl

theorem lookup_operandTable (opcode : Opcode) :
    lookup operandTable opcode = .ok opcode.operands := by
  cases opcode <;> rfl

theorem lookup_meaningTexts (meaning : Meaning) :
    lookup meaningTexts meaning = .ok meaning.text := by
  cases meaning <;> rfl

theorem lookup_mnemonics (word : String) : mnemonics.lookup word = Opcode.ofMnemonic? word := by
  rw [mnemonics, Opcode.ofMnemonic?]
  induction Opcode.all with
  | nil => rfl
  | cons opcode rest inductionHypothesis =>
    rw [List.map_cons, List.lookup_cons, List.find?_cons, inductionHypothesis, Bool.beq_comm]

theorem tokenText_eq (token : Token) : tokenText token = .ok token.text := by
  cases token <;> rfl

/-! ### Words -/

theorem length_precededRow {c : Char} {other : List Char} {row : List Nat}
    (complete : row.length = other.length + 1) :
    (Text.precededRow c other row).length = other.length + 1 := by
  induction other generalizing row with
  | nil => rw [Text.precededRow, List.length_map, complete]
  | cons d other inductionHypothesis =>
    obtain ⟨both, row, rfl⟩ := List.exists_cons_of_length_eq_add_one complete
    rw [Text.precededRow, List.length_cons, inductionHypothesis (Nat.succ.inj complete),
      List.length_cons]

/-- Every row has an entry for each ending, and so the next row can be computed. -/
theorem precededRow_eq {c : Char} {other : List Char} {row : List Nat}
    (complete : row.length = other.length + 1) :
    precededRow c other row = .ok (Text.precededRow c other row) := by
  induction other generalizing row with
  | nil => rfl
  | cons d other inductionHypothesis =>
    obtain ⟨both, row, rfl⟩ := List.exists_cons_of_length_eq_add_one complete
    have left : row.length = other.length + 1 := Nat.succ.inj complete
    obtain ⟨front, others, rfl⟩ := List.exists_cons_of_length_eq_add_one left
    have complete := length_precededRow (c := c) left
    have further := inductionHypothesis left
    rw [Text.precededRow]
    generalize Text.precededRow c other (front :: others) = shorter at complete further ⊢
    obtain ⟨behind, more, rfl⟩ := List.exists_cons_of_length_eq_add_one complete
    simp only [precededRow, itemAt_zero, List.tail_cons, further, List.headD_cons]
    by_cases same : c = d
    · simp only [if_pos same]
      rfl
    · simp only [if_neg same]
      rfl

theorem distanceRow_eq (text other : List Char) :
    distanceRow text other = .ok (Text.distanceRow text other) ∧
      (Text.distanceRow text other).length = other.length + 1 := by
  rw [distanceRow, Text.distanceRow]
  induction text with
  | nil => exact ⟨rfl, by rw [List.foldr_nil, List.length_reverse, List.length_range]⟩
  | cons c text inductionHypothesis =>
    obtain ⟨row, complete⟩ := inductionHypothesis
    rw [List.foldrM_cons, row, List.foldr_cons]
    exact ⟨precededRow_eq complete, length_precededRow complete⟩

theorem editDistance_eq (text other : String) :
    editDistance text other = .ok (Text.editDistance text other) := by
  obtain ⟨row, complete⟩ := distanceRow_eq text.toList other.toList
  rw [editDistance, row, Text.editDistance]
  obtain ⟨first, others, same⟩ := List.exists_cons_of_length_eq_add_one complete
  rw [same]
  rfl

theorem resembles_eq (name candidate : String) :
    resembles name candidate = .ok (Text.resembles name candidate) := by
  simp only [resembles, Text.resembles, editDistance_eq]
  by_cases same : Character.lowercase candidate = Character.lowercase name
  · rw [if_pos same, beq_iff_eq.mpr same, Bool.true_or]
  · rw [if_neg same, beq_eq_false_iff_ne.mpr same, Bool.false_or]
    by_cases near : candidate.length ≤ name.length + 1 ∧ name.length ≤ candidate.length + 1
    · rw [if_pos near, decide_eq_true near.1, decide_eq_true near.2]
      rfl
    · rw [if_neg near, ← Bool.decide_and, decide_eq_false near, Bool.false_and]

theorem suggestions_eq (name : String) (candidates : List String) :
    suggestions name candidates = .ok (Text.suggestions name candidates 3) := by
  have filtered : resembling name candidates = .ok (Text.resembling name candidates) := by
    induction candidates with
    | nil => rfl
    | cons candidate rest inductionHypothesis =>
      rw [resembling, resembles_eq, inductionHypothesis, Text.resembling, Text.resembling,
        List.filter_cons]
      rfl
  rw [suggestions, filtered]
  rfl

/-- A mistake is put into its own words, whatever has to be looked up for them. -/
theorem words_eq (cause : Cause) : words cause = .ok (cause.message, cause.notes) := by
  cases cause with
  | unexpectedAtStart found | unexpectedToken found expected | trailingToken found afterLabel =>
    simp only [words, tokenText_eq]
    rfl
  | unknownInstruction word =>
    have known : mnemonics.map Prod.fst = Opcode.all.map Opcode.mnemonic := by
      rw [mnemonics, List.map_map]
      rfl
    simp only [words, known, suggestions_eq]
    rfl
  | bracketsNotAllowed opcode operand =>
    simp only [words, lookup_meaningTexts]
    rfl
  | _ => rfl

/-- A complaint is heard, and nothing else happens. -/
theorem complain_eq {Value : Type} (place : Span) (cause : Cause) :
    (complain place cause : Work Value) = .error (.mistake (.atSpan place cause)) := by
  rw [complain, words_eq]
  rfl

end Octet.Guarded
