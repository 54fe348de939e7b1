/-
This file shows that the lines written for decoded bytes spell the statements
that these bytes stand for. A comment behind a statement says what is known
about its operands; it may hold any text without a line feed, because a
semicolon and a blank keep it apart from the statement. No line holds a blank
other than the space, unless it is in a name that a comment tells.
-/

import Octet.Proofs.Decoding
import Octet.Proofs.Naming
import Octet.Proofs.Reading

namespace Octet

open Character

/-! ### Operands and comments -/

theorem describeOperand_fst (names labels : AddressNames) (operand : Operand) (byte : UInt8) :
    (describeOperand names labels operand byte).1 = (Arg.meant labels operand byte).text := by
  unfold describeOperand Arg.meant Operand.pointsTo? Arg.text
  cases labels.find? byte.toNat with
  | none => cases operand <;> rfl
  | some label => cases operand <;> rfl

/-- The operands of an instruction are written as the arguments that its bytes stand for. -/
theorem describeOperands_fst (names labels : AddressNames) (opcode : Opcode)
    (bytes : List UInt8) :
    (describeOperands names labels opcode bytes).1 =
      " ".intercalate ((Arg.allMeant labels opcode.operands bytes).map Arg.text) := by
  simp only [describeOperands, Arg.allMeant, List.map_map]
  refine congrArg _ (List.map_congr_left fun slot _ => ?_)
  exact describeOperand_fst names labels slot.1 slot.2

/-- A blank other than the space: a character that ends lines or moves the print position. -/
def IsBreak (c : Char) : Prop :=
  isBlank c = true ∧ c ≠ ' '

theorem isBreak_lineFeed : IsBreak '\n' :=
  ⟨rfl, by decide⟩

theorem isBreak_return : IsBreak '\r' :=
  ⟨rfl, by decide⟩

theorem not_mem_intercalate {c : Char} (separator : String) (texts : List String)
    (parted : c ∉ separator.toList) (whole : ∀ text ∈ texts, c ∉ text.toList) :
    c ∉ (separator.intercalate texts).toList := by
  induction texts with
  | nil => exact List.not_mem_nil
  | cons text rest inductionHypothesis =>
    rw [List.forall_mem_cons] at whole
    by_cases last : rest = []
    · rw [last, String.intercalate_singleton]
      exact whole.1
    · rw [String.intercalate_cons_of_ne_nil last, String.toList_append, String.toList_append]
      simp only [List.mem_append, not_or]
      exact ⟨⟨whole.1, parted⟩, inductionHypothesis whole.2⟩

/-- Of the printable characters of ASCII only the space is a blank. -/
theorem not_isBreak_of_isGraphic {byte : UInt8} (graphic : Text.isGraphic byte = true) :
    ¬IsBreak (Char.ofNat byte.toNat) := by
  have checked : ∀ code < 256, 0x20 ≤ code → code < 0x7F →
      isBlank (Char.ofNat code) = true → Char.ofNat code = ' ' := by
    decide +kernel
  rw [Text.isGraphic, Bool.and_eq_true, decide_eq_true_iff, decide_eq_true_iff,
    UInt8.le_iff_toNat_le, UInt8.lt_iff_toNat_lt] at graphic
  exact fun breaks =>
    breaks.2 (checked byte.toNat byte.toNat_lt graphic.1 graphic.2 breaks.1)

/-- A comment shows a printable character, or it is the name of the address. -/
theorem describeOperand_snd {names labels : AddressNames} {operand : Operand} {byte : UInt8}
    {text : String} (member : text ∈ (describeOperand names labels operand byte).2) :
    (Text.isGraphic byte = true ∧
      text = "'" ++ String.singleton (Char.ofNat byte.toNat) ++ "'") ∨
      names.find? byte.toNat = some text := by
  unfold describeOperand at member
  cases operand with
  | value =>
    by_cases graphic : Text.isGraphic byte = true
    · simp only [Operand.meaning, if_pos graphic] at member
      exact Or.inl ⟨graphic, (Option.some_inj.mp member).symm⟩
    · simp only [Operand.meaning, if_neg graphic] at member
      cases member
  | source | destination | target =>
    cases known : labels.find? byte.toNat with
    | some label =>
      rw [known] at member
      cases member
    | none =>
      rw [known] at member
      exact Or.inr member

/-- The comment on some operands holds a break only if a name does. -/
theorem break_not_mem_comment {names : AddressNames} {c : Char} (breaks : IsBreak c)
    (whole : ∀ pair ∈ names, c ∉ pair.2.toList) (labels : AddressNames) (opcode : Opcode)
    (bytes : List UInt8) : c ∉ (describeOperands names labels opcode bytes).2.toList := by
  have parted : c ∉ ", ".toList := by
    intro member
    have either : c = ',' ∨ c = ' ' := by simpa using member
    rcases either with rfl | space
    · exact absurd breaks.1 (by decide)
    · exact breaks.2 space
  refine not_mem_intercalate _ _ parted fun text member => ?_
  obtain ⟨described, listed, same⟩ := List.mem_filterMap.mp member
  obtain ⟨⟨operand, byte⟩, _, rfl⟩ := List.mem_map.mp listed
  rcases describeOperand_snd same with ⟨graphic, rfl⟩ | named
  · have other : c ≠ Char.ofNat byte.toNat := by
      rintro rfl
      exact not_isBreak_of_isGraphic graphic breaks
    have quote : c ∉ "'".toList := by
      intro member
      rcases List.mem_singleton.mp member with rfl
      exact absurd breaks.1 (by decide)
    rw [String.toList_append, String.toList_append, String.toList_singleton]
    simp only [List.mem_append, List.mem_singleton, not_or]
    exact ⟨⟨quote, other⟩, quote⟩
  · exact whole _ (AddressNames.mem_of_find? named)

/-! ### The lines for decoded bytes -/

theorem Token.text_ne_empty {token : Token} (proper : token.Proper) : token.text ≠ "" := by
  cases token with
  | dot | colon | bracketOpen | bracketClose => decide
  | identifier name =>
    intro empty
    have spelled : spellsName name.toList = true := proper
    rw [show name = "" from empty] at spelled
    cases spelled
  | literal value =>
    intro empty
    exact absurd (String.append_eq_empty_iff.mp empty).1 (by decide)

theorem Arg.text_ne_empty {arg : Arg} (proper : ∀ token ∈ arg.tokens, token.Proper) :
    arg.text ≠ "" := by
  unfold Arg.tokens at proper
  unfold Arg.text
  by_cases bracketed : arg.bracketed = true
  · rw [if_pos bracketed]
    intro empty
    have opened := (String.append_eq_empty_iff.mp empty).1
    exact absurd (String.append_eq_empty_iff.mp opened).1 (by decide)
  · rw [if_neg bracketed] at proper ⊢
    rw [← Content.text_token]
    exact Token.text_ne_empty (proper _ List.mem_cons_self)

/-- A mnemonic and the operands behind it are the text of an instruction. -/
theorem joined_eq_text (held : Instruction)
    (proper : ∀ token ∈ (Statement.instruction held).tokens, token.Proper) :
    joined held.opcode.mnemonic (" ".intercalate (held.args.map Arg.text)) = held.text := by
  rw [Instruction.text]
  cases listed : held.args with
  | nil => exact String.intercalate_singleton.symm
  | cons arg rest =>
    have argProper : ∀ token ∈ arg.tokens, token.Proper := by
      intro token spelled
      refine proper token (List.mem_cons_of_mem _ (List.mem_flatMap.mpr ⟨arg, ?_, spelled⟩))
      rw [listed]
      exact List.mem_cons_self
    have something : " ".intercalate ((arg :: rest).map Arg.text) ≠ "" := by
      have first := Arg.text_ne_empty argProper
      rw [List.map_cons]
      by_cases last : rest.map Arg.text = []
      · rwa [last, String.intercalate_singleton]
      · rw [String.intercalate_cons_of_ne_nil last]
        intro empty
        exact first (String.append_eq_empty_iff.mp (String.append_eq_empty_iff.mp empty).1).1
    have filled : (arg :: rest).map Arg.text ≠ [] := List.cons_ne_nil _ _
    rw [joined, String.isEmpty_eq_false_iff.mpr something, String.intercalate_cons_of_ne_nil filled]
    rfl

theorem parted_blanks (count : Nat) {text : List Char} (parted : Parted text) :
    Parted (List.replicate count ' ' ++ text) := by
  cases count with
  | zero => exact parted
  | succ count => exact parted_space _

/-- The line that shows a statement behind four blanks, and a comment on it if there is any. -/
def shownLine (statement comment : String) : String :=
  "    " ++ (if comment.isEmpty then statement
    else Text.padRight 16 statement ++ " ; " ++ comment)

theorem toList_shownLine (statement comment : String) :
    (shownLine statement comment).toList =
      List.replicate 4 ' ' ++ (statement.toList ++
        if comment.isEmpty then [] else
          List.replicate (16 - statement.length) ' ' ++ ' ' :: ';' :: ' ' :: comment.toList) := by
  rw [shownLine, String.toList_append]
  refine congrArg (List.replicate 4 ' ' ++ ·) ?_
  by_cases silent : comment.isEmpty = true
  · rw [if_pos silent, if_pos silent, List.append_nil]
  · rw [if_neg silent, if_neg silent, Text.padRight, Text.repeated]
    simp

/-- What is shown of a statement is read as the tokens that spell it. -/
theorem scans_shownLine {statement : Statement}
    (proper : ∀ token ∈ statement.tokens, token.Proper) (comment : String) :
    Scans (shownLine statement.text comment).toList statement.tokens := by
  rw [toList_shownLine, ← List.append_nil statement.tokens]
  refine Scans.blanks 4 ?_
  by_cases silent : comment.isEmpty = true
  · rw [if_pos silent]
    exact Scans.statement statement proper parted_nil Scans.nil
  · rw [if_neg silent]
    refine Scans.statement statement proper (parted_blanks _ (parted_space _)) ?_
    exact Scans.blanks _ (Scans.blank isBlank_space (Scans.comment _))

/-- What is shown of a statement holds a break only if the comment on it does. -/
theorem break_not_mem_shownLine {statement : Statement} {c : Char} (breaks : IsBreak c)
    (proper : ∀ token ∈ statement.tokens, token.Proper) {comment : String}
    (single : c ∉ comment.toList) : c ∉ (shownLine statement.text comment).toList := by
  have body : c ∉ statement.text.toList := fun member =>
    breaks.2 (Statement.space_of_isBlank proper member breaks.1)
  have semicolon : c ≠ ';' := by
    rintro rfl
    exact absurd breaks.1 (by decide)
  rw [toList_shownLine]
  by_cases silent : comment.isEmpty = true
  · rw [if_pos silent]
    simp [body, breaks.2]
  · rw [if_neg silent]
    simp [body, single, breaks.2, semicolon]

theorem Arg.bracketed_allMeant (labels : AddressNames) (operands : List Operand)
    (bytes : List UInt8) :
    ∀ slot ∈ operands.zip (Arg.allMeant labels operands bytes),
      slot.2.bracketed = true → slot.1.meaning = .cell := by
  induction operands generalizing bytes with
  | nil => exact fun slot none => absurd none List.not_mem_nil
  | cons operand rest inductionHypothesis =>
    cases bytes with
    | nil => exact fun slot none => absurd none List.not_mem_nil
    | cons byte bytes =>
      intro slot member
      rcases List.mem_cons.mp member with rfl | later
      · exact of_decide_eq_true
      · exact inductionHypothesis bytes slot later

section

variable {names labels : AddressNames} {decoded : Decoded}

theorem byte_proper (byte : UInt8) : Token.Proper (.literal byte.toNat) :=
  ⟨Int.natCast_nonneg _, Int.ofNat_le.mpr (Nat.le_of_lt_succ byte.toNat_lt)⟩

theorem Arg.meant_proper
    (proper : ∀ address name, labels.find? address = some name → IsName name) (operand : Operand)
    (byte : UInt8) : ∀ token ∈ (Arg.meant labels operand byte).tokens, token.Proper := by
  have content : (Arg.meant labels operand byte).content.token.Proper := by
    unfold Arg.meant
    cases points : operand.pointsTo? labels byte with
    | none => exact byte_proper byte
    | some label => exact proper _ label (Operand.find?_of_pointsTo? points)
  unfold Arg.tokens
  by_cases bracketed : (Arg.meant labels operand byte).bracketed = true
  · rw [if_pos bracketed]
    exact List.forall_mem_cons.mpr ⟨trivial, List.forall_mem_cons.mpr
      ⟨content, List.forall_mem_singleton.mpr trivial⟩⟩
  · rw [if_neg bracketed]
    exact List.forall_mem_singleton.mpr content

/-- The statements that decoded bytes stand for can be written in a program. -/
theorem Decoded.meant_spellable (whole : decoded.Whole)
    (proper : ∀ address name, labels.find? address = some name → IsName name) :
    ∀ statement ∈ decoded.meant labels, statement.Spellable := by
  intro statement member
  rcases List.mem_append.mp member with labelled | body
  · obtain ⟨name, rfl, found⟩ := Decoded.mem_labelMeant labelled
    have named : IsName name := proper _ name found
    exact ⟨List.forall_mem_cons.mpr ⟨trivial, List.forall_mem_cons.mpr
      ⟨named, List.forall_mem_singleton.mpr trivial⟩⟩, trivial⟩
  · cases found : decoded.opcode? with
    | none =>
      rw [decoded.codeMeant_bytes labels found] at body
      obtain ⟨byte, _, rfl⟩ := List.mem_map.mp body
      exact ⟨List.forall_mem_cons.mpr ⟨trivial, List.forall_mem_cons.mpr
        ⟨isName_byte, List.forall_mem_singleton.mpr (byte_proper byte)⟩⟩, trivial⟩
    | some opcode =>
      obtain ⟨complete, meant⟩ := whole.codeMeant_instruction labels found
      rw [meant, List.mem_singleton] at body
      rw [body]
      refine ⟨fun token spelled => ?_, Arg.bracketed_allMeant labels _ _⟩
      rcases List.mem_cons.mp spelled with rfl | operand
      · exact isName_mnemonic opcode
      · obtain ⟨arg, listed, inArg⟩ := List.mem_flatMap.mp operand
        obtain ⟨slot, _, rfl⟩ := List.mem_map.mp listed
        exact Arg.meant_proper proper slot.1 slot.2 token inArg

/-- The comment that stands behind decoded bytes. -/
def Decoded.remark (names labels : AddressNames) (decoded : Decoded) : String :=
  match decoded.opcode? with
  | none => ""
  | some opcode => (describeOperands names labels opcode decoded.operandBytes).2

/-- The lines for decoded bytes show the statements that these bytes stand for. -/
theorem Decoded.statements_eq (whole : decoded.Whole)
    (proper : ∀ address name, labels.find? address = some name → IsName name) :
    decoded.statements names labels =
      (decoded.labelMeant labels).map Statement.text ++
        (decoded.codeMeant labels).map fun statement =>
          shownLine statement.text (decoded.remark names labels) := by
  unfold Decoded.statements
  refine congr (congrArg _ ?_) ?_
  · unfold Decoded.labelMeant
    cases labels.find? decoded.address <;> rfl
  cases found : decoded.opcode? with
  | none =>
    rw [decoded.codeMeant_bytes labels found, List.map_map]
    refine List.map_congr_left fun byte _ => ?_
    simp only [Function.comp_apply, Decoded.remark, found]
    show "    .byte " ++ _ = "    " ++ (".byte " ++ Text.dollarHex byte.toNat)
    rw [← String.append_assoc]
    rfl
  | some opcode =>
    obtain ⟨complete, meant⟩ := whole.codeMeant_instruction labels found
    have written := (Decoded.meant_spellable whole proper _
      (List.mem_append_right _ (meant ▸ List.mem_singleton_self _))).proper
    have statement := joined_eq_text _ written
    simp only at statement
    simp only [meant, Decoded.remark, found, describeOperands_fst names, statement]
    rfl

/-- The lines for decoded bytes spell the statements that these bytes stand for. -/
theorem Decoded.spells_statements (whole : decoded.Whole) (names : AddressNames)
    (proper : ∀ address name, labels.find? address = some name → IsName name) :
    Spells ((decoded.statements names labels).map String.toList) (decoded.meant labels) := by
  have written := Decoded.meant_spellable whole proper
  rw [statements_eq whole proper, List.map_append]
  refine (Spells.shown _ _ fun statement member => ?_).append
    (Spells.shown _ _ fun statement member => ?_)
  · have spellable := written statement (List.mem_append_left _ member)
    exact ⟨spellable.bracketed, spellable.scans⟩
  · have spellable := written statement (List.mem_append_right _ member)
    exact ⟨spellable.bracketed, scans_shownLine spellable.proper _⟩

/-- The lines for decoded bytes hold no break, whatever names stand in their comments, if these hold
none. -/
theorem Decoded.break_not_mem_statements (whole : decoded.Whole) {c : Char} (breaks : IsBreak c)
    (single : ∀ pair ∈ names, c ∉ pair.2.toList)
    (proper : ∀ address name, labels.find? address = some name → IsName name) :
    ∀ line ∈ decoded.statements names labels, c ∉ line.toList := by
  intro line member
  have written := Decoded.meant_spellable whole proper
  have silent : c ∉ (decoded.remark names labels).toList := by
    unfold Decoded.remark
    cases decoded.opcode? with
    | none => exact List.not_mem_nil
    | some opcode => exact break_not_mem_comment breaks single labels opcode _
  rw [statements_eq whole proper] at member
  rcases List.mem_append.mp member with labelled | body
  · obtain ⟨statement, listed, rfl⟩ := List.mem_map.mp labelled
    have spellable := written statement (List.mem_append_left _ listed)
    exact fun inside =>
      breaks.2 (Statement.space_of_isBlank spellable.proper inside breaks.1)
  · obtain ⟨statement, listed, rfl⟩ := List.mem_map.mp body
    have spellable := written statement (List.mem_append_right _ listed)
    exact break_not_mem_shownLine breaks spellable.proper silent

/-- The lines for all that was decoded spell the statements that it stands for. -/
theorem Decoded.spells_all (names : AddressNames) {decoded : List Decoded}
    (whole : ∀ one ∈ decoded, one.Whole)
    (proper : ∀ address name, labels.find? address = some name → IsName name) :
    Spells ((decoded.flatMap (Decoded.statements names labels)).map String.toList)
      (decoded.flatMap (Decoded.meant labels)) := by
  induction decoded with
  | nil => exact .nil
  | cons one rest inductionHypothesis =>
    rw [List.forall_mem_cons] at whole
    rw [List.flatMap_cons, List.flatMap_cons, List.map_append]
    exact (spells_statements whole.1 names proper).append (inductionHypothesis whole.2)

end

end Octet
