/-
This file shows what reading a program needs to know about characters. A blank
is neither a letter nor a number, so blanks part words. The digits of a
hexadecimal number are among the characters that continue a name, and reading
them gives the number back, however many zeros stand in front.
-/

import Octet.Assembly.Lexeme
import Octet.Opcode

namespace Octet

namespace Character

/-! ### Blanks part words -/

/-- The code points that some ranges hold, in order. -/
def Ranges.codes (ranges : Ranges) : List Nat :=
  ranges.flatMap fun (first, last) => List.range' first (last + 1 - first)

theorem Ranges.mem_codes_of_holds (ranges : Ranges) (code : Nat)
    (held : ranges.holds code = true) : code ∈ ranges.codes := by
  induction ranges with
  | nil => cases held
  | cons range higher inductionHypothesis =>
    obtain ⟨first, last⟩ := range
    rw [Ranges.codes, List.flatMap_cons, List.mem_append]
    rw [Ranges.holds] at held
    by_cases below : code < first
    · rw [if_pos below] at held
      cases held
    · rw [if_neg below] at held
      by_cases inside : code ≤ last
      · refine Or.inl (List.mem_range'_1.mpr ⟨Nat.le_of_not_lt below, ?_⟩)
        omega
      · rw [if_neg inside] at held
        exact Or.inr (inductionHypothesis held)

theorem blank_codes_part_words : ∀ code ∈ blankRanges.codes,
    (alphabeticRanges.holds code || numericRanges.holds code) = false := by
  decide +kernel

/-- A blank is neither a letter nor a number. -/
theorem isAlphanumeric_of_isBlank {c : Char} (blank : isBlank c = true) :
    isAlphanumeric c = false :=
  blank_codes_part_words _ (blankRanges.mem_codes_of_holds _ blank)

theorem isBlank_of_isAlphanumeric {c : Char} (alphanumeric : isAlphanumeric c = true) :
    isBlank c = false := by
  cases blank : isBlank c with
  | false => rfl
  | true => exact absurd alphanumeric (Bool.eq_false_iff.mp (isAlphanumeric_of_isBlank blank))

theorem isAlphanumeric_of_isAlphabetic {c : Char} (alphabetic : isAlphabetic c = true) :
    isAlphanumeric c = true := by
  rw [isAlphanumeric, alphabetic, Bool.true_or]

theorem isBlank_space : isBlank ' ' = true := rfl

theorem isBlank_lineFeed : isBlank '\n' = true := rfl

theorem isAlphanumeric_space : isAlphanumeric ' ' = false :=
  isAlphanumeric_of_isBlank isBlank_space

end Character

open Character

/-! ### Marks -/

/-- Characters that make a lexeme or open one, and the one that opens a comment. -/
def marks : List Char :=
  ['.', ':', '[', ']', '$', ';']

/-- A mark is neither a blank nor a part of a name. -/
theorem apart_of_mem_marks {c : Char} (mark : c ∈ marks) :
    isBlank c = false ∧ isAlphanumeric c = false ∧ opensName c = false := by
  have checked : marks.all (fun c =>
      isBlank c = false ∧ isAlphanumeric c = false ∧ opensName c = false) = true := by
    decide +kernel
  exact of_decide_eq_true (List.all_eq_true.mp checked c mark)

/-- A character that opens a name is no mark. -/
theorem ne_of_opensName {c mark : Char} (opens : opensName c = true) (member : mark ∈ marks) :
    c ≠ mark := by
  rintro rfl
  rw [(apart_of_mem_marks member).2.2] at opens
  cases opens

/-! ### Names -/

/-- Whether some characters make a name of a program: a letter or an underscore, and letters and
numbers behind it. -/
def spellsName : List Char → Bool
  | [] => false
  | first :: rest => opensName first && rest.all isAlphanumeric

/-- Whether a program can use the text as a name. -/
def IsName (name : String) : Prop :=
  spellsName name.toList = true

instance (name : String) : Decidable (IsName name) :=
  inferInstanceAs (Decidable (spellsName name.toList = true))

theorem isBlank_of_opensName {c : Char} (opens : opensName c = true) : isBlank c = false := by
  rw [opensName, Bool.or_eq_true, decide_eq_true_iff] at opens
  rcases opens with rfl | alphabetic
  · decide
  · exact isBlank_of_isAlphanumeric (isAlphanumeric_of_isAlphabetic alphabetic)

theorem isName_byte : IsName "byte" := by
  decide +kernel

theorem isName_mnemonic (opcode : Opcode) : IsName opcode.mnemonic := by
  cases opcode <;> decide +kernel

theorem not_blank_of_isName {name : String} (proper : IsName name) :
    ∀ c ∈ name.toList, isBlank c = false := by
  rw [IsName] at proper
  cases spelled : name.toList with
  | nil => exact fun c member => absurd member List.not_mem_nil
  | cons first rest =>
    rw [spelled, spellsName, Bool.and_eq_true, List.all_eq_true] at proper
    intro c member
    rcases List.mem_cons.mp member with rfl | later
    · exact isBlank_of_opensName proper.1
    · exact isBlank_of_isAlphanumeric (proper.2 c later)

/-! ### Hexadecimal digits give their number back -/

theorem small_of_isHexDigit {c : Char} (digit : isHexDigit c = true) : c.toNat < 128 := by
  simp only [isHexDigit, Char.isDigit, Bool.or_eq_true, Bool.and_eq_true, decide_eq_true_eq,
    Char.le_def, UInt32.le_iff_toNat_le] at digit
  simp only [Char.toNat]
  rcases digit with (⟨_, high⟩ | ⟨_, high⟩) | ⟨_, high⟩
  · exact Nat.lt_of_le_of_lt high (by decide)
  · exact Nat.lt_of_le_of_lt high (by decide)
  · exact Nat.lt_of_le_of_lt high (by decide)

/-- A hexadecimal digit is a letter or a number. -/
theorem isAlphanumeric_of_isHexDigit {c : Char} (digit : isHexDigit c = true) :
    isAlphanumeric c = true := by
  have checked : ∀ code < 128,
      (!isHexDigit (Char.ofNat code) || isAlphanumeric (Char.ofNat code)) = true := by
    decide +kernel
  have found := checked c.toNat (small_of_isHexDigit digit)
  rwa [Char.ofNat_toNat, digit, Bool.not_true, Bool.false_or] at found

/-- The capital digit of a small number is a hexadecimal digit and no small letter, and its value is
the number. -/
theorem capital_digit : ∀ digit < 16,
    (isHexDigit (Nat.digitChar digit).toUpper = true ∧
      (Nat.digitChar digit).toUpper.toUpper = (Nat.digitChar digit).toUpper) ∧
      hexDigitValue (Nat.digitChar digit).toUpper = digit := by
  decide +kernel

theorem hexValue_append_single (digits : List Char) (digit : Char) :
    hexValue (digits ++ [digit]) = hexValue digits * 16 + hexDigitValue digit := by
  rw [hexValue, List.foldl_append]
  rfl

theorem hexValue_zero_cons (digits : List Char) : hexValue ('0' :: digits) = hexValue digits := rfl

theorem hexValue_replicate_zero (count : Nat) (digits : List Char) :
    hexValue (List.replicate count '0' ++ digits) = hexValue digits := by
  induction count with
  | zero => rfl
  | succ count inductionHypothesis =>
    rw [List.replicate_succ, List.cons_append, hexValue_zero_cons, inductionHypothesis]

namespace Text

/-- The digits written for a number are capital hexadecimal digits, and they make that number. -/
theorem hexDigits_spec (number : Nat) :
    (∀ c ∈ (hexDigits number).toList, isHexDigit c = true ∧ c.toUpper = c) ∧
      hexValue (hexDigits number).toList = number ∧ (hexDigits number).toList ≠ [] := by
  rw [hexDigits, String.toList_ofList]
  induction number using Nat.strongRecOn with
  | ind number inductionHypothesis =>
    by_cases small : number < 16
    · obtain ⟨digit, value⟩ := capital_digit number small
      rw [Nat.toDigits_of_lt_base small]
      refine ⟨fun c member => ?_, ?_, List.cons_ne_nil _ _⟩
      · rwa [List.mem_singleton.mp member]
      · rw [List.map_singleton, hexValue, List.foldl_cons, List.foldl_nil, value, Nat.zero_mul,
          Nat.zero_add]
    · have large := Nat.le_of_not_lt small
      obtain ⟨digits, value, _⟩ := inductionHypothesis (number / 16)
        (Nat.div_lt_self (Nat.lt_of_lt_of_le (by decide) large) (by decide))
      obtain ⟨digit, last⟩ := capital_digit (number % 16) (Nat.mod_lt _ (by decide))
      rw [Nat.toDigits_of_base_le (by decide) large, List.map_append]
      refine ⟨fun c member => ?_, ?_, List.append_ne_nil_of_right_ne_nil _ (List.cons_ne_nil _ _)⟩
      · rcases List.mem_append.mp member with front | back
        · exact digits c front
        · rwa [List.mem_singleton.mp back]
      · rw [List.map_singleton, hexValue_append_single, value, last]
        exact Nat.div_add_mod' number 16

/-- A number that is not negative is written with hexadecimal digits that make it. -/
theorem hex_spec (number : Nat) :
    (∀ c ∈ (hex number).toList, isHexDigit c = true) ∧
      hexValue (hex number).toList = number ∧ (hex number).toList ≠ [] := by
  obtain ⟨digits, value, something⟩ := hexDigits_spec number
  show (∀ c ∈ (padLeft 2 '0' (hexDigits number)).toList, isHexDigit c = true) ∧
    hexValue (padLeft 2 '0' (hexDigits number)).toList = number ∧
      (padLeft 2 '0' (hexDigits number)).toList ≠ []
  rw [padLeft, repeated, String.toList_append, String.toList_ofList]
  refine ⟨fun c member => ?_, ?_, List.append_ne_nil_of_right_ne_nil _ something⟩
  · rcases List.mem_append.mp member with zero | digit
    · rw [List.eq_of_mem_replicate zero]
      decide
    · exact (digits c digit).1
  · rw [hexValue_replicate_zero, value]

/-- Hexadecimal digits are written as capitals. -/
theorem toUpper_of_mem_hex {number : Nat} {c : Char} (inside : c ∈ (hex number).toList) :
    c.toUpper = c := by
  change c ∈ (padLeft 2 '0' (hexDigits number)).toList at inside
  rw [padLeft, repeated, String.toList_append, String.toList_ofList] at inside
  rcases List.mem_append.mp inside with zero | digit
  · rw [List.eq_of_mem_replicate zero]
    rfl
  · exact ((hexDigits_spec number).1 c digit).2

/-- A byte is written with two digits. -/
theorem length_hexByte (byte : UInt8) : (hexByte byte).length = 2 := by
  have checked : ∀ code < 256, (hex (code : Nat)).length = 2 := by decide +kernel
  exact checked byte.toNat byte.toNat_lt

/-- A byte is told by its digits. -/
theorem hexByte_injective {first second : UInt8} (same : hexByte first = hexByte second) :
    first = second := by
  have value := congrArg (fun digits => hexValue digits.toList) same
  simp only [hexByte, (hex_spec _).2.1] at value
  exact UInt8.toNat_inj.mp value

theorem not_mem_hex {c : Char} (other : isHexDigit c = false) (number : Nat) :
    c ∉ (hex number).toList :=
  fun inside => Bool.false_ne_true (other.symm.trans ((hex_spec number).1 c inside))

theorem toList_dollarHex (number : Nat) :
    (dollarHex number).toList = '$' :: (hex number).toList := by
  rw [dollarHex, String.toList_append]
  rfl

theorem not_mem_dollarHex {c : Char} (other : isHexDigit c = false) (unmarked : c ≠ '$')
    (number : Nat) : c ∉ (dollarHex number).toList := by
  rw [toList_dollarHex, List.mem_cons, not_or]
  exact ⟨unmarked, not_mem_hex other number⟩

end Text

end Octet
