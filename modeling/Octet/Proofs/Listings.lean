/-
This file shows that a listing accounts for every byte. Between its head and
its symbols there is one line for each entry of the program, with the address
behind all entries before it and the bytes from there up to the next entry.
This is so whether or not something is wrong with the program: an entry that
cannot be encoded is listed with the zeros in its place, a label with no bytes.

A listing is text, and whether a line is one line depends on what is written in
it. So the text is cut at its line feeds here, and what a line says is read back
from its columns: an address, some bytes, the number of a line and its text, or
the name of a symbol and its address. Nothing is taken from what wrote the line.
Three bytes fit into the columns for bytes, and no statement has more.
-/

import Mathlib.Data.List.Infix
import Mathlib.Data.String.Basic
import Octet.Proofs.Files
import Octet.Proofs.Printing
import Octet.Proofs.Symbols
import Octet.Proofs.Underlining

namespace Octet

open Character

/-! ### What the columns say -/

/-- The pieces between blanks. -/
def blankParted (text : List Char) : List (List Char) :=
  (text.splitOn ' ').filter (· ≠ [])

/-- The bytes that a line of a listing shows: the pairs of digits in the nine columns that begin three
columns behind the address. -/
def listedBytes (row : List Char) : List UInt8 :=
  (blankParted (((row.dropWhile (· ≠ ' ')).drop 3).take 9)).map fun digits =>
    .ofNat (hexValue digits)

/-- Capital hexadecimal digits, two at least, that make a number. -/
structure SpellsHex (number : Nat) (digits : List Char) : Prop where
  long : 2 ≤ digits.length
  capital : ∀ digit ∈ digits, isHexDigit digit = true ∧ digit.toUpper = digit
  value : hexValue digits = number

/-- Decimal digits, one at least, that make a number. -/
structure SpellsDecimal (number : Int) (digits : List Char) : Prop where
  something : digits ≠ []
  decimal : ∀ digit ∈ digits, digit.isDigit = true
  value : (Nat.ofDigitChars 10 digits 0 : Int) = number

/-- A line of a listing shows an address, the bytes there and a line of the source. -/
structure ShowsEntry (address : Nat) (bytes : List UInt8) (line : PhysicalLine)
    (row : List Char) : Prop where
  /-- The address stands in front of the first blank, behind a dollar sign. -/
  address : ∃ digits, row.takeWhile (· ≠ ' ') = '$' :: digits ∧ SpellsHex address digits
  /-- Three blanks part the address from the bytes. -/
  gap : (row.dropWhile (· ≠ ' ')).take 3 = [' ', ' ', ' ']
  shown : listedBytes row = bytes
  /-- Behind the columns for the bytes stand the number of the line, counted from one, and its text.
  The number takes four columns or more, with two blanks on either side. -/
  line : ∃ digits, (row.dropWhile (· ≠ ' ')).drop 12 =
      ' ' :: ' ' :: (List.replicate (4 - digits.length) ' ' ++ digits) ++
        ' ' :: ' ' :: line.text.toList ∧
    SpellsDecimal (line.number + 1) digits

/-- A line of a listing shows a symbol: its name in twenty columns or more, and behind an equality
sign its address. -/
structure ShowsSymbol (name : String) (address : Nat) (line : List Char) : Prop where
  spelled : line.takeWhile (· ≠ ' ') = name.toList
  address : ∃ digits, line.dropWhile (· ≠ ' ') =
      List.replicate (20 - name.length) ' ' ++ ' ' :: '=' :: ' ' :: '$' :: digits ∧
    SpellsHex address digits

theorem blankParted_append_blank (front back : List Char) :
    blankParted (front ++ ' ' :: back) = blankParted front ++ blankParted back := by
  rw [blankParted, List.splitOn_append_cons_self, List.filter_append, blankParted, blankParted]

theorem blankParted_replicate (count : Nat) : blankParted (List.replicate count ' ') = [] := by
  induction count with
  | zero => rfl
  | succ count inductionHypothesis =>
    rw [List.replicate_succ, ← List.nil_append (' ' :: _), blankParted_append_blank,
      inductionHypothesis]
    rfl

/-- A piece without blanks, and any number of blanks behind it. -/
theorem blankParted_single {piece : List Char} (something : piece ≠ []) (whole : ' ' ∉ piece)
    (count : Nat) : blankParted (piece ++ List.replicate count ' ') = [piece] := by
  have alone : blankParted piece = [piece] := by
    rw [blankParted, List.splitOn_eq_singleton whole,
      List.filter_cons_of_pos (by simpa using something), List.filter_nil]
  cases count with
  | zero => rwa [List.replicate_zero, List.append_nil]
  | succ count =>
    rw [List.replicate_succ, blankParted_append_blank, alone, blankParted_replicate,
      List.append_nil]

/-- Pieces with single blanks between them, and any number of blanks behind them. -/
theorem blankParted_intercalate {pieces : List String}
    (whole : ∀ piece ∈ pieces, piece.toList ≠ [] ∧ ' ' ∉ piece.toList) (count : Nat) :
    blankParted ((" ".intercalate pieces).toList ++ List.replicate count ' ') =
      pieces.map String.toList := by
  induction pieces with
  | nil => exact blankParted_replicate count
  | cons piece rest inductionHypothesis =>
    rw [List.forall_mem_cons] at whole
    by_cases last : rest = []
    · subst last
      rw [String.intercalate_singleton]
      exact blankParted_single whole.1.1 whole.1.2 count
    · have alone := blankParted_single whole.1.1 whole.1.2 0
      rw [List.replicate_zero, List.append_nil] at alone
      have parted : (" ".intercalate (piece :: rest)).toList ++ List.replicate count ' ' =
          piece.toList ++ ' ' :: ((" ".intercalate rest).toList ++ List.replicate count ' ') := by
        rw [String.intercalate_cons_of_ne_nil last, String.toList_append, String.toList_append]
        simp
      rw [parted, blankParted_append_blank, alone, inductionHypothesis whole.2]
      rfl

namespace Text

theorem spellsHex_hex (number : Nat) : SpellsHex number (hex number).toList := by
  obtain ⟨hexadecimal, value, _⟩ := hex_spec number
  refine ⟨?_, fun digit member => ⟨hexadecimal digit member, toUpper_of_mem_hex member⟩, value⟩
  show 2 ≤ (padLeft 2 '0' (hexDigits number)).toList.length
  rw [padLeft, repeated, String.toList_append, String.toList_ofList, List.length_append,
    List.length_replicate, String.length_toList]
  omega

theorem spellsDecimal_toString (number : Nat) : SpellsDecimal number (toString number).toList := by
  rw [Nat.toString_eq_ofList_toDigits, String.toList_ofList]
  exact ⟨Nat.toDigits_ne_nil, fun _ => Nat.isDigit_of_mem_toDigits (by decide) (by decide),
    congrArg Int.ofNat Nat.ofDigitChars_ten_toDigits⟩

theorem lineFeed_not_mem_blanks (count : Nat) : '\n' ∉ (repeated count ' ').toList := by
  rw [repeated, String.toList_ofList]
  exact fun inside => absurd (List.eq_of_mem_replicate inside) (by decide)

theorem break_not_mem_hexByte {c : Char} (breaks : IsBreak c) (byte : UInt8) :
    c ∉ (hexByte byte).toList := by
  intro inside
  have digit := (hex_spec byte.toNat).1 c inside
  have visible := isBlank_of_isAlphanumeric (isAlphanumeric_of_isHexDigit digit)
  exact Bool.false_ne_true (visible.symm.trans breaks.1)

theorem break_not_mem_hexRow {c : Char} (breaks : IsBreak c) (bytes : List UInt8) :
    c ∉ (hexRow bytes).toList := by
  refine not_mem_intercalate " " _ (by simpa using breaks.2) fun text member => ?_
  obtain ⟨byte, _, rfl⟩ := List.mem_map.mp member
  exact break_not_mem_hexByte breaks byte

theorem length_hexRow (bytes : List UInt8) : (hexRow bytes).length = 3 * bytes.length - 1 := by
  induction bytes with
  | nil => rfl
  | cons byte rest inductionHypothesis =>
    cases rest with
    | nil => exact length_hexByte byte
    | cons next more =>
      have blank : " ".length = 1 := rfl
      have filled : (next :: more).map hexByte ≠ [] := List.cons_ne_nil _ _
      rw [hexRow] at inductionHypothesis
      rw [hexRow, List.map_cons, String.intercalate_cons_of_ne_nil filled, String.length_append,
        String.length_append, length_hexByte, blank, inductionHypothesis]
      simp only [List.length_cons]
      omega

theorem length_padRight {width : Nat} {text : String} (fits : text.length ≤ width) :
    (padRight width text).toList.length = width := by
  rw [padRight, repeated, String.toList_append, List.length_append, String.toList_ofList,
    List.length_replicate, String.length_toList]
  omega

/-- Bytes are read back from their digits, whatever the width of the column. -/
theorem bytes_padRight_hexRow (width : Nat) (bytes : List UInt8) :
    ((blankParted (padRight width (hexRow bytes)).toList).map fun digits =>
      UInt8.ofNat (hexValue digits)) = bytes := by
  have whole : ∀ piece ∈ bytes.map hexByte, piece.toList ≠ [] ∧ ' ' ∉ piece.toList := by
    intro piece member
    obtain ⟨byte, _, rfl⟩ := List.mem_map.mp member
    exact ⟨(hex_spec byte.toNat).2.2, not_mem_hex (by decide) byte.toNat⟩
  have value : ((fun digits => UInt8.ofNat (hexValue digits)) ∘ String.toList) ∘ hexByte = id := by
    funext byte
    show UInt8.ofNat (hexValue (hex byte.toNat).toList) = byte
    rw [(hex_spec byte.toNat).2.1, UInt8.ofNat_toNat]
  rw [padRight, repeated, String.toList_append, String.toList_ofList, hexRow,
    blankParted_intercalate whole, List.map_map, List.map_map, value, List.map_id]

end Text

/-! ### The rows -/

theorem Statement.size_le (statement : Statement) : statement.size ≤ 3 := by
  cases statement with
  | label name span => exact Nat.zero_le _
  | byte value => exact Nat.le_of_ble_eq_true rfl
  | instruction held => exact held.opcode.size_le

namespace Row

variable {row : Row}

/-- The text of a row, cut behind its address and behind its bytes. -/
theorem toList_text (row : Row) : row.text.toList =
    (Text.dollarHex row.address).toList ++ (' ' :: ' ' :: ' ' ::
      ((Text.padRight 9 (Text.hexRow row.bytes)).toList ++
        ("  " ++ Text.padLeft 4 ' ' (toString (row.line.number + 1)) ++ "  " ++
          row.line.text).toList)) := by
  simp [Row.text, String.toList_append]

/-- What stands in front of the first blank of a row, and what stands behind that. -/
theorem parted_text (row : Row) :
    row.text.toList.takeWhile (· ≠ ' ') = (Text.dollarHex row.address).toList ∧
      row.text.toList.dropWhile (· ≠ ' ') =
        ' ' :: ' ' :: ' ' :: ((Text.padRight 9 (Text.hexRow row.bytes)).toList ++
          ("  " ++ Text.padLeft 4 ' ' (toString (row.line.number + 1)) ++ "  " ++
            row.line.text).toList) := by
  have address : ∀ c ∈ (Text.dollarHex row.address).toList, decide (c ≠ ' ') = true := by
    intro c inside
    rw [decide_eq_true_iff]
    rintro rfl
    exact Text.not_mem_dollarHex (by decide) (by decide) row.address inside
  rw [toList_text, List.takeWhile_append_of_pos address, List.takeWhile_cons_of_neg (by decide),
    List.append_nil, List.dropWhile_append_of_pos address, List.dropWhile_cons_of_neg (by decide)]
  exact ⟨rfl, rfl⟩

/-- Up to three bytes are read back from a row, and the rest of the row from what is behind them. -/
theorem showsEntry_text (fits : row.bytes.length ≤ 3) {number : Nat}
    (numbered : row.line.number = number) :
    ShowsEntry row.address row.bytes row.line row.text.toList := by
  obtain ⟨front, behind⟩ := row.parted_text
  have long := Text.length_hexRow row.bytes
  have width : (Text.padRight 9 (Text.hexRow row.bytes)).toList.length = 9 :=
    Text.length_padRight (by omega)
  refine ⟨⟨_, front.trans (Text.toList_dollarHex _), Text.spellsHex_hex _⟩, ?_, ?_,
    (toString (row.line.number + 1)).toList, ?_, ?_⟩
  · rw [behind]
    rfl
  · rw [listedBytes, behind, List.drop_succ_cons, List.drop_succ_cons, List.drop_succ_cons,
      List.drop_zero, List.take_left' width, Text.bytes_padRight_hexRow]
  · rw [behind, List.drop_succ_cons, List.drop_succ_cons, List.drop_succ_cons,
      List.drop_left' width]
    simp [Text.padLeft, Text.repeated, String.length_toList]
  · rw [numbered]
    exact Text.spellsDecimal_toString (number + 1)

/-- A row is one line if the line of its entry is one. -/
theorem lineFeed_not_mem_text (single : '\n' ∉ row.line.text.toList) {number : Nat}
    (numbered : row.line.number = number) : '\n' ∉ row.text.toList := by
  have address : '\n' ∉ (Text.dollarHex row.address).toList :=
    Text.not_mem_dollarHex (by decide) (by decide) row.address
  have bytes : '\n' ∉ (Text.hexRow row.bytes).toList :=
    Text.break_not_mem_hexRow isBreak_lineFeed row.bytes
  have count : '\n' ∉ (toString (row.line.number + 1)).toList := by
    rw [numbered]
    exact fun inside =>
      absurd (isAlphanumeric_of_mem_toString (number + 1) '\n' inside) (by decide)
  have parts : '\n' ∉ "   ".toList ∧ '\n' ∉ "  ".toList := by decide
  simp only [Row.text, Text.padRight, Text.padLeft, String.toList_append, List.mem_append, not_or]
  exact ⟨⟨⟨⟨⟨⟨address, parts.1⟩, bytes, Text.lineFeed_not_mem_blanks _⟩, parts.2⟩,
    Text.lineFeed_not_mem_blanks _, count⟩, parts.2⟩, single⟩

end Row

/-! ### The lines of the entries -/

theorem Entry.line_of_ofLine {line : PhysicalLine} {entry : Entry}
    (yields : entryOf? (Entry.ofLine line) = some entry) : entry.line = line := by
  rw [Entry.ofLine] at yields
  cases read : Statement.ofLine line.text with
  | error diagnostic =>
    rw [read] at yields
    cases yields
  | ok statement =>
    rw [read] at yields
    cases statement with
    | none => cases yields
    | some statement =>
      obtain rfl := Option.some_inj.mp yields
      rfl

/-- The lines of the entries are lines of the source, in their order. -/
theorem Program.lines_sublist {source : String} {program : Program}
    (parsed : Program.ofSource source = .ok program) :
    (program.map Entry.line).Sublist (physicalLines source) := by
  have surveyed := survey_eq source
  rw [Program.survey_of_ofSource parsed] at surveyed
  have entries : program = (physicalLines source).filterMap (entryOf? ∘ Entry.ofLine) :=
    congrArg Prod.fst surveyed
  rw [entries]
  clear parsed surveyed entries
  induction physicalLines source with
  | nil => exact List.Sublist.refl _
  | cons line rest inductionHypothesis =>
    cases yields : (entryOf? ∘ Entry.ofLine) line with
    | none =>
      rw [List.filterMap_cons_none yields]
      exact inductionHypothesis.cons line
    | some entry =>
      rw [List.filterMap_cons_some yields, List.map_cons, Entry.line_of_ofLine yields]
      exact inductionHypothesis.cons_cons line

/-- The lines of a source are numbered from zero, and none of them holds a line feed. -/
theorem physicalLines_whole {source : String} {line : PhysicalLine}
    (member : line ∈ physicalLines source) :
    (∃ number : Nat, line.number = number) ∧ '\n' ∉ line.text.toList := by
  obtain ⟨number, found⟩ := List.getElem?_of_mem member
  rw [physicalLines, getElem?_numberPieces] at found
  obtain ⟨piece, cut, rfl⟩ := Option.map_eq_some_iff.mp found
  refine ⟨⟨_, rfl⟩, fun inside => ?_⟩
  rw [String.toList_ofList, dropReturn] at inside
  refine separator_not_mem_splitOn '\n' _ piece (List.mem_of_getElem? cut) ?_
  split at inside
  · exact List.mem_of_mem_dropLast inside
  · exact inside

/-! ### First definitions -/

/-- The first definition of a name stands behind all bytes before an address. -/
def Program.DefinesAt (program : Program) (name : String) (address : Nat) : Prop :=
  ∃ (before after : Program) (entry : Entry), program = before ++ entry :: after ∧
    entry.statement.defined? = some name ∧
    (∀ earlier ∈ before, earlier.statement.defined? ≠ some name) ∧ before.size = address

/-- A name is bound to the address of its first definition. -/
theorem Image.address?_eq_some_iff (program : Program) (name : String) (address : Nat) :
    (ofProgram program).labels.address? name = some address ↔
      program.DefinesAt name address := by
  have renders := renders_ofProgram program
  constructor
  · intro bound
    cases found : program.find? fun entry => entry.statement.defined? = some name with
    | none =>
      rw [List.find?_eq_none] at found
      rw [renders.unbound name fun entry member defines => found entry member (by simpa)] at bound
      cases bound
    | some entry =>
      rw [List.find?_eq_some_iff_append] at found
      obtain ⟨defines, before, after, split, first⟩ := found
      have first : ∀ earlier ∈ before, earlier.statement.defined? ≠ some name := by
        simpa using first
      have defines : entry.statement.defined? = some name := by simpa using defines
      rw [renders.bound before after entry name split defines first] at bound
      exact ⟨before, after, entry, split, defines, first, Option.some_inj.mp bound⟩
  · rintro ⟨before, after, entry, split, defines, first, rfl⟩
    exact renders.bound before after entry name split defines first

/-! ### The rows of a program -/

theorem Program.map_entry_placedFrom (address : Nat) (program : Program) :
    (program.placedFrom address).map Placed.entry = program := by
  induction program generalizing address with
  | nil => rfl
  | cons entry rest inductionHypothesis =>
    rw [Program.placedFrom, List.map_cons, inductionHypothesis]

theorem Program.flatMap_placedFrom {Target : Type} (address : Nat) (program : Program)
    (select : Entry → List Target) :
    ((program.placedFrom address).flatMap fun placed => select placed.entry) =
      program.flatMap select := by
  rw [← List.flatMap_map, Program.map_entry_placedFrom]

/-- The rows of an image, as they are listed, account for its code. -/
structure Image.ListsRows (image : Image) (program : Program) (rows : List (List Char)) :
    Prop where
  /-- There is one row for each entry. -/
  count : rows.length = program.length
  /-- The row of an entry shows the address behind all entries before it, the bytes from there up
  to the next entry, and the line of the entry. -/
  row : ∀ (before after : Program) (entry : Entry), program = before ++ entry :: after →
    ∃ row, rows[before.length]? = some row ∧
      ShowsEntry before.size ((image.code.drop before.size).take entry.statement.size) entry.line
        row
  /-- The bytes that the rows show are all bytes of the code. -/
  bytes : rows.flatMap listedBytes = image.code

/-- The symbols that are listed are those of an image: each of them once, sorted by name, in a line
that shows its name and its address. -/
structure Image.ListsSymbols (image : Image) (program : Program) (symbols : Labels)
    (lines : List (List Char)) : Prop where
  shown : List.Forall₂ (fun (symbol : Label) line => ShowsSymbol symbol.name symbol.address line)
    symbols lines
  sorted : symbols.Pairwise fun first second => first.name < second.name
  bound : ∀ name address, (∃ line, ⟨name, address, line⟩ ∈ symbols) ↔
    image.labels.address? name = some address
  defined : ∀ name address, image.labels.address? name = some address ↔
    program.DefinesAt name address

namespace Image

variable (program : Program)

theorem rows_ofProgram :
    (ofProgram program).rows = program.placed.map (ofProgram program).labels.rowOf :=
  (holds_program program).rows

/-- No entry has more bytes than fit into the columns for them. -/
theorem length_bytes_rows : ∀ row ∈ (ofProgram program).rows, row.bytes.length ≤ 3 := by
  intro row member
  rw [rows_ofProgram] at member
  obtain ⟨placed, _, rfl⟩ := List.mem_map.mp member
  show (placed.entry.statement.bytes _).length ≤ 3
  rw [Statement.length_bytes]
  exact placed.entry.statement.size_le

/-- The line of a row is that of its entry. -/
theorem exists_line_of_row {row : Row} (listed : row ∈ (ofProgram program).rows) :
    ∃ entry ∈ program, row.line = entry.line := by
  rw [rows_ofProgram] at listed
  obtain ⟨placed, known, rfl⟩ := List.mem_map.mp listed
  refine ⟨placed.entry, ?_, rfl⟩
  rw [← Program.map_entry_placedFrom 0 program]
  exact List.mem_map_of_mem known

theorem getElem?_rows {before after : Program} {entry : Entry}
    (split : program = before ++ entry :: after) :
    (ofProgram program).rows[before.length]? = some
      ⟨before.size, ((ofProgram program).code.drop before.size).take entry.statement.size,
        entry.line⟩ := by
  subst split
  have slice := (renders_ofProgram (before ++ entry :: after)).bytes before after entry rfl
  have length : ((Program.placedFrom 0 before).map
      (ofProgram (before ++ entry :: after)).labels.rowOf).length = before.length := by
    rw [List.length_map, ← List.length_map Placed.entry, Program.map_entry_placedFrom]
  rw [slice, rows_ofProgram, Program.placed, Program.placedFrom_append, Nat.zero_add,
    List.map_append, List.getElem?_append_right (Nat.le_of_eq length), length, Nat.sub_self]
  rfl

theorem lists_rows (numbered : ∀ entry ∈ program, ∃ number : Nat, entry.line.number = number) :
    (ofProgram program).ListsRows program
      ((ofProgram program).rows.map fun row => row.text.toList) := by
  have shown : ∀ row ∈ (ofProgram program).rows,
      ShowsEntry row.address row.bytes row.line row.text.toList := by
    intro row listed
    obtain ⟨entry, member, same⟩ := exists_line_of_row program listed
    obtain ⟨number, counted⟩ := numbered entry member
    exact row.showsEntry_text (length_bytes_rows program row listed) (same ▸ counted)
  refine ⟨?_, fun before after entry split => ?_, ?_⟩
  · rw [List.length_map, rows_ofProgram, List.length_map, ← List.length_map Placed.entry,
      Program.placed, Program.map_entry_placedFrom]
  · have found := getElem?_rows program split
    refine ⟨_, by rw [List.getElem?_map, found]; rfl, ?_⟩
    exact shown _ (List.mem_of_getElem? found)
  · rw [List.flatMap_map, List.flatMap_congr fun row listed => (shown row listed).shown,
      rows_ofProgram, List.flatMap_map, code_ofProgram, Statement.code, Program.statements,
      List.flatMap_map]
    exact program.flatMap_placedFrom 0 fun entry =>
      entry.statement.bytes (ofProgram program).labels.address?

end Image

/-! ### The symbols of a program -/

/-- Labels without a repeated name are sorted strictly. -/
theorem Labels.sorted_strict {labels : Labels} (distinct : (labels.map Label.name).Nodup) :
    labels.sorted.Pairwise fun first second => first.name < second.name := by
  have ordered : labels.sorted.Pairwise fun first second =>
      decide (first.name ≤ second.name) = true := by
    refine List.pairwise_mergeSort (fun first second third => ?_) (fun first second => ?_) labels
    · simp only [decide_eq_true_eq]
      exact String.le_trans
    · rw [Bool.or_eq_true, decide_eq_true_eq, decide_eq_true_eq]
      exact String.le_total _ _
  have apart : (labels.sorted.map Label.name).Nodup :=
    ((List.mergeSort_perm _ _).map Label.name).nodup_iff.mpr distinct
  refine (ordered.and (List.pairwise_map.mp apart)).imp fun ⟨least, different⟩ => ?_
  exact lt_of_le_of_ne (of_decide_eq_true least) different

/-- In labels without a repeated name, every label is the one that its name finds. -/
theorem Labels.mem_iff_address? {labels : Labels} (distinct : (labels.map Label.name).Nodup)
    (name : String) (address : Nat) :
    (∃ line, ⟨name, address, line⟩ ∈ labels) ↔ labels.address? name = some address := by
  have named : ∀ label, labels.find? name = some label → label.name = name := fun label found => by
    simpa using List.find?_some found
  rw [Labels.address?, Option.map_eq_some_iff]
  constructor
  · rintro ⟨line, member⟩
    cases found : labels.find? name with
    | none => exact absurd (beq_self_eq_true name) (List.find?_eq_none.mp found _ member)
    | some label =>
      have same := List.inj_on_of_nodup_map distinct (List.mem_of_find?_eq_some found) member
        (named label found)
      exact ⟨label, rfl, congrArg Label.address same⟩
  · rintro ⟨label, found, rfl⟩
    exact ⟨label.line, named label found ▸ List.mem_of_find?_eq_some found⟩

/-- The line for a label whose name is proper shows the label. -/
theorem Label.showsSymbol_listed {label : Label} (proper : IsName label.name) :
    ShowsSymbol label.name label.address label.listed.toList := by
  have name : ∀ c ∈ label.name.toList, decide (c ≠ ' ') = true := by
    intro c inside
    rw [decide_eq_true_iff]
    rintro rfl
    exact absurd (not_blank_of_isName proper ' ' inside) (by decide)
  have letters : label.listed.toList = label.name.toList ++
      (List.replicate (20 - label.name.length) ' ' ++
        ' ' :: '=' :: ' ' :: '$' :: (Text.hex label.address).toList) := by
    simp [listed, Text.padRight, Text.repeated, String.toList_append, Text.toList_dollarHex]
  -- the first blank is one that fills the columns, or the one in front of the equality sign
  obtain ⟨behind, blank⟩ : ∃ behind, List.replicate (20 - label.name.length) ' ' ++
      ' ' :: '=' :: ' ' :: '$' :: (Text.hex label.address).toList = ' ' :: behind := by
    cases 20 - label.name.length with
    | zero => exact ⟨_, rfl⟩
    | succ count => exact ⟨_, rfl⟩
  rw [letters]
  refine ⟨?_, _, ?_, Text.spellsHex_hex label.address⟩
  · rw [List.takeWhile_append_of_pos name, blank, List.takeWhile_cons_of_neg (by decide),
      List.append_nil]
  · rw [List.dropWhile_append_of_pos name, blank, List.dropWhile_cons_of_neg (by decide)]

/-- The sorted labels are those that names are looked up in. -/
theorem Image.mem_sorted_iff {program : Program}
    (distinct : (program.labels.1.map Label.name).Nodup) (name : String) (address : Nat) :
    (∃ line, ⟨name, address, line⟩ ∈ (ofProgram program).labels.sorted) ↔
      (ofProgram program).labels.address? name = some address := by
  rw [labels_ofProgram, ← Labels.mem_iff_address? distinct]
  exact exists_congr fun line => List.mem_mergeSort

theorem Image.lists_symbols {program : Program}
    (distinct : (program.labels.1.map Label.name).Nodup)
    (proper : ∀ label ∈ program.labels.1, IsName label.name) :
    (ofProgram program).ListsSymbols program (ofProgram program).labels.sorted
      ((ofProgram program).labels.sorted.map fun label => label.listed.toList) := by
  refine ⟨?_, Labels.sorted_strict distinct, mem_sorted_iff distinct, address?_eq_some_iff program⟩
  rw [List.forall₂_map_right_iff, List.forall₂_same]
  exact fun label member => Label.showsSymbol_listed (proper label (List.mem_mergeSort.mp member))

/-- The line for a label is one line if the name is proper. -/
theorem Label.lineFeed_not_mem_listed {label : Label} (proper : IsName label.name) :
    '\n' ∉ label.listed.toList := by
  have name : '\n' ∉ label.name.toList := fun inside =>
    absurd (not_blank_of_isName proper '\n' inside) (by decide)
  have equation : '\n' ∉ " = ".toList := by decide
  rw [listed, Text.padRight, String.toList_append, String.toList_append, String.toList_append]
  simp only [List.mem_append, not_or]
  exact ⟨⟨⟨name, Text.lineFeed_not_mem_blanks _⟩, equation⟩,
    Text.not_mem_dollarHex (by decide) (by decide) label.address⟩

/-! ### Listings -/

/-- A listing is cut at its line feeds into its head, its rows and its symbols. -/
theorem Image.splitOn_listing {image : Image} (rows : ∀ row ∈ image.rows, '\n' ∉ row.text.toList)
    (proper : ∀ label ∈ image.labels, IsName label.name) :
    image.listing.toList.splitOn '\n' =
      listingHead.map String.toList ++ image.rows.map (fun row => row.text.toList) ++
        labelHead.map String.toList ++
          image.labels.sorted.map fun label => label.listed.toList := by
  have single : ∀ text ∈ listingHead ++ image.rows.map Row.text ++ labelHead ++
      image.labels.sorted.map Label.listed, '\n' ∉ text.toList := by
    simp only [List.forall_mem_append]
    refine ⟨⟨⟨by decide, fun text member => ?_⟩, by decide⟩, fun text member => ?_⟩
    · obtain ⟨row, known, rfl⟩ := List.mem_map.mp member
      exact rows row known
    · obtain ⟨label, known, rfl⟩ := List.mem_map.mp member
      exact Label.lineFeed_not_mem_listed (proper label (List.mem_mergeSort.mp known))
  have filled : listingHead ++ image.rows.map Row.text ++ labelHead ++
      image.labels.sorted.map Label.listed ≠ [] := List.cons_ne_nil _ _
  rw [listing, splitOn_intercalate _ filled single]
  simp only [List.map_append, List.map_map]
  rfl

/-- The listing of a source that can be read accounts for every byte, whether or not its program
can be encoded. Cut at its line feeds it is the head, a row for each entry in order, and a line for
each symbol sorted by name. The rows show the addresses, the bytes and the lines of the entries, and
all their bytes together are the code; the last lines show the symbols and their addresses. -/
theorem listing_accounts_for_every_byte (session : Session) {source : String} {program : Program}
    (parsed : Program.ofSource source = .ok program) :
    let image := (session.assemble source).1.image
    ∃ (rows lines : List (List Char)) (symbols : Labels),
      image.listing.toList.splitOn '\n' =
        Image.listingHead.map String.toList ++ rows ++ Image.labelHead.map String.toList ++ lines ∧
      (program.map Entry.line).Sublist (physicalLines source) ∧
      image.ListsRows program rows ∧ image.ListsSymbols program symbols lines := by
  intro image
  have same : image = Image.ofProgram program :=
    congrArg (·.1.image) (session.assemble_of_parsed parsed)
  obtain ⟨distinct, proper⟩ := Program.labels_proper parsed
  have listed := Program.lines_sublist parsed
  have whole : ∀ entry ∈ program,
      (∃ number : Nat, entry.line.number = number) ∧ '\n' ∉ entry.line.text.toList :=
    fun entry member => physicalLines_whole (listed.subset (List.mem_map_of_mem member))
  rw [same]
  refine ⟨_, _, (Image.ofProgram program).labels.sorted, ?_, listed,
    Image.lists_rows program fun entry member => (whole entry member).1,
    Image.lists_symbols distinct proper⟩
  refine Image.splitOn_listing (fun row known => ?_) proper
  obtain ⟨entry, inside, line⟩ := Image.exists_line_of_row program known
  obtain ⟨⟨number, numbered⟩, single⟩ := whole entry inside
  rw [← line] at numbered single
  exact Row.lineFeed_not_mem_text single numbered

/-- A listing with zeros in place of an instruction that cannot be encoded. Its last row shows a byte
at address two and the fourth line of the source. -/
theorem listing_accounts_for_undefined :
    let source := "jmp nowhere\n\n.top:\n.byte $07"
    let image := (Session.fresh.assemble source).1.image
    (Session.fresh.assemble source).2.toOption = none ∧
      ∃ rows lines : List (List Char),
        image.listing.toList.splitOn '\n' =
          Image.listingHead.map String.toList ++ rows ++ Image.labelHead.map String.toList ++
            lines ∧
        rows.length = 3 ∧ rows.flatMap listedBytes = [0, 0, 7] ∧
        (∃ row, rows[2]? = some row ∧ ShowsEntry 2 [7] ⟨3, 19, ".byte $07"⟩ row) ∧
        ∃ line ∈ lines, ShowsSymbol "top" 2 line := by
  intro source image
  let program := (Program.ofSource source).toOption.getD []
  have parsed : Program.ofSource source = .ok program := by decide +kernel
  obtain ⟨rows, lines, symbols, cut, _, lists, listsSymbols⟩ :=
    listing_accounts_for_every_byte Session.fresh parsed
  have count : program.length = 3 := by decide +kernel
  have code : image.code = [0, 0, 7] := by decide +kernel
  have bound : image.labels.address? "top" = some 2 := by decide +kernel
  refine ⟨by decide +kernel, rows, lines, cut, lists.count.trans count, lists.bytes.trans code,
    ?_, ?_⟩
  · obtain ⟨before, last, split, place⟩ : ∃ (before : Program) (last : Entry),
        program = before ++ [last] ∧ before.length = 2 ∧ before.size = 2 ∧
          last.statement.size = 1 ∧ last.line = ⟨3, 19, ".byte $07"⟩ :=
      ⟨program.take 2, program.getLast (by decide +kernel), by decide +kernel, by decide +kernel⟩
    obtain ⟨row, found, shows⟩ := lists.row before [] last split
    rw [place.1] at found
    rw [code, place.2.1, place.2.2.1, place.2.2.2] at shows
    exact ⟨row, found, shows⟩
  · obtain ⟨place, listed⟩ := (listsSymbols.bound "top" 2).mpr bound
    obtain ⟨index, inside, found⟩ := List.getElem_of_mem listed
    have same := listsSymbols.shown.length_eq
    have shows := (List.forall₂_iff_get.mp listsSymbols.shown).2 index inside (same ▸ inside)
    rw [List.get_eq_getElem, found] at shows
    exact ⟨_, List.get_mem _ _, shows⟩

end Octet
