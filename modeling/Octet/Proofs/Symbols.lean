/-
This file shows that a symbol file is read back as the table of labels that it
was written for. A line of it holds a name, a space and the address behind a
dollar sign. Since a name holds no blank and every character that ends a line
is one, the lines fall apart as they were joined, and each of them into its two
fields.

Where several labels have one address, the table keeps the last of them in the
order of the file. No name is in it twice, for a program has no name twice.
-/

import Octet.Assembly.Listing
import Octet.Proofs.Mistakes
import Octet.Proofs.Naming
import Octet.Proofs.Reading
import Octet.Proofs.Utf8
import Octet.Tool.TextFile

namespace Octet

open Character

/-! ### Files of text -/

namespace Text

/-- In a text without carriage returns there is nothing to be unified. -/
theorem unifyChars_eq {text : List Char} (single : '\r' ∉ text) : unifyChars text = text := by
  induction text with
  | nil => rfl
  | cons c rest inductionHypothesis =>
    rw [List.mem_cons, not_or] at single
    rw [unifyChars, inductionHypothesis single.2]
    · exact fun _ same _ => single.1 same.symm
    · exact fun same => single.1 same.symm

end Text

/-- A text without carriage returns is read back from a file. -/
theorem textOfFile_encode {text : String} (single : '\r' ∉ text.toList) :
    textOfFile (Utf8.encode text) = .ok text := by
  rw [textOfFile, Utf8.encode, Utf8.decode_encodeChars, String.ofList_toList]
  show Except.ok (Text.unifyNewlines text) = .ok text
  rw [Text.unifyNewlines, Text.unifyChars_eq single, String.ofList_toList]

/-! ### Lines -/

namespace Text

/-- Whatever ends a line is a blank, and no space. -/
theorem not_isBoundary {c : Char} (visible : isBlank c = false ∨ c = ' ') :
    isBoundary c = false := by
  have checked : ∀ code ∈ [0x0A, 0x0B, 0x0C, 0x0D, 0x1C, 0x1D, 0x1E, 0x85, 0x2028, 0x2029],
      blankRanges.holds code = true ∧ code ≠ 0x20 := by
    decide
  refine Bool.eq_false_iff.mpr fun boundary => ?_
  obtain ⟨blank, other⟩ := checked c.toNat (List.contains_iff_mem.mp boundary)
  rcases visible with visible | rfl
  · exact Bool.false_ne_true (visible.symm.trans blank)
  · exact other rfl

/-- A line feed ends the line in front of it. -/
theorem boundedLines_line {line : List Char} (whole : ∀ c ∈ line, isBoundary c = false)
    (rest : List Char) : boundedLines (line ++ '\n' :: rest) = line :: boundedLines rest := by
  induction line with
  | nil => rfl
  | cons c more inductionHypothesis =>
    rw [List.forall_mem_cons] at whole
    have other : c ≠ '\r' := by
      rintro rfl
      exact absurd whole.1 (by decide)
    rw [List.cons_append, boundedLines, inductionHypothesis whole.2, whole.1]
    · rfl
    · exact fun _ same _ => other same

/-- Lines with a line feed behind each of them fall apart again. -/
theorem boundedLines_lines {lines : List String}
    (whole : ∀ line ∈ lines, ∀ c ∈ line.toList, isBoundary c = false) :
    boundedLines (String.join (lines.map (· ++ "\n"))).toList = lines.map String.toList := by
  rw [String.toList_join]
  induction lines with
  | nil => rfl
  | cons line rest inductionHypothesis =>
    rw [List.forall_mem_cons] at whole
    rw [List.map_cons, List.flatMap_cons, String.toList_append, List.append_assoc, List.map_cons,
      ← inductionHypothesis whole.2]
    exact boundedLines_line whole.1 _

end Text

/-! ### Trimming -/

theorem dropWhile_eq_of_head {text : List Char} {drops : Char → Bool}
    (head : ∀ c ∈ text.head?, drops c = false) : text.dropWhile drops = text := by
  cases text with
  | nil => rfl
  | cons c rest => exact List.dropWhile_cons_of_neg (Bool.eq_false_iff.mp (head c rfl))

/-- A text that neither begins nor ends with something to be cut off is left as it is. -/
theorem trimmed_eq {text : List Char} {drops : Char → Bool}
    (head : ∀ c ∈ text.head?, drops c = false) (last : ∀ c ∈ text.getLast?, drops c = false) :
    ((text.dropWhile drops).reverse.dropWhile drops).reverse = text := by
  have back : ∀ c ∈ text.reverse.head?, drops c = false := by
    rwa [List.head?_reverse]
  rw [dropWhile_eq_of_head head, dropWhile_eq_of_head back, List.reverse_reverse]

/-! ### Numbers -/

namespace Text

/-- What a hexadecimal digit is when a number is read. -/
structure ReadsAsDigit (c : Char) : Prop where
  plain : plainNumeralChar? c = some c
  visible : isPlainBlank c = false
  other : c ∉ ['-', '+', 'x', 'X', '_']
  value : (digitValue? c).filter (· < 16) = some (hexDigitValue c)

theorem readsAsDigit {c : Char} (digit : isHexDigit c = true) : ReadsAsDigit c := by
  have checked : ∀ code < 128, isHexDigit (Char.ofNat code) = true →
      plainNumeralChar? (Char.ofNat code) = some (Char.ofNat code) ∧
        isPlainBlank (Char.ofNat code) = false ∧
        Char.ofNat code ∉ ['-', '+', 'x', 'X', '_'] ∧
        (digitValue? (Char.ofNat code)).filter (· < 16) =
          some (hexDigitValue (Char.ofNat code)) := by
    decide +kernel
  have found := checked c.toNat (small_of_isHexDigit digit)
  rw [Char.ofNat_toNat] at found
  obtain ⟨plain, visible, other, value⟩ := found digit
  exact ⟨plain, visible, other, value⟩

section

variable {digits : List Char}

theorem mapM_plainNumeralChar? (hexadecimal : ∀ c ∈ digits, isHexDigit c = true) :
    digits.mapM plainNumeralChar? = some digits := by
  induction digits with
  | nil => rfl
  | cons c rest inductionHypothesis =>
    rw [List.forall_mem_cons] at hexadecimal
    rw [List.mapM_cons, (readsAsDigit hexadecimal.1).plain, inductionHypothesis hexadecimal.2]
    rfl

theorem splitSign_eq (hexadecimal : ∀ c ∈ digits, isHexDigit c = true) :
    splitSign digits = (false, digits) := by
  cases digits with
  | nil => rfl
  | cons c rest =>
    have other := (readsAsDigit (hexadecimal c List.mem_cons_self)).other
    simp only [List.mem_cons, not_or] at other
    rw [splitSign]
    · exact fun _ same => other.1 (List.cons.inj same).1
    · exact fun _ same => other.2.1 (List.cons.inj same).1

theorem dropBaseMark_eq (hexadecimal : ∀ c ∈ digits, isHexDigit c = true) :
    dropBaseMark digits = digits := by
  unfold dropBaseMark
  split
  · rename_i mark rest
    have member : mark ∈ '0' :: mark :: rest := List.mem_cons_of_mem _ List.mem_cons_self
    have other := (readsAsDigit (hexadecimal mark member)).other
    simp only [List.mem_cons, not_or] at other
    rw [if_neg (by simp [other])]
  · rfl

theorem digitsBetweenUnderscores?_eq (something : digits ≠ [])
    (hexadecimal : ∀ c ∈ digits, isHexDigit c = true) :
    digitsBetweenUnderscores? 16 digits = some (digits.map hexDigitValue) := by
  induction digits with
  | nil => exact absurd rfl something
  | cons c rest inductionHypothesis =>
    rw [List.forall_mem_cons] at hexadecimal
    rw [digitsBetweenUnderscores?, (readsAsDigit hexadecimal.1).value]
    cases rest with
    | nil => rfl
    | cons next more =>
      have other := (readsAsDigit (hexadecimal.2 next List.mem_cons_self)).other
      simp only [List.mem_cons, not_or] at other
      have followed := inductionHypothesis (List.cons_ne_nil _ _) hexadecimal.2
      simp only [Option.bind_eq_bind, Option.bind_some]
      split
      · rename_i same
        cases same
      · rename_i same
        exact absurd (List.cons.inj same).1 other.2.2.2.2.1
      · rw [followed]
        rfl

end

/-- The digits written for a number are read as that number. -/
theorem readHexadecimal?_hex (number : Nat) :
    readHexadecimal? (hex number).toList = some (number : Int) := by
  obtain ⟨hexadecimal, made, something⟩ := hex_spec number
  generalize (hex number).toList = digits at hexadecimal made something
  have visible : ∀ c ∈ digits, isPlainBlank c = false :=
    fun c member => (readsAsDigit (hexadecimal c member)).visible
  have trimmed := trimmed_eq (fun c first => visible c (List.mem_of_mem_head? first))
    fun c last => visible c (List.mem_of_mem_getLast? last)
  have value : numberOfDigits 16 (digits.map hexDigitValue) = number := by
    rw [numberOfDigits, List.foldl_map]
    exact made
  have read : numeral? 16 digits = some (false, digits.map hexDigitValue) := by
    simp only [numeral?, mapM_plainNumeralChar? hexadecimal, Option.bind_eq_bind,
      Option.bind_some, trimmed, splitSign_eq hexadecimal, dropBaseMark_eq hexadecimal,
      digitsBetweenUnderscores?_eq something hexadecimal, if_pos]
  rw [readHexadecimal?, read, Option.map_some]
  exact congrArg some (congrArg Int.ofNat value)

end Text

/-! ### Symbols on lines -/

/-- Two words with a space between them are two fields. -/
theorem fields_pair {first second : List Char} (something : first ≠ []) (more : second ≠ [])
    (visibleFirst : ∀ c ∈ first, isBlank c = false)
    (visibleSecond : ∀ c ∈ second, isBlank c = false) :
    fields (first ++ ' ' :: second) = [first, second] := by
  rw [fields, List.splitOnP_append_cons_of_forall_mem visibleFirst ' ' isBlank_space,
    List.splitOnP_eq_singleton visibleSecond]
  simp [something, more]

namespace Label

variable {label : Label}

theorem toList_filed (label : Label) :
    label.filed.toList = label.name.toList ++ ' ' :: '$' :: (Text.hex label.address).toList := by
  rw [filed, String.toList_append, String.toList_append, List.append_assoc,
    Text.toList_dollarHex]
  rfl

theorem visible_value (address : Nat) :
    ∀ c ∈ '$' :: (Text.hex address).toList, isBlank c = false :=
  List.forall_mem_cons.mpr ⟨rfl, fun c member => isBlank_of_isAlphanumeric
    (isAlphanumeric_of_isHexDigit ((Text.hex_spec address).1 c member))⟩

/-- No character of a line in a symbol file ends the line. -/
theorem not_isBoundary_filed (proper : IsName label.name) :
    ∀ c ∈ label.filed.toList, Text.isBoundary c = false := by
  intro c member
  refine Text.not_isBoundary ?_
  rw [toList_filed] at member
  rcases List.mem_append.mp member with name | rest
  · exact .inl (not_blank_of_isName proper c name)
  · rcases List.mem_cons.mp rest with space | value
    · exact .inr space
    · exact .inl (visible_value label.address c value)

/-- The line of a label needs no trimming and is no comment. -/
theorem trimBlanks_filed (proper : IsName label.name) :
    trimBlanks label.filed.toList = label.filed.toList ∧
      label.filed.toList.isEmpty = false ∧ label.filed.toList.head? ≠ some '#' := by
  rw [toList_filed]
  cases spelled : label.name.toList with
  | nil =>
    rw [IsName, spelled] at proper
    cases proper
  | cons first rest =>
    have opens : opensName first = true := by
      rw [IsName, spelled, spellsName, Bool.and_eq_true] at proper
      exact proper.1
    refine ⟨trimmed_eq (fun c head => ?_) fun c last => ?_, rfl, fun number => ?_⟩
    · rw [← Option.some_inj.mp head]
      exact isBlank_of_opensName opens
    · rw [List.getLast?_append_of_ne_nil _ (List.cons_ne_nil _ _), List.getLast?_cons_cons] at last
      exact visible_value label.address c (List.mem_of_mem_getLast? last)
    · rw [Option.some_inj.mp number] at opens
      exact absurd opens (by decide)

/-- The line of a label is read as its address and its name. -/
theorem symbolOfLine?_filed (proper : IsName label.name) :
    symbolOfLine? label.filed.toList = some ((label.address : Int), label.name) := by
  have something : label.name.toList ≠ [] := by
    intro empty
    rw [IsName, empty] at proper
    cases proper
  have digits : ('$' :: (Text.hex label.address).toList).dropWhile (· = '$') =
      (Text.hex label.address).toList := by
    rw [List.dropWhile_cons_of_pos (by decide)]
    refine dropWhile_eq_of_head fun c head => ?_
    have digit := (Text.hex_spec label.address).1 c (List.mem_of_mem_head? head)
    refine decide_eq_false fun dollar => ?_
    rw [dollar] at digit
    exact absurd digit (by decide)
  rw [symbolOfLine?, toList_filed, fields_pair something (List.cons_ne_nil _ _)
    (not_blank_of_isName proper) (visible_value label.address)]
  simp only [digits, Text.readHexadecimal?_hex, Option.map_some, String.ofList_toList]

end Label

/-! ### Files of symbols -/

namespace AddressNames

/-- The lines of some labels name the addresses of these labels, one after the other. -/
theorem addLines_filed {labels : Labels} (proper : ∀ label ∈ labels, IsName label.name)
    (names : AddressNames) (number : Nat) :
    names.addLines number ((labels.map Label.filed).map String.toList) =
      .ok (labels.foldl (fun names label => names.insert label.address label.name) names) := by
  induction labels generalizing names number with
  | nil => rfl
  | cons label rest inductionHypothesis =>
    rw [List.forall_mem_cons] at proper
    obtain ⟨trimmed, something, noComment⟩ := Label.trimBlanks_filed proper.1
    rw [List.map_cons, List.map_cons, addLines, trimmed, something, decide_eq_false noComment,
      Bool.or_false, if_neg Bool.false_ne_true, Label.symbolOfLine?_filed proper.1]
    exact inductionHypothesis proper.2 _ _

/-- The table of some labels: the addresses with their names, of which later ones count. -/
def ofLabels (labels : Labels) : AddressNames :=
  .ofPairs (labels.map fun label => (label.address, label.name))

/-- A line that begins with a number sign is passed over. -/
theorem addLines_comment (names : AddressNames) (number : Nat) {line : List Char}
    (comment : (trimBlanks line).head? = some '#') (rest : List (List Char)) :
    names.addLines number (line :: rest) = names.addLines (number + 1) rest := by
  rw [addLines, comment, decide_eq_true rfl, Bool.or_true, if_pos rfl]

end AddressNames

section

variable {image : Image} (proper : ∀ label ∈ image.labels, IsName label.name)

include proper

/-- The characters that end lines in a symbol file are line feeds. -/
theorem boundedLines_symbolFile :
    '\r' ∉ image.symbolFile.toList ∧ Text.boundedLines image.symbolFile.toList =
      "# Symbol table".toList :: "# Generated by t8asm".toList ::
        (image.labels.sorted.map Label.filed).map String.toList := by
  have heading : ∀ line ∈ ["# Symbol table", "# Generated by t8asm"],
      line.toList.all (!Text.isBoundary ·) = true := by
    decide
  have whole : ∀ line ∈ ["# Symbol table", "# Generated by t8asm"] ++
      image.labels.sorted.map Label.filed, ∀ c ∈ line.toList, Text.isBoundary c = false := by
    intro line member
    rcases List.mem_append.mp member with head | symbol
    · intro c inside
      have checked := List.all_eq_true.mp (heading line head) c inside
      rwa [Bool.not_eq_true'] at checked
    · obtain ⟨label, listed, rfl⟩ := List.mem_map.mp symbol
      exact Label.not_isBoundary_filed (proper label (List.mem_mergeSort.mp listed))
  refine ⟨fun member => ?_, Text.boundedLines_lines whole⟩
  rw [Image.symbolFile, String.toList_join] at member
  obtain ⟨ended, listed, inside⟩ := List.mem_flatMap.mp member
  obtain ⟨line, known, rfl⟩ := List.mem_map.mp listed
  rw [String.toList_append] at inside
  rcases List.mem_append.mp inside with inLine | feed
  · exact absurd (whole line known _ inLine) (by decide)
  · exact absurd feed (by decide)

/-- A symbol file is read back as the table of its labels. -/
theorem ofFile_symbolFile : AddressNames.ofFile (Utf8.encode image.symbolFile) =
    .ok (.ofLabels image.labels.sorted) := by
  obtain ⟨single, lines⟩ := boundedLines_symbolFile proper
  have sortedProper : ∀ label ∈ image.labels.sorted, IsName label.name := fun label member =>
    proper label (List.mem_mergeSort.mp member)
  have read : AddressNames.ofSymbolFile image.symbolFile =
      .ok (.ofLabels image.labels.sorted) := by
    rw [AddressNames.ofSymbolFile, lines, AddressNames.addLines_comment _ _ (by decide),
      AddressNames.addLines_comment _ _ (by decide), AddressNames.addLines_filed sortedProper,
      AddressNames.ofLabels, AddressNames.ofPairs, List.foldl_map]
  rw [AddressNames.ofFile, textOfFile_encode single]
  simp only [read]
  rfl

end

/-! ### What the table holds -/

namespace AddressNames

/-- By a name that is not in the table an address is named without repetition. -/
theorem nodup_insert {names : AddressNames} (distinct : (names.map Prod.snd).Nodup)
    {name : String} (fresh : name ∉ names.map Prod.snd) (address : Int) :
    ((names.insert address name).map Prod.snd).Nodup := by
  induction names with
  | nil => exact List.nodup_singleton name
  | cons first rest inductionHypothesis =>
    obtain ⟨other, known⟩ := first
    rw [List.map_cons, List.nodup_cons] at distinct
    rw [List.map_cons, List.mem_cons, not_or] at fresh
    rw [insert]
    split_ifs
    · exact List.nodup_cons.mpr ⟨fresh.2, distinct.2⟩
    · refine List.nodup_cons.mpr ⟨fun listed => ?_, inductionHypothesis distinct.2 fresh.2⟩
      obtain ⟨pair, member, same⟩ := List.mem_map.mp listed
      rcases mem_of_mem_insert member with rfl | old
      · exact fresh.1 same
      · exact distinct.1 (same ▸ List.mem_map_of_mem old)

/-- Pairs without a repeated name make a table of some of them, without a repeated name. -/
theorem foldl_insert (pairs : List (Int × String)) {names : AddressNames}
    (distinct : (names.map Prod.snd ++ pairs.map Prod.snd).Nodup) :
    ((pairs.foldl (fun names pair => names.insert pair.1 pair.2) names).map Prod.snd).Nodup ∧
      ∀ pair ∈ pairs.foldl (fun names pair => names.insert pair.1 pair.2) names,
        pair ∈ names ∨ pair ∈ pairs := by
  induction pairs generalizing names with
  | nil =>
    rw [List.map_nil, List.append_nil] at distinct
    exact ⟨distinct, fun pair member => .inl member⟩
  | cons first rest inductionHypothesis =>
    obtain ⟨address, name⟩ := first
    rw [List.map_cons, List.nodup_append, List.nodup_cons] at distinct
    obtain ⟨distinctNames, ⟨absent, distinctRest⟩, apart⟩ := distinct
    have fresh : name ∉ names.map Prod.snd := fun known =>
      apart name known name List.mem_cons_self rfl
    have next : ((names.insert address name).map Prod.snd ++ rest.map Prod.snd).Nodup := by
      refine List.nodup_append.mpr
        ⟨nodup_insert distinctNames fresh address, distinctRest, fun one listed other known => ?_⟩
      rintro rfl
      obtain ⟨pair, member, same⟩ := List.mem_map.mp listed
      rcases mem_of_mem_insert member with rfl | old
      · exact absent (same ▸ known)
      · exact apart one (same ▸ List.mem_map_of_mem old) one (List.mem_cons_of_mem _ known) rfl
    obtain ⟨nodup, origin⟩ := inductionHypothesis next
    refine ⟨nodup, fun pair member => ?_⟩
    rcases origin pair member with named | later
    · rcases mem_of_mem_insert named with rfl | old
      · exact .inr List.mem_cons_self
      · exact .inl old
    · exact .inr (List.mem_cons_of_mem _ later)

end AddressNames

/-- The labels of a source have proper names, and none has the name of another. -/
theorem Program.labels_proper {source : String} {program : Program}
    (parsed : Program.ofSource source = .ok program) :
    (program.labels.1.map Label.name).Nodup ∧
      ∀ label ∈ program.labels.1, IsName label.name := by
  have names := program.knows_labels.1.names
  refine ⟨names ▸ program.nodup_names, fun label member => ?_⟩
  have listed : label.name ∈ program.names := names ▸ List.mem_map_of_mem member
  rw [Program.names, List.mem_eraseDups] at listed
  obtain ⟨statement, said, defines⟩ := List.mem_filterMap.mp listed
  obtain ⟨entry, held, rfl⟩ := List.mem_map.mp said
  have spellable := Program.spellable_of_ofSource parsed entry held
  cases stated : entry.statement with
  | label name span =>
    rw [stated] at spellable defines
    rw [← Option.some_inj.mp defines]
    exact spellable.proper (.identifier name) (by simp [Statement.tokens])
  | byte value =>
    rw [stated] at defines
    cases defines
  | instruction held =>
    rw [stated] at defines
    cases defines

/-- The symbol file of a source is read back. Its names are proper and without repetitions. -/
theorem Program.names_read_back {source : String} {program : Program}
    (parsed : Program.ofSource source = .ok program) :
    let names := AddressNames.ofLabels (Image.ofProgram program).labels.sorted
    AddressNames.ofFile (Utf8.encode (Image.ofProgram program).symbolFile) = .ok names ∧
      (names.map Prod.snd).Nodup ∧ ∀ pair ∈ names, IsName pair.2 := by
  obtain ⟨distinct, proper⟩ := Program.labels_proper parsed
  have sorted : (Image.ofProgram program).labels.sorted.Perm program.labels.1 :=
    List.mergeSort_perm _ _
  let pairs : List (Int × String) :=
    (Image.ofProgram program).labels.sorted.map fun label => (label.address, label.name)
  have named : pairs.map Prod.snd = (Image.ofProgram program).labels.sorted.map Label.name :=
    List.map_map
  have fresh : (([] : AddressNames).map Prod.snd ++ pairs.map Prod.snd).Nodup := by
    rw [named]
    exact (sorted.map Label.name).nodup_iff.mpr distinct
  obtain ⟨nodup, origin⟩ := AddressNames.foldl_insert pairs fresh
  refine ⟨ofFile_symbolFile proper, nodup, fun pair member => ?_⟩
  rcases origin pair member with none | listed
  · exact absurd none List.not_mem_nil
  · obtain ⟨label, known, rfl⟩ := List.mem_map.mp listed
    exact proper label (sorted.mem_iff.mp known)

end Octet
