/-
This file shows that labels are chosen well: they are proper names, no two
addresses have the same one, and something begins at each of their addresses.
The names that were given bring the first two properties with them. A made-up
name has to be found free, and there always is a free one, because there are
more candidates than names to stay clear of.
-/

import Octet.Disassembly.Source
import Octet.Proofs.Characters

namespace Octet

open Character

/-! ### Tables of names -/

namespace AddressNames

theorem mem_of_find? {names : AddressNames} {address : Int} {name : String}
    (found : names.find? address = some name) : (address, name) ∈ names := by
  obtain ⟨before, after, split, _⟩ := List.lookup_eq_some_iff.mp found
  rw [split]
  exact List.mem_append_right _ List.mem_cons_self

/-- Naming an address that has no name yet puts it behind the others. -/
theorem insert_of_find?_eq_none (names : AddressNames) (address : Int) (name : String)
    (unnamed : names.find? address = none) :
    names.insert address name = names ++ [(address, name)] := by
  induction names with
  | nil => rfl
  | cons pair rest inductionHypothesis =>
    obtain ⟨other, known⟩ := pair
    rw [find?, List.lookup_eq_none_iff, List.forall_mem_cons] at unnamed
    have different : other ≠ address := fun same => by simp [same] at unnamed
    have further := inductionHypothesis (List.lookup_eq_none_iff.mpr unnamed.2)
    rw [insert, if_neg different, further, List.cons_append]

/-- Naming an address puts nothing else into the table. -/
theorem mem_of_mem_insert {names : AddressNames} {address : Int} {name : String}
    {pair : Int × String} (member : pair ∈ names.insert address name) :
    pair = (address, name) ∨ pair ∈ names := by
  induction names with
  | nil => exact .inl (List.mem_singleton.mp member)
  | cons first rest inductionHypothesis =>
    obtain ⟨other, known⟩ := first
    rw [insert] at member
    by_cases same : other = address
    · rw [if_pos same] at member
      rcases List.mem_cons.mp member with new | old
      · exact .inl new
      · exact .inr (List.mem_cons_of_mem _ old)
    · rw [if_neg same] at member
      rcases List.mem_cons.mp member with same | later
      · exact .inr (same ▸ List.mem_cons_self)
      · exact (inductionHypothesis later).imp_right (List.mem_cons_of_mem _)

/-- Where no name is given twice, an address can be told from its name. -/
theorem find?_injective {names : AddressNames} (distinct : (names.map Prod.snd).Nodup)
    {first second : Int} {name : String} (foundFirst : names.find? first = some name)
    (foundSecond : names.find? second = some name) : first = second := by
  have memFirst := mem_of_find? foundFirst
  have memSecond := mem_of_find? foundSecond
  clear foundFirst foundSecond
  induction names with
  | nil => cases memFirst
  | cons pair rest inductionHypothesis =>
    rw [List.map_cons, List.nodup_cons] at distinct
    rcases List.mem_cons.mp memFirst with headFirst | tailFirst
    · rcases List.mem_cons.mp memSecond with headSecond | tailSecond
      · exact congrArg Prod.fst (headFirst.trans headSecond.symm)
      · have named : name = pair.2 := congrArg Prod.snd headFirst
        exact absurd (List.mem_map.mpr ⟨_, tailSecond, named⟩) distinct.1
    · rcases List.mem_cons.mp memSecond with headSecond | tailSecond
      · have named : name = pair.2 := congrArg Prod.snd headSecond
        exact absurd (List.mem_map.mpr ⟨_, tailFirst, named⟩) distinct.1
      · exact inductionHypothesis distinct.2 tailFirst tailSecond

end AddressNames

/-! ### The names of an address -/

/-- The names of an address: the plain one, and behind it those with a number. -/
def labelName (address : UInt8) : Nat → String
  | 0 => "L" ++ Text.hexByte address
  | count + 1 => "L" ++ Text.hexByte address ++ "n" ++ toString (count + 1)

theorem labelCandidates_eq (address : UInt8) (taken : Nat) :
    labelCandidates address taken = (List.range (taken + 1)).map (labelName address) := by
  rw [List.range_succ_eq_map, List.map_cons, List.map_map]
  rfl

/-- What stands in such a name behind the two digits. -/
def labelNumber : Nat → String
  | 0 => ""
  | count + 1 => "n" ++ toString (count + 1)

theorem toList_labelName (address : UInt8) (suffix : Nat) :
    (labelName address suffix).toList =
      'L' :: ((Text.hexByte address).toList ++ (labelNumber suffix).toList) := by
  have opens : "L".toList = ['L'] := rfl
  cases suffix with
  | zero =>
    rw [labelName, labelNumber, String.toList_append, opens, String.toList_empty, List.append_nil,
      List.singleton_append]
  | succ count =>
    simp only [labelName, labelNumber, String.toList_append, opens, List.append_assoc,
      List.cons_append, List.nil_append]

theorem toString_injective {first second : Nat} (same : toString first = toString second) :
    first = second := by
  have digits : Nat.toDigits 10 first = Nat.toDigits 10 second := by
    rw [Nat.toString_eq_ofList_toDigits, Nat.toString_eq_ofList_toDigits] at same
    exact String.ofList_injective same
  have read := congrArg (fun digits => Nat.ofDigitChars 10 digits 0) digits
  simpa only [Nat.ofDigitChars_ten_toDigits] using read

theorem labelNumber_injective {first second : Nat}
    (same : labelNumber first = labelNumber second) : first = second := by
  have marked : ∀ count, labelNumber (count + 1) ≠ "" := by
    intro count none
    have lengths := congrArg String.length none
    rw [labelNumber, String.length_append] at lengths
    have mark : "n".length = 1 := rfl
    have nothing : "".length = 0 := rfl
    omega
  cases first with
  | zero =>
    cases second with
    | zero => rfl
    | succ => exact absurd same.symm (marked _)
  | succ =>
    cases second with
    | zero => exact absurd same (marked _)
    | succ => exact toString_injective ((String.append_right_inj _).mp same)

/-- A name of an address tells that address, and which of its names it is. -/
theorem labelName_injective {first second : UInt8} {front back : Nat}
    (same : labelName first front = labelName second back) : first = second ∧ front = back := by
  have letters := congrArg String.toList same
  rw [toList_labelName, toList_labelName] at letters
  have long : (Text.hexByte first).toList.length = (Text.hexByte second).toList.length := by
    rw [String.length_toList, String.length_toList, Text.length_hexByte, Text.length_hexByte]
  obtain ⟨digits, number⟩ := List.append_inj (List.cons.inj letters).2 long
  exact ⟨Text.hexByte_injective (String.toList_inj.mp digits),
    labelNumber_injective (String.toList_inj.mp number)⟩

theorem isAlphanumeric_of_mem_hexByte (byte : UInt8) :
    ∀ c ∈ (Text.hexByte byte).toList, isAlphanumeric c = true := by
  intro c member
  exact isAlphanumeric_of_isHexDigit ((Text.hex_spec byte.toNat).1 c member)

theorem isAlphanumeric_of_mem_toString (number : Nat) :
    ∀ c ∈ (toString number).toList, isAlphanumeric c = true := by
  intro c member
  rw [Nat.toString_eq_ofList_toDigits, String.toList_ofList] at member
  have digit := Nat.isDigit_of_mem_toDigits (by decide) (by decide) member
  refine isAlphanumeric_of_isHexDigit ?_
  rw [isHexDigit, digit, Bool.true_or, Bool.true_or]

theorem isAlphanumeric_of_mem_labelNumber (suffix : Nat) :
    ∀ c ∈ (labelNumber suffix).toList, isAlphanumeric c = true := by
  have mark : isAlphanumeric 'n' = true := by decide +kernel
  cases suffix with
  | zero => exact fun c inside => absurd inside List.not_mem_nil
  | succ count =>
    intro c inside
    rw [labelNumber, String.toList_append] at inside
    rcases List.mem_append.mp inside with letter | number
    · rwa [List.mem_singleton.mp letter]
    · exact isAlphanumeric_of_mem_toString _ c number

/-- The names of an address are proper. -/
theorem isName_labelName (address : UInt8) (suffix : Nat) : IsName (labelName address suffix) := by
  have opens : opensName 'L' = true := by decide +kernel
  rw [IsName, toList_labelName, spellsName, opens, Bool.true_and, List.all_eq_true]
  intro c inside
  rcases List.mem_append.mp inside with digit | number
  · exact isAlphanumeric_of_mem_hexByte address c digit
  · exact isAlphanumeric_of_mem_labelNumber suffix c number

/-! ### The first free name -/

theorem nodup_labelCandidates (address : UInt8) (taken : Nat) :
    (labelCandidates address taken).Nodup := by
  rw [labelCandidates_eq]
  exact List.pairwise_map.mpr
    (List.nodup_range.imp fun different same => different (labelName_injective same).2)

/-- Looking for a free name finds the first one, and as many are tried in front of it as there are
taken names at most. -/
theorem freeLabel_eq_labelName (address : UInt8) (taken : List String) :
    ∃ suffix ≤ taken.length, freeLabel address taken = labelName address suffix ∧
      labelName address suffix ∉ taken ∧ ∀ count < suffix, labelName address count ∈ taken := by
  have looked : (labelCandidates address taken.length).find? (!taken.contains ·) =
      ((List.range (taken.length + 1)).find?
        ((!taken.contains ·) ∘ labelName address)).map (labelName address) := by
    rw [labelCandidates_eq, List.find?_map]
  rw [freeLabel, looked]
  cases found : (List.range (taken.length + 1)).find?
      ((!taken.contains ·) ∘ labelName address) with
  | none =>
    -- There are more candidates than taken names, so they cannot all be taken.
    rw [found, Option.map_none] at looked
    have all : labelCandidates address taken.length ⊆ taken := by
      intro name member
      have known := List.find?_eq_none.mp looked name member
      simpa using known
    have long := (nodup_labelCandidates address taken.length).length_le_of_subset all
    rw [labelCandidates_eq, List.length_map, List.length_range] at long
    exact absurd long (Nat.not_succ_le_self _)
  | some suffix =>
    obtain ⟨free, inside, below⟩ := List.find?_range_eq_some.mp found
    rw [List.mem_range] at inside
    refine ⟨suffix, Nat.le_of_lt_succ inside, rfl, by simpa using free, fun count fewer => ?_⟩
    simpa using below count fewer

/-- The free name for an address is a proper one, and it is free. -/
theorem freeLabel_spec (address : UInt8) (taken : List String) :
    IsName (freeLabel address taken) ∧ freeLabel address taken ∉ taken := by
  obtain ⟨suffix, _, named, free, _⟩ := freeLabel_eq_labelName address taken
  rw [named]
  exact ⟨isName_labelName address suffix, free⟩

/-! ### The labels that are chosen -/

/-- What labels must be for a program to define them: no two addresses have the same one, they
are proper names, and something begins at their addresses. -/
structure AddressNames.Usable (starts : List Int) (labels : AddressNames) : Prop where
  distinct : (labels.map Prod.snd).Nodup
  proper : ∀ pair ∈ labels, IsName pair.2
  begins : ∀ pair ∈ labels, pair.1 ∈ starts

/-- Naming the target of a jump keeps labels usable. -/
theorem AddressNames.Usable.nameTarget {starts : List Int} {labels : AddressNames}
    (usable : labels.Usable starts) (target : UInt8) :
    (nameTarget starts labels target).Usable starts := by
  unfold Octet.nameTarget
  by_cases wanted : (starts.contains target.toNat && (labels.find? target.toNat).isNone) = true
  · rw [if_pos wanted]
    rw [Bool.and_eq_true, List.contains_iff_mem, Option.isNone_iff_eq_none] at wanted
    obtain ⟨proper, free⟩ := freeLabel_spec target (labels.map Prod.snd)
    rw [insert_of_find?_eq_none _ _ _ wanted.2]
    refine ⟨?_, ?_, ?_⟩
    · rw [List.map_append, List.nodup_append]
      refine ⟨usable.distinct, List.pairwise_singleton _ _, fun name member other new => ?_⟩
      rintro rfl
      have same : name = freeLabel target (labels.map Prod.snd) := List.mem_singleton.mp new
      exact free (same ▸ member)
    · intro pair member
      rcases List.mem_append.mp member with old | new
      · exact usable.proper pair old
      · rwa [List.mem_singleton.mp new]
    · intro pair member
      rcases List.mem_append.mp member with old | new
      · exact usable.begins pair old
      · rw [List.mem_singleton.mp new]
        exact wanted.1
  · rwa [if_neg wanted]

theorem AddressNames.Usable.foldl {starts : List Int} {labels : AddressNames}
    (usable : labels.Usable starts) (targets : List UInt8) :
    (targets.foldl (Octet.nameTarget starts) labels).Usable starts := by
  induction targets generalizing labels with
  | nil => exact usable
  | cons target rest inductionHypothesis => exact inductionHypothesis (usable.nameTarget target)

/-- If the given names are proper and distinct, so are the labels that are chosen. -/
theorem usable_chooseLabels {names : AddressNames} (distinct : (names.map Prod.snd).Nodup)
    (proper : ∀ pair ∈ names, IsName pair.2) (decoded : List Decoded) :
    (chooseLabels names decoded).Usable (decoded.map Decoded.address) := by
  refine AddressNames.Usable.foldl ⟨?_, ?_, ?_⟩ _
  · exact distinct.sublist ((List.filter_sublist).map Prod.snd)
  · exact fun pair member => proper pair (List.mem_filter.mp member).1
  · intro pair member
    exact List.contains_iff_mem.mp (List.mem_filter.mp member).2

end Octet
