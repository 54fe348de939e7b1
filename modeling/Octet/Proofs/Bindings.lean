/-
This file shows what a symbol file tells when it is read back. An address may be
bound to several labels, but a table has room for one name: the label that the
file tells last. Labels are filed in the order of their names, which compares
them code point by code point, so that is the greatest of them, wherever in the
source it is defined.
-/

import Octet.Proofs.Labelling
import Octet.Proofs.Listings

namespace Octet

/-! ### Tables made of sorted pairs -/

namespace AddressNames

/-- A name that is put into a table is found there, and the other addresses keep theirs. -/
theorem find?_insert (names : AddressNames) (address other : Int) (name : String) :
    (names.insert address name).find? other =
      if other = address then some name else names.find? other := by
  induction names with
  | nil => exact find?_cons (address, name) [] other
  | cons pair rest inductionHypothesis =>
    obtain ⟨known, old⟩ := pair
    rw [insert]
    by_cases same : known = address
    · subst same
      rw [if_pos rfl, find?_cons, find?_cons]
      split_ifs <;> rfl
    · rw [if_neg same, find?_cons, find?_cons, inductionHypothesis]
      by_cases here : other = known
      · rw [if_pos here, if_neg (here ▸ same), if_pos here]
      · rw [if_neg here, if_neg here]

theorem ofPairs_append_single (front : List (Int × String)) (pair : Int × String) :
    ofPairs (front ++ [pair]) = (ofPairs front).insert pair.1 pair.2 := by
  rw [ofPairs, List.foldl_append]
  rfl

/-- The names that pairs give to an address. -/
def candidates (pairs : List (Int × String)) (address : Int) : Set String :=
  {name | (address, name) ∈ pairs}

theorem candidates_append_other {pair : Int × String} {address : Int} (other : address ≠ pair.1)
    (front : List (Int × String)) :
    candidates (front ++ [pair]) address = candidates front address := by
  ext name
  have apart : (address, name) ≠ pair := fun same => other (congrArg Prod.fst same)
  simp [candidates, apart]

/-- Of pairs in the order of their names, the table keeps the greatest name of each address. -/
theorem find?_ofPairs_of_sorted {pairs : List (Int × String)}
    (sorted : pairs.Pairwise fun first second => first.2 < second.2) (address : Int)
    (name : String) :
    (ofPairs pairs).find? address = some name ↔ IsGreatest (candidates pairs address) name := by
  induction pairs using List.reverseRecOn with
  | nil => exact iff_of_false nofun fun greatest => List.not_mem_nil greatest.1
  | append_singleton front pair inductionHypothesis =>
    obtain ⟨sortedFront, _, below⟩ := List.pairwise_append.mp sorted
    rw [ofPairs_append_single, find?_insert]
    by_cases here : address = pair.1
    · have greatest : IsGreatest (candidates (front ++ [pair]) address) pair.2 := by
        refine ⟨List.mem_append_right _ (here ▸ List.mem_singleton_self pair),
          fun known member => ?_⟩
        rcases List.mem_append.mp member with earlier | last
        · exact le_of_lt (below _ earlier pair (List.mem_singleton_self pair))
        · exact le_of_eq (congrArg Prod.snd (List.mem_singleton.mp last))
      rw [if_pos here, Option.some_inj]
      exact ⟨fun same => same ▸ greatest, greatest.unique⟩
    · rw [if_neg here, candidates_append_other here]
      exact inductionHypothesis sortedFront

/-- The addresses in a table are those that the pairs name. -/
theorem named_ofPairs_iff (pairs : List (Int × String)) (address : Int) :
    (∃ name, (ofPairs pairs).find? address = some name) ↔ (candidates pairs address).Nonempty := by
  induction pairs using List.reverseRecOn with
  | nil =>
    refine iff_of_false ?_ ?_
    · rintro ⟨_, found⟩
      cases found
    · rintro ⟨_, none⟩
      cases none
  | append_singleton front pair inductionHypothesis =>
    rw [ofPairs_append_single]
    simp only [find?_insert]
    by_cases here : address = pair.1
    · simp only [if_pos here]
      exact iff_of_true ⟨pair.2, rfl⟩
        ⟨pair.2, List.mem_append_right _ (here ▸ List.mem_singleton_self pair)⟩
    · simp only [if_neg here, candidates_append_other here]
      exact inductionHypothesis

end AddressNames

/-! ### Labels and their addresses -/

/-- The labels that a program binds to an address. -/
def Program.labelsAt (program : Program) (address : Int) : Set String :=
  {name | ∃ place : Nat, program.DefinesAt name place ∧ address = place}

theorem Program.mem_labelsAt_iff {program : Program}
    (distinct : (program.labels.1.map Label.name).Nodup) (address : Int) (name : String) :
    name ∈ program.labelsAt address ↔
      ∃ label ∈ (Image.ofProgram program).labels, label.address = address ∧ label.name = name := by
  constructor
  · rintro ⟨place, defines, rfl⟩
    obtain ⟨line, listed⟩ := (Image.mem_sorted_iff distinct _ _).mpr
      ((Image.address?_eq_some_iff program _ _).mpr defines)
    exact ⟨_, List.mem_mergeSort.mp listed, rfl, rfl⟩
  · rintro ⟨⟨_, place, line⟩, known, rfl, rfl⟩
    have listed := (Image.mem_sorted_iff distinct _ _).mp ⟨line, List.mem_mergeSort.mpr known⟩
    exact ⟨place, (Image.address?_eq_some_iff program _ _).mp listed, rfl⟩

/-- The labels of an image name what the program binds. -/
theorem Image.candidates_labels {program : Program}
    (distinct : (program.labels.1.map Label.name).Nodup) (address : Int) :
    AddressNames.candidates ((ofProgram program).labels.sorted.map fun label =>
      (label.address, label.name)) address = program.labelsAt address := by
  ext name
  rw [Program.mem_labelsAt_iff distinct, AddressNames.candidates, Set.mem_ofPred_eq, List.mem_map]
  simp only [Prod.mk.injEq, Labels.sorted, List.mem_mergeSort]

/-- The symbol file of a source that assembles is read back. The addresses in the table are those
that have a label, each with the greatest of its labels. No name stands for two addresses, and each
is read as one name. -/
theorem symbol_files_read_back (session : Session) {source : String} {code : List UInt8}
    (assembled : (session.assemble source).2 = .ok code) :
    let image := (session.assemble source).1.image
    ∃ program names, Program.ofSource source = .ok program ∧
      AddressNames.ofFile (Utf8.encode image.symbolFile) = .ok names ∧
      (names.map Prod.fst).Nodup ∧
      (∀ address,
        (∃ name, names.find? address = some name) ↔ (program.labelsAt address).Nonempty) ∧
      (∀ address name,
        names.find? address = some name ↔ IsGreatest (program.labelsAt address) name) ∧
      (names.map Prod.snd).Nodup ∧ ∀ pair ∈ names, LexesAsName pair.2 := by
  intro image
  cases parsed : Program.ofSource source with
  | error diagnostics =>
    rw [Session.assemble, parsed] at assembled
    cases assembled
  | ok program =>
    have same : image = Image.ofProgram program :=
      congrArg (·.1.image) (session.assemble_of_parsed parsed)
    obtain ⟨read, distinct, proper⟩ := Program.names_read_back parsed
    have single := (Program.labels_proper parsed).1
    have sorted : ((Image.ofProgram program).labels.sorted.map fun label =>
        ((label.address : Int), label.name)).Pairwise fun first second => first.2 < second.2 :=
      List.pairwise_map.mpr (Labels.sorted_strict single)
    refine ⟨program, _, rfl, same ▸ read, AddressNames.single_ofPairs _, fun address => ?_,
      fun address name => ?_, distinct,
      fun pair member => lexesAsName_of_isName (proper pair member)⟩
    · rw [← Image.candidates_labels single]
      exact AddressNames.named_ofPairs_iff _ address
    · rw [← Image.candidates_labels single]
      exact AddressNames.find?_ofPairs_of_sorted sorted address name

/-- The label that is defined first is the greater of two, and the file tells it last. -/
theorem symbol_file_of_synonyms_reads_back :
    let source := ".é:\n.Z:\nnop\n._:"
    let file := Utf8.encode (Session.fresh.assemble source).1.image.symbolFile
    (Session.fresh.assemble source).2 = .ok [0x00] ∧
      ∃ names, AddressNames.ofFile file = .ok names ∧ names.find? 0 = some "é" := by
  intro source file
  let program := (Program.ofSource source).toOption.getD []
  have parsed : Program.ofSource source = .ok program := by decide +kernel
  have assembled : (Session.fresh.assemble source).2 = .ok [0x00] := by decide +kernel
  obtain ⟨other, names, again, read, _, _, greatest, _⟩ :=
    symbol_files_read_back Session.fresh assembled
  obtain rfl : program = other := Except.ok.inj (parsed.symm.trans again)
  have bound := Program.mem_labelsAt_iff (Program.labels_proper parsed).1 0
  have known : ∃ label ∈ (Image.ofProgram program).labels,
      (label.address : Int) = 0 ∧ label.name = "é" := by
    decide +kernel
  have below : ∀ label ∈ (Image.ofProgram program).labels,
      (label.address : Int) = 0 → label.name ≤ "é" := by
    decide +kernel
  refine ⟨assembled, names, read,
    (greatest 0 "é").mpr ⟨(bound "é").mpr known, fun name member => ?_⟩⟩
  obtain ⟨label, listed, place, rfl⟩ := (bound name).mp member
  exact below label listed place

end Octet
