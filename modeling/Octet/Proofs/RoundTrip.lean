/-
This file shows that the program written for some bytes assembles to these
bytes. What is written for them is read as the statements that they stand for,
and these say the bytes again, provided that every label in them leads back to
its address.

Without labels nothing has to lead anywhere, and the program restores data of
any length; only its size may be wrong with it. With labels the first pass must
bind every label to the address that it was chosen for. A label is defined
where something begins, so it is bound to the first address that has it, and no
two addresses have the same one.
-/

import Octet.Assembly.Session
import Octet.Proofs.Meaning
import Octet.Proofs.Printing

namespace Octet

open Character

/-! ### What is written for some data is read as what it stands for -/

/-- The program written for some data says the statements that the data stands for. -/
theorem ofSource_sourceText (names labels : AddressNames) (data : List UInt8) (withLabels : Bool)
    (chosen : labels = if withLabels then chooseLabels names (decodeAll 0 data) else [])
    (single : ∀ pair ∈ names, '\n' ∉ pair.2.toList)
    (proper : ∀ address name, labels.find? address = some name → IsName name) :
    ∃ program, Program.ofSource (sourceText names data withLabels) = .ok program ∧
      program.Says ((decodeAll 0 data).flatMap (Decoded.meant labels)) := by
  have whole := (Decoded.covers_decodeAll 0 data).whole
  unfold sourceText
  simp only [← chosen]
  refine Program.ofSource_lines _ (fun line member => ?_) (Decoded.spells_all names whole proper)
  obtain ⟨one, listed, written⟩ := List.mem_flatMap.mp member
  exact Decoded.break_not_mem_statements (whole one listed) isBreak_lineFeed single proper line
    written

/-- A program that says what some data stands for encodes to the data, if its labels lead back to
their addresses and none is defined twice; only its size may be wrong with it. -/
theorem Program.Says.restores {program : Program} {labels : AddressNames} {data : List UInt8}
    (meaning : program.Says ((decodeAll 0 data).flatMap (Decoded.meant labels)))
    (leads : labels.Leads (Image.ofProgram program).labels.address?)
    (distinct : ((decodeAll 0 data).filterMap fun one => labels.find? one.address).Nodup) :
    (Image.ofProgram program).code = data ∧
      (Image.ofProgram program).result = if data.length ≤ memorySize then .ok data
        else .error [⟨.programTooLarge data.length, none, none, none⟩] := by
  have covers := Decoded.covers_decodeAll 0 data
  have code : (Image.ofProgram program).code = data := by rw [meaning.code, covers.code leads]
  have size : program.size = data.length := by rw [meaning.size, covers.sizes]
  refine ⟨code, ?_⟩
  rw [Image.result, meaning.diagnostics ((covers.defined? labels).symm ▸ distinct)
    (covers.resolved leads), Image.oversize, size, code]
  by_cases fits : data.length ≤ memorySize
  · rw [if_pos fits, if_pos fits]
  · rw [if_neg fits, if_neg fits]

/-! ### Without labels -/

/-- The program written without labels restores data of any length, whatever the comments in it
say. If the data is too long for the memory, that is the one thing wrong. -/
theorem plain_source_restores_data (session : Session) (names : AddressNames)
    (single : ∀ pair ∈ names, '\n' ∉ pair.2.toList) (data : List UInt8) :
    ∃ program, Program.ofSource (sourceText names data false) = .ok program ∧
      (session.assemble (sourceText names data false)).1 =
        ⟨some program, Image.ofProgram program⟩ ∧
      (Image.ofProgram program).code = data ∧
      (session.assemble (sourceText names data false)).2 =
        if data.length ≤ memorySize then .ok data
        else .error [⟨.programTooLarge data.length, none, none, none⟩] := by
  obtain ⟨program, read, meaning⟩ := ofSource_sourceText names [] data false rfl single
    fun _ _ found => by cases found
  have unlabelled : ((decodeAll 0 data).filterMap fun one =>
      AddressNames.find? [] one.address) = [] := List.filterMap_eq_nil_iff.mpr fun _ _ => rfl
  obtain ⟨code, result⟩ := meaning.restores (fun _ _ found => by cases found)
    (unlabelled ▸ List.nodup_nil)
  refine ⟨program, read, ?_, code, ?_⟩
  · rw [session.assemble_of_parsed read]
  · rw [session.assemble_of_parsed read]
    exact result

/-- A name that looks like a comment and a bracket does no harm, nor does an instruction that is
cut short. -/
theorem plain_source_restores_cut_data :
    let names : AddressNames := [(5, "]; .byte $00")]
    (∀ pair ∈ names, '\n' ∉ pair.2.toList) ∧
      (Session.fresh.assemble (sourceText names [0x10, 0x05, 0x11] false)).2 =
        .ok [0x10, 0x05, 0x11] := by
  intro names
  have single : ∀ pair ∈ names, '\n' ∉ pair.2.toList := by decide
  obtain ⟨_, _, _, _, result⟩ :=
    plain_source_restores_data Session.fresh names single [0x10, 0x05, 0x11]
  exact ⟨single, result⟩

/-! ### With labels -/

section

variable {labels : AddressNames} {data : List UInt8}

/-- Every label of a program for some data is bound to its own address, and nothing else is
bound. -/
theorem Program.Says.address?_iff {program : Program}
    (meaning : program.Says ((decodeAll 0 data).flatMap (Decoded.meant labels)))
    (usable : labels.Usable ((decodeAll 0 data).map Decoded.address)) (name : String)
    (address : Int) :
    ((Image.ofProgram program).labels.address? name).map Int.ofNat = some address ↔
      labels.find? address = some name := by
  have covers := Decoded.covers_decodeAll 0 data
  have begins : ∀ one ∈ decodeAll 0 data, Int.ofNat one.address.toNat = one.address :=
    fun one member => Int.toNat_of_nonneg (covers.le_address one member)
  rw [meaning.address?, covers.boundFrom? labels name 0 rfl]
  cases searched : (decodeAll 0 data).find? fun one => labels.find? one.address = some name with
  | some one =>
    have chosen := List.find?_some searched
    have named : labels.find? one.address = some name := of_decide_eq_true chosen
    rw [Option.map_some, Option.map_some, begins one (List.mem_of_find?_eq_some searched),
      Option.some_inj]
    constructor
    · rintro rfl
      exact named
    · exact AddressNames.find?_injective usable.distinct named
  | none =>
    refine ⟨fun bound => (by cases bound), fun named => ?_⟩
    obtain ⟨one, member, place⟩ :=
      List.mem_map.mp (usable.begins _ (AddressNames.mem_of_find? named))
    have missed := List.find?_eq_none.mp searched one member
    have place : one.address = address := place
    rw [place, named] at missed
    exact absurd (decide_eq_true rfl) missed

/-- The labels of a program for some data lead back to their addresses. -/
theorem Program.Says.leads {program : Program}
    (meaning : program.Says ((decodeAll 0 data).flatMap (Decoded.meant labels)))
    (usable : labels.Usable ((decodeAll 0 data).map Decoded.address)) :
    labels.Leads (Image.ofProgram program).labels.address? := by
  intro byte name found
  obtain ⟨address, same, exact⟩ :=
    Option.map_eq_some_iff.mp ((meaning.address?_iff usable name byte.toNat).mpr found)
  rw [same, Int.ofNat_inj.mp exact]

/-- No label of a program for some data is defined twice. -/
theorem AddressNames.Usable.nodup_defined
    (usable : labels.Usable ((decodeAll 0 data).map Decoded.address)) :
    ((decodeAll 0 data).filterMap fun one => labels.find? one.address).Nodup := by
  refine List.pairwise_filterMap.mpr ((Decoded.covers_decodeAll 0 data).pairwise.imp ?_)
  intro first second before name found other foundOther same
  subst same
  exact absurd (AddressNames.find?_injective usable.distinct found foundOther) (Int.ne_of_lt before)

end

/-- The program written with labels restores data that fits into the memory, and its labels are
bound to the addresses that they were chosen for, and to no others. -/
theorem labelled_source_restores_data (session : Session) (names : AddressNames)
    (distinct : (names.map Prod.snd).Nodup) (proper : ∀ pair ∈ names, IsName pair.2)
    (data : List UInt8) (fits : data.length ≤ memorySize) :
    (session.assemble (sourceText names data true)).2 = .ok data ∧
      ∀ (name : String) (address : Int),
        ((session.assemble (sourceText names data true)).1.image.labels.address? name).map
            Int.ofNat = some address ↔
          (chooseLabels names (decodeAll 0 data)).find? address = some name := by
  have usable := usable_chooseLabels distinct proper (decodeAll 0 data)
  have single : ∀ pair ∈ names, '\n' ∉ pair.2.toList := by
    intro pair member inside
    have visible := not_blank_of_isName (proper pair member) '\n' inside
    rw [isBlank_lineFeed] at visible
    cases visible
  obtain ⟨program, read, meaning⟩ := ofSource_sourceText names _ data true rfl single
    fun address name found => usable.proper _ (AddressNames.mem_of_find? found)
  have bound := meaning.address?_iff usable
  have leads : (chooseLabels names (decodeAll 0 data)).Leads
      (Image.ofProgram program).labels.address? := by
    intro byte name found
    obtain ⟨address, same, exact⟩ := Option.map_eq_some_iff.mp ((bound name byte.toNat).mpr found)
    rw [same, Int.ofNat_inj.mp exact]
  obtain ⟨_, result⟩ := meaning.restores leads usable.nodup_defined
  rw [if_pos fits] at result
  have assembled : session.assemble (sourceText names data true) =
      (⟨some program, Image.ofProgram program⟩, (Image.ofProgram program).result) := by
    rw [session.assemble_of_parsed read]
  rw [assembled]
  exact ⟨result, bound⟩

/-- A made-up label gives way to a name that looks like it. -/
theorem labelled_source_restores_jump :
    let names : AddressNames := [(0, "L02")]
    let data : List UInt8 := [0x20, 0x02, 0xFF]
    let assembled := Session.fresh.assemble (sourceText names data true)
    (names.map Prod.snd).Nodup ∧ (∀ pair ∈ names, IsName pair.2) ∧ data.length ≤ memorySize ∧
      assembled.2 = .ok data ∧
      (assembled.1.image.labels.address? "L02").map Int.ofNat = some 0 ∧
      (assembled.1.image.labels.address? "L02n1").map Int.ofNat = some 2 := by
  intro names data assembled
  have distinct : (names.map Prod.snd).Nodup := by decide
  have proper : ∀ pair ∈ names, IsName pair.2 := by decide +kernel
  have fits : data.length ≤ memorySize := by decide
  obtain ⟨result, bound⟩ :=
    labelled_source_restores_data Session.fresh names distinct proper data fits
  have given := (bound "L02" 0).mpr (by decide +kernel)
  have made := (bound "L02n1" 2).mpr (by decide +kernel)
  exact ⟨distinct, proper, fits, result, given, made⟩

end Octet
