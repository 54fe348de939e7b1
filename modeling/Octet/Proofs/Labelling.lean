/-
This file shows which labels are chosen. A given name stays where something
begins, and every other target of a complete jump where something begins gets
the first of its own names that no given name takes. These names spell out
their address, so no two addresses compete for one: what is made for a target
depends on the given names alone, and not on the jumps in front of it.

The given names may be anything, and several addresses may be named alike. Only
as many of an address's own names can be taken as names are given, so looking
for a free one ends.
-/

import Octet.Proofs.Decoding
import Octet.Proofs.Lexing
import Octet.Proofs.Naming

namespace Octet

open Character

/-! ### What decides on the free name -/

/-- There is only one first free name. -/
theorem freeLabel_eq {address : UInt8} {taken : List String} {suffix : Nat}
    (free : labelName address suffix ∉ taken)
    (below : ∀ count < suffix, labelName address count ∈ taken) :
    freeLabel address taken = labelName address suffix := by
  obtain ⟨found, _, named, absent, taller⟩ := freeLabel_eq_labelName address taken
  have same : found = suffix := by
    rcases Nat.lt_trichotomy found suffix with less | same | more
    · exact absurd (below found less) absent
    · exact same
    · exact absurd (taller suffix more) free
  rw [named, same]

/-- Names of other addresses are never in the way. -/
theorem freeLabel_append {address : UInt8} (taken : List String) {more : List String}
    (others : ∀ suffix, labelName address suffix ∉ more) :
    freeLabel address (taken ++ more) = freeLabel address taken := by
  obtain ⟨suffix, _, named, free, below⟩ := freeLabel_eq_labelName address taken
  rw [named]
  refine freeLabel_eq (fun member => ?_) fun count fewer =>
    List.mem_append_left _ (below count fewer)
  rcases List.mem_append.mp member with old | new
  · exact free old
  · exact others suffix new

/-! ### Names that stand alone -/

/-- The name is read as one name and nothing else. -/
def LexesAsName (name : String) : Prop :=
  ∃ tokens, tokensOfLine name = .ok tokens ∧ tokens.map Located.value = [.identifier name]

theorem lexesAsName_of_isName {name : String} (proper : IsName name) : LexesAsName name := by
  have scans := Scans.identifier proper parted_nil Scans.nil
  rw [List.append_nil] at scans
  obtain ⟨tokens, scanned, same⟩ := scans 0
  refine ⟨tokens, ?_, same⟩
  rw [tokensOfLine, scanned]
  rfl

/-! ### Tables with one name for an address -/

namespace AddressNames

variable {names : AddressNames}

theorem single_insert (single : (names.map Prod.fst).Nodup) (address : Int) (name : String) :
    ((names.insert address name).map Prod.fst).Nodup := by
  induction names with
  | nil => exact List.pairwise_singleton _ _
  | cons pair rest inductionHypothesis =>
    obtain ⟨other, known⟩ := pair
    rw [List.map_cons, List.nodup_cons] at single
    rw [insert]
    split_ifs with same
    · exact List.nodup_cons.mpr ⟨same ▸ single.1, single.2⟩
    · refine List.nodup_cons.mpr ⟨fun listed => ?_, inductionHypothesis single.2⟩
      obtain ⟨entry, member, key⟩ := List.mem_map.mp listed
      rcases mem_of_mem_insert member with rfl | old
      · exact same key.symm
      · exact single.1 (key ▸ List.mem_map_of_mem old)

/-- However a table is made, no address is in it twice. -/
theorem single_ofPairs (pairs : List (Int × String)) :
    ((ofPairs pairs).map Prod.fst).Nodup := by
  have further : ∀ names : AddressNames, (names.map Prod.fst).Nodup →
      ((pairs.foldl (fun names pair => names.insert pair.1 pair.2) names).map
        Prod.fst).Nodup := by
    induction pairs with
    | nil => exact fun _ single => single
    | cons pair rest inductionHypothesis =>
      exact fun _ single => inductionHypothesis _ (single_insert single pair.1 pair.2)
  exact further [] List.nodup_nil

theorem find?_of_mem (single : (names.map Prod.fst).Nodup) {address : Int} {name : String}
    (member : (address, name) ∈ names) : names.find? address = some name := by
  obtain ⟨front, back, rfl⟩ := List.append_of_mem member
  refine List.lookup_eq_some_iff.mpr ⟨front, back, rfl, fun pair before => ?_⟩
  rw [List.map_append, List.map_cons, List.nodup_append] at single
  have different := single.2.2 pair.1 (List.mem_map_of_mem before) address List.mem_cons_self
  exact bne_iff_ne.mpr different.symm

theorem find?_cons (pair : Int × String) (rest : AddressNames) (address : Int) :
    find? (pair :: rest) address =
      if address = pair.1 then some pair.2 else rest.find? address := by
  obtain ⟨other, known⟩ := pair
  rw [find?, List.lookup_cons]
  by_cases same : address = other
  · rw [beq_iff_eq.mpr same, if_pos same]
  · rw [beq_false_of_ne same, if_neg same]
    rfl

/-- Of the addresses that are kept, each keeps its name. -/
theorem find?_filter (names : AddressNames) (starts : List Int) (address : Int) :
    find? (names.filter fun pair => starts.contains pair.1) address =
      if address ∈ starts then names.find? address else none := by
  induction names with
  | nil => split_ifs <;> rfl
  | cons pair rest inductionHypothesis =>
    by_cases begins : pair.1 ∈ starts
    · have kept : starts.contains pair.1 = true := List.contains_iff_mem.mpr begins
      rw [List.filter_cons, if_pos kept, find?_cons, find?_cons, inductionHypothesis]
      by_cases same : address = pair.1
      · rw [if_pos same, if_pos same, if_pos (same ▸ begins)]
      · rw [if_neg same, if_neg same]
    · have left : ¬starts.contains pair.1 = true := begins ∘ List.contains_iff_mem.mp
      rw [List.filter_cons, if_neg left, inductionHypothesis, find?_cons]
      by_cases same : address = pair.1
      · rw [if_neg (same ▸ begins), if_neg (same ▸ begins)]
      · rw [if_neg same]

end AddressNames

/-! ### What is made for the targets -/

/-- The label that is made for a target beside given names. -/
def madeLabel (given : AddressNames) (target : UInt8) : Int × String :=
  (target.toNat, freeLabel target (given.map Prod.snd))

namespace AddressNames

/-- Labels that were made beside given names for those of some targets that need one. -/
structure Grown (starts : List Int) (given : AddressNames) (targets made : List UInt8)
    (labels : AddressNames) : Prop where
  labels : labels = given ++ made.map (madeLabel given)
  once : made.Nodup
  needed : ∀ target, target ∈ made ↔
    target ∈ targets ∧ (target.toNat : Int) ∈ starts ∧ given.find? target.toNat = none

variable {starts : List Int} {given labels : AddressNames} {targets made : List UInt8}

theorem find?_append (front back : AddressNames) (address : Int) :
    find? (front ++ back) address = (front.find? address).or (back.find? address) := by
  induction front with
  | nil => rfl
  | cons pair rest inductionHypothesis =>
    rw [List.cons_append, find?_cons, find?_cons, inductionHypothesis]
    split_ifs <;> rfl

theorem find?_madeLabels {address : Int} {name : String} :
    find? (made.map (madeLabel given)) address = some name ↔
      ∃ target ∈ made, (address, name) = madeLabel given target := by
  constructor
  · intro found
    obtain ⟨target, member, same⟩ := List.mem_map.mp (mem_of_find? found)
    exact ⟨target, member, same.symm⟩
  · rintro ⟨target, member, same⟩
    induction made with
    | nil => cases member
    | cons other rest inductionHypothesis =>
      rw [List.map_cons, find?_cons]
      obtain ⟨rfl, rfl⟩ := Prod.mk.inj same
      by_cases equal : target = other
      · subst equal
        exact if_pos rfl
      · have apart : (target.toNat : Int) ≠ (madeLabel given other).1 := fun same =>
          equal (UInt8.toNat_inj.mp (Int.natCast_inj.mp same))
        rw [if_neg apart]
        exact inductionHypothesis ((List.mem_cons.mp member).resolve_left equal)

/-- An address has a label if it has a given name or one was made for it. -/
theorem Grown.find?_eq_none (grown : Grown starts given targets made labels) (target : UInt8) :
    labels.find? target.toNat = none ↔ given.find? target.toNat = none ∧ target ∉ made := by
  rw [grown.labels, find?_append, Option.or_eq_none_iff]
  refine and_congr_right fun _ => ⟨fun unmade member => ?_, fun absent => ?_⟩
  · rw [find?_madeLabels.mpr ⟨target, member, rfl⟩] at unmade
    cases unmade
  · refine Option.eq_none_iff_forall_ne_some.mpr fun name found => ?_
    obtain ⟨other, member, same⟩ := find?_madeLabels.mp found
    have equal : target = other :=
      UInt8.toNat_inj.mp (Int.natCast_inj.mp (congrArg Prod.fst same))
    exact absent (equal ▸ member)

/-- What is made for a target does not depend on what was made before. -/
theorem Grown.freeLabel_eq (grown : Grown starts given targets made labels) {target : UInt8}
    (unmade : target ∉ made) :
    freeLabel target (labels.map Prod.snd) = freeLabel target (given.map Prod.snd) := by
  rw [grown.labels, List.map_append, List.map_map]
  refine freeLabel_append _ fun suffix member => ?_
  obtain ⟨other, present, same⟩ := List.mem_map.mp member
  obtain ⟨found, _, named, _⟩ := freeLabel_eq_labelName other (given.map Prod.snd)
  exact unmade ((labelName_injective (named.symm.trans same)).1 ▸ present)

/-- A target that begins somewhere and has no label yet gets one. -/
theorem Grown.make (grown : Grown starts given targets made labels) {target : UInt8}
    (begins : (target.toNat : Int) ∈ starts) (unnamed : labels.find? target.toNat = none) :
    Grown starts given (targets ++ [target]) (made ++ [target])
      (labels.insert target.toNat (freeLabel target (labels.map Prod.snd))) := by
  obtain ⟨nameless, unmade⟩ := (grown.find?_eq_none target).mp unnamed
  refine ⟨?_, ?_, fun other => ?_⟩
  · rw [insert_of_find?_eq_none _ _ _ unnamed, grown.freeLabel_eq unmade, List.map_append,
      ← List.append_assoc, ← grown.labels]
    rfl
  · exact List.nodup_append.mpr ⟨grown.once, List.pairwise_singleton _ _,
      fun one present other new same => unmade (List.mem_singleton.mp new ▸ same ▸ present)⟩
  · rw [List.mem_append, List.mem_append, List.mem_singleton, grown.needed other]
    constructor
    · rintro (⟨seen, needs⟩ | rfl)
      · exact ⟨.inl seen, needs⟩
      · exact ⟨.inr rfl, begins, nameless⟩
    · rintro ⟨seen | rfl, needs⟩
      · exact .inl ⟨seen, needs⟩
      · exact .inr rfl

/-- No other target needs one. -/
theorem Grown.skip (grown : Grown starts given targets made labels) {target : UInt8}
    (unwanted : ¬((target.toNat : Int) ∈ starts ∧ labels.find? target.toNat = none)) :
    Grown starts given (targets ++ [target]) made labels := by
  refine ⟨grown.labels, grown.once, fun other => ?_⟩
  rw [List.mem_append, List.mem_singleton]
  constructor
  · intro member
    obtain ⟨seen, needs⟩ := (grown.needed other).mp member
    exact ⟨.inl seen, needs⟩
  · rintro ⟨seen | rfl, needs⟩
    · exact (grown.needed other).mpr ⟨seen, needs⟩
    · exact Decidable.byContradiction fun unmade =>
        unwanted ⟨needs.1, (grown.find?_eq_none other).mpr ⟨needs.2, unmade⟩⟩

theorem Grown.nameTarget (grown : Grown starts given targets made labels) (target : UInt8) :
    ∃ more, Grown starts given (targets ++ [target]) more
      (Octet.nameTarget starts labels target) := by
  have wanted_iff : (starts.contains target.toNat && (labels.find? target.toNat).isNone) = true ↔
      (target.toNat : Int) ∈ starts ∧ labels.find? target.toNat = none := by
    rw [Bool.and_eq_true, List.contains_iff_mem, Option.isNone_iff_eq_none]
  unfold Octet.nameTarget
  by_cases wanted : (target.toNat : Int) ∈ starts ∧ labels.find? target.toNat = none
  · rw [if_pos (wanted_iff.mpr wanted)]
    exact ⟨made ++ [target], grown.make wanted.1 wanted.2⟩
  · rw [if_neg (wanted ∘ wanted_iff.mp)]
    exact ⟨made, grown.skip wanted⟩

theorem Grown.foldl (grown : Grown starts given targets made labels) (rest : List UInt8) :
    ∃ more, Grown starts given (targets ++ rest) more
      (rest.foldl (Octet.nameTarget starts) labels) := by
  induction rest generalizing targets made labels with
  | nil => exact ⟨made, by rwa [List.append_nil]⟩
  | cons target rest inductionHypothesis =>
    obtain ⟨more, next⟩ := grown.nameTarget target
    have further := inductionHypothesis next
    rwa [List.append_assoc] at further

theorem Grown.find?_eq_some (grown : Grown starts given targets made labels) {address : Int}
    {name : String} :
    labels.find? address = some name ↔ given.find? address = some name ∨
      given.find? address = none ∧ ∃ target ∈ made, (address, name) = madeLabel given target := by
  rw [grown.labels, find?_append, Option.or_eq_some_iff, find?_madeLabels]

/-- No address is labelled twice. -/
theorem Grown.single (grown : Grown starts given targets made labels)
    (single : (given.map Prod.fst).Nodup) : (labels.map Prod.fst).Nodup := by
  rw [grown.labels, List.map_append, List.map_map]
  refine List.nodup_append.mpr ⟨single, ?_, fun one listed other new same => ?_⟩
  · refine List.pairwise_map.mpr (grown.once.imp fun different same => different ?_)
    exact UInt8.toNat_inj.mp (Int.natCast_inj.mp same)
  · subst same
    obtain ⟨target, member, rfl⟩ := List.mem_map.mp new
    obtain ⟨pair, known, same⟩ := List.mem_map.mp listed
    have nameless := List.lookup_eq_none_iff.mp ((grown.needed target).mp member).2.2 pair known
    exact bne_iff_ne.mp nameless same.symm

end AddressNames

/-! ### The labels that are chosen -/

namespace AddressNames

/-- The given names of addresses where something begins. -/
def kept (names : AddressNames) (decoded : List Decoded) : AddressNames :=
  names.filter fun pair => (decoded.map Decoded.address).contains pair.1

/-- A given name is kept if something begins at its address. -/
def Keeps (names : AddressNames) (decoded : List Decoded) (name : String) : Prop :=
  ∃ one ∈ decoded, names.find? one.address = some name

variable {names : AddressNames} {decoded : List Decoded}

theorem find?_kept (names : AddressNames) (decoded : List Decoded) (address : Int) :
    (names.kept decoded).find? address =
      if address ∈ decoded.map Decoded.address then names.find? address else none :=
  find?_filter names _ address

theorem mem_kept_iff (single : (names.map Prod.fst).Nodup) (decoded : List Decoded)
    (name : String) :
    name ∈ (names.kept decoded).map Prod.snd ↔ names.Keeps decoded name := by
  constructor
  · intro listed
    obtain ⟨⟨address, _⟩, member, rfl⟩ := List.mem_map.mp listed
    obtain ⟨known, begins⟩ := List.mem_filter.mp member
    obtain ⟨one, found, rfl⟩ := List.mem_map.mp (List.contains_iff_mem.mp begins)
    exact ⟨one, found, find?_of_mem single known⟩
  · rintro ⟨one, found, known⟩
    have begins : (decoded.map Decoded.address).contains one.address = true :=
      List.contains_iff_mem.mpr (List.mem_map_of_mem found)
    have listed : (one.address, name) ∈ names.kept decoded :=
      List.mem_filter.mpr ⟨mem_of_find? known, begins⟩
    exact List.mem_map_of_mem listed

/-- The labels that are chosen are the given names that are kept, with labels made for the
targets. -/
theorem grown_chooseLabels (names : AddressNames) (decoded : List Decoded) :
    ∃ made, Grown (decoded.map Decoded.address) (names.kept decoded)
      (decoded.filterMap Decoded.target?) made (chooseLabels names decoded) := by
  have begun : Grown (decoded.map Decoded.address) (names.kept decoded) [] []
      (names.kept decoded) := by
    refine ⟨(List.append_nil _).symm, List.nodup_nil, fun target => ?_⟩
    exact ⟨fun none => absurd none List.not_mem_nil, fun needs => absurd needs.1 List.not_mem_nil⟩
  exact begun.foldl (decoded.filterMap Decoded.target?)

/-- Something that begins is labelled with its given name or, if it has none and is the target of
a jump, with what is made for the target. -/
theorem find?_chooseLabels (names : AddressNames) (decoded : List Decoded) (address : Int)
    (name : String) :
    (chooseLabels names decoded).find? address = some name ↔
      address ∈ decoded.map Decoded.address ∧
        (names.find? address = some name ∨ names.find? address = none ∧
          ∃ target ∈ decoded.filterMap Decoded.target?,
            (address, name) = madeLabel (names.kept decoded) target) := by
  obtain ⟨made, grown⟩ := grown_chooseLabels names decoded
  rw [grown.find?_eq_some, find?_kept]
  by_cases begins : address ∈ decoded.map Decoded.address
  · rw [if_pos begins]
    refine (or_congr_right (and_congr_right fun nameless => exists_congr fun target => ?_)).trans
      (and_iff_right begins).symm
    refine and_congr_left fun new => (grown.needed target).trans (and_iff_left ?_)
    obtain ⟨rfl, _⟩ := Prod.mk.inj new
    exact ⟨begins, by rw [find?_kept, if_pos begins, nameless]⟩
  · rw [if_neg begins]
    refine iff_of_false ?_ fun found => begins found.1
    rintro (known | ⟨_, target, member, new⟩)
    · cases known
    · obtain ⟨rfl, _⟩ := Prod.mk.inj new
      exact begins ((grown.needed target).mp member).2.1

theorem labelled_iff (names : AddressNames) (decoded : List Decoded) (address : Int) :
    (∃ name, (chooseLabels names decoded).find? address = some name) ↔
      address ∈ decoded.map Decoded.address ∧ ((∃ name, names.find? address = some name) ∨
        ∃ target ∈ decoded.filterMap Decoded.target?, address = target.toNat) := by
  constructor
  · rintro ⟨name, labelled⟩
    obtain ⟨begins, known | ⟨_, target, member, new⟩⟩ := (find?_chooseLabels _ _ _ _).mp labelled
    · exact ⟨begins, .inl ⟨name, known⟩⟩
    · exact ⟨begins, .inr ⟨target, member, congrArg Prod.fst new⟩⟩
  · rintro ⟨begins, wanted⟩
    cases known : names.find? address with
    | some name => exact ⟨name, (find?_chooseLabels _ _ _ _).mpr ⟨begins, .inl known⟩⟩
    | none =>
      obtain ⟨name, other⟩ | ⟨target, member, rfl⟩ := wanted
      · rw [known] at other
        cases other
      · exact ⟨_, (find?_chooseLabels _ _ _ _).mpr ⟨begins, .inr ⟨known, target, member, rfl⟩⟩⟩

/-- No address is labelled twice. -/
theorem single_chooseLabels (single : (names.map Prod.fst).Nodup) (decoded : List Decoded) :
    ((chooseLabels names decoded).map Prod.fst).Nodup := by
  obtain ⟨made, grown⟩ := grown_chooseLabels names decoded
  exact grown.single (single.sublist (List.filter_sublist.map Prod.fst))

/-- A label that is not given is the first free name of its address. -/
theorem made_of_find? (single : (names.map Prod.fst).Nodup) {address : Int} {name : String}
    (labelled : (chooseLabels names decoded).find? address = some name)
    (nameless : names.find? address = none) :
    ∃ target suffix, address = ((target : UInt8).toNat : Int) ∧ name = labelName target suffix ∧
      suffix ≤ names.length ∧ ¬names.Keeps decoded name ∧
        ∀ count < suffix, names.Keeps decoded (labelName target count) := by
  have kept := mem_kept_iff single decoded
  obtain ⟨_, known | ⟨_, target, _, new⟩⟩ := (find?_chooseLabels _ _ _ _).mp labelled
  · rw [nameless] at known
    cases known
  · obtain ⟨rfl, rfl⟩ := Prod.mk.inj new
    obtain ⟨suffix, few, named, free, below⟩ :=
      freeLabel_eq_labelName target ((names.kept decoded).map Prod.snd)
    have fewer : ((names.kept decoded).map Prod.snd).length ≤ names.length := by
      rw [List.length_map]
      exact List.length_filter_le _ _
    refine ⟨target, suffix, rfl, named, Nat.le_trans few fewer, ?_, fun count less =>
      (kept _).mp (below count less)⟩
    rw [named, ← kept]
    exact free

/-- A label that is not given is the label of one address alone. -/
theorem eq_of_made (single : (names.map Prod.fst).Nodup) {first second : Int} {name : String}
    (labelled : (chooseLabels names decoded).find? first = some name)
    (again : (chooseLabels names decoded).find? second = some name)
    (nameless : names.find? first = none) : first = second := by
  obtain ⟨target, suffix, rfl, named, _, fresh, _⟩ := made_of_find? single labelled nameless
  obtain ⟨begins, known | ⟨otherNameless, _⟩⟩ := (find?_chooseLabels _ _ _ _).mp again
  · obtain ⟨one, found, rfl⟩ := List.mem_map.mp begins
    exact absurd ⟨one, found, known⟩ fresh
  · obtain ⟨other, number, rfl, alike, _⟩ := made_of_find? single again otherNameless
    rw [(labelName_injective (named.symm.trans alike)).1]

end AddressNames

/-- A complete jump to an address. -/
def Decoded.JumpsTo (decoded : Decoded) (address : Int) : Prop :=
  (decoded.reading = .instruction .jmp ∨ decoded.reading = .instruction .jz) ∧
    ∃ target, decoded.operandBytes = [target] ∧ address = target.toNat

theorem Decoded.Whole.jumpsTo_iff {decoded : Decoded} (whole : decoded.Whole) (address : Int) :
    decoded.JumpsTo address ↔
      ∃ target, decoded.target? = some target ∧ address = target.toNat := by
  cases read : decoded.reading with
  | unknown => simp [target?, opcode?, JumpsTo, read]
  | incomplete opcode => simp [target?, opcode?, JumpsTo, read]
  | instruction opcode =>
    have enough : decoded.opcode? = some opcode := by
      have size := whole.size
      rw [Decoded.size, read] at size
      rw [opcode?, read]
      exact if_neg (Nat.not_lt.mpr (Nat.le_of_eq size))
    have operands := (whole.instruction opcode enough).2
    have alike : (Reading.instruction opcode = .instruction .jmp ∨
        Reading.instruction opcode = .instruction .jz) ↔ opcode.isJump = true := by
      cases opcode <;> decide
    rw [target?, enough, JumpsTo, read, alike]
    by_cases jumps : opcode.isJump = true
    · have single : decoded.operandBytes.length = 1 := by
        rw [operands]
        cases opcode <;> first | rfl | cases jumps
      obtain ⟨target, only⟩ := List.length_eq_one_iff.mp single
      simp [jumps, only]
    · simp [jumps]

theorem exists_jumpsTo_iff {decoded : List Decoded} (whole : ∀ one ∈ decoded, one.Whole)
    (address : Int) : (∃ one ∈ decoded, one.JumpsTo address) ↔
      ∃ target ∈ decoded.filterMap Decoded.target?, address = target.toNat := by
  constructor
  · rintro ⟨one, found, jumps⟩
    obtain ⟨target, leads, place⟩ := ((whole one found).jumpsTo_iff address).mp jumps
    exact ⟨target, List.mem_filterMap.mpr ⟨one, found, leads⟩, place⟩
  · rintro ⟨target, member, place⟩
    obtain ⟨one, found, leads⟩ := List.mem_filterMap.mp member
    exact ⟨one, found, ((whole one found).jumpsTo_iff address).mpr ⟨target, leads, place⟩⟩

/-- Exactly those beginnings are labelled that have a given name or are the target of a complete
jump. A given name is kept; any other label is the first of the address's own names that no kept
name takes, and no other address has it. So if the kept names are distinct, all labels are. -/
theorem chosen_labels_exact {names : AddressNames} (single : (names.map Prod.fst).Nodup)
    (data : List UInt8) (start : Int) :
    let decoded := decodeAll start data
    let labels := chooseLabels names decoded
    (labels.map Prod.fst).Nodup ∧
      (∀ address, (∃ name, labels.find? address = some name) ↔
        (∃ one ∈ decoded, one.address = address) ∧
          ((∃ name, names.find? address = some name) ∨ ∃ one ∈ decoded, one.JumpsTo address)) ∧
      (∀ address name, labels.find? address = some name →
        names.find? address = some name ∨
          names.find? address = none ∧ ∃ target suffix, address = (target.toNat : Int) ∧
            name = labelName target suffix ∧ LexesAsName name ∧ suffix ≤ names.length ∧
            ¬names.Keeps decoded name ∧
              ∀ count < suffix, names.Keeps decoded (labelName target count)) ∧
      (∀ first second name, labels.find? first = some name → labels.find? second = some name →
        names.find? first = none → first = second) ∧
      ((∀ one ∈ decoded, ∀ other ∈ decoded, ∀ name, names.find? one.address = some name →
          names.find? other.address = some name → one.address = other.address) →
        ∀ first second name, labels.find? first = some name → labels.find? second = some name →
          first = second) := by
  intro decoded labels
  have whole := (Decoded.covers_decodeAll start data).whole
  have apart : ∀ first second name, labels.find? first = some name →
      labels.find? second = some name → names.find? first = none → first = second :=
    fun first second name labelled again => AddressNames.eq_of_made single labelled again
  refine ⟨AddressNames.single_chooseLabels single decoded, fun address => ?_,
    fun address name labelled => ?_, apart, fun distinct first second name labelled again => ?_⟩
  · rw [exists_jumpsTo_iff whole, ← List.mem_map]
    exact AddressNames.labelled_iff names decoded address
  · obtain ⟨_, known | ⟨nameless, _⟩⟩ := (AddressNames.find?_chooseLabels _ _ _ _).mp labelled
    · exact .inl known
    · obtain ⟨target, suffix, place, named, few, fresh, below⟩ :=
        AddressNames.made_of_find? single labelled nameless
      exact .inr ⟨nameless, target, suffix, place, named,
        named ▸ lexesAsName_of_isName (isName_labelName target suffix), few, fresh, below⟩
  · obtain ⟨begins, known | ⟨nameless, _⟩⟩ := (AddressNames.find?_chooseLabels _ _ _ _).mp labelled
    · obtain ⟨other, alike | ⟨nameless, _⟩⟩ := (AddressNames.find?_chooseLabels _ _ _ _).mp again
      · obtain ⟨one, found, rfl⟩ := List.mem_map.mp begins
        obtain ⟨another, present, rfl⟩ := List.mem_map.mp other
        exact distinct one found another present name known alike
      · exact (apart second first name again labelled nameless).symm
    · exact apart first second name labelled again nameless

/-- Two addresses have the name that a third one would get. -/
theorem chosen_labels_beside_lookalikes :
    let names := AddressNames.ofPairs [(0, "L02"), (4, "L02")]
    let labels := chooseLabels names (decodeAll 0 [0x20, 0x02, 0x20, 0x04, 0xFF])
    (names.map Prod.fst).Nodup ∧ labels = [(0, "L02"), (4, "L02"), (2, "L02n1")] ∧
      ∀ address, labels.find? address = some "L02n1" → address = 2 := by
  intro names labels
  have single := AddressNames.single_ofPairs [(0, "L02"), (4, "L02")]
  obtain ⟨_, _, _, apart, _⟩ := chosen_labels_exact single [0x20, 0x02, 0x20, 0x04, 0xFF] 0
  exact ⟨single, by decide +kernel, fun address named =>
    (apart 2 address "L02n1" (by decide +kernel) named (by decide +kernel)).symm⟩

end Octet
