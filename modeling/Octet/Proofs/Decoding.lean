/-
This file shows that decoding covers a byte stream: the bytes of what is decoded
lie one behind the other, each begins where the one before ended, and together
they are the stream. An instruction that was decoded as complete has its opcode
byte and a byte for each of its operands.

What is decoded stands for statements: a label where one is wanted, then the
instruction, or each byte by itself. These statements take up as many bytes as
were decoded, and wherever the labels lead to the addresses that they stand for,
they say exactly these bytes.
-/

import Octet.Disassembly.Source
import Octet.Proofs.Encoding

namespace Octet

/-! ### Decoded bytes cover the data -/

/-- What is true of decoded bytes: there is one at least, going on by the size passes all of
them, and a complete instruction is its opcode byte with a byte for each operand. -/
structure Decoded.Whole (decoded : Decoded) : Prop where
  something : decoded.bytes ≠ []
  size : decoded.size = decoded.bytes.length
  instruction : ∀ opcode, decoded.opcode? = some opcode →
    decoded.bytes = opcode.byte :: decoded.operandBytes ∧
      decoded.operandBytes.length = opcode.operands.length

/-- Decoded bytes that begin at an address, lie one behind the other and make up the data. -/
inductive Decoded.Covers : Int → List Decoded → List UInt8 → Prop where
  | nil (address : Int) : Covers address [] []
  | cons {address : Int} {decoded : Decoded} {rest : List Decoded} {data : List UInt8}
      (start : decoded.address = address) (whole : decoded.Whole)
      (behind : Covers (address + decoded.bytes.length) rest data) :
      Covers address (decoded :: rest) (decoded.bytes ++ data)

namespace Decoded

/-- Decoding the beginning of some bytes takes that beginning, and nothing is missing from it. -/
theorem ofBytes_spec (address : Int) (first : UInt8) (rest : List UInt8) :
    (ofBytes address first rest).address = address ∧ (ofBytes address first rest).Whole ∧
      (ofBytes address first rest).bytes ++
        rest.drop ((ofBytes address first rest).size - 1) = first :: rest := by
  unfold ofBytes decode
  cases known : Opcode.ofByte? first with
  | none => exact ⟨rfl, ⟨List.cons_ne_nil _ _, rfl, fun _ none => by cases none⟩, rfl⟩
  | some opcode =>
    have size : opcode.size = opcode.operands.length + 1 := Nat.add_comm _ _
    by_cases enough : ((first :: rest).take opcode.size).length = opcode.size
    · simp only [if_pos enough]
      rw [size, List.take_succ_cons, List.length_cons] at enough
      refine ⟨trivial, ⟨?_, ?_, ?_⟩, ?_⟩
      · rw [size]
        exact List.cons_ne_nil _ _
      · show opcode.size = _
        rw [size, List.take_succ_cons, List.length_cons, enough]
      · intro other complete
        simp only [opcode?, size, List.take_succ_cons, List.length_cons, enough, Nat.lt_irrefl,
          if_false] at complete
        obtain rfl := Option.some_inj.mp complete
        simp only [operandBytes, size, List.take_succ_cons, List.drop_succ_cons, List.drop_zero,
          Opcode.byte_of_ofByte? known]
        exact ⟨trivial, Nat.succ.inj enough⟩
      · show (first :: rest).take opcode.size ++ rest.drop (opcode.size - 1) = first :: rest
        rw [size, Nat.add_sub_cancel, List.take_succ_cons, List.cons_append,
          List.take_append_drop]
    · simp only [if_neg enough]
      refine ⟨trivial, ⟨List.cons_ne_nil _ _, rfl, fun _ none => by cases none⟩, ?_⟩
      show (first :: rest) ++ rest.drop ((first :: rest).length - 1) = first :: rest
      rw [List.length_cons, Nat.add_sub_cancel, List.drop_length, List.append_nil]

/-- Whether the data is long enough is seen alike from the whole of it and from what can be taken
at a place. -/
theorem atOffset_eq {data rest : List UInt8} {first : UInt8} {offset : Nat} (address : Int)
    (left : data.drop offset = first :: rest) :
    atOffset data address offset = .ok (ofBytes address first rest) := by
  have length : data.length = offset + (rest.length + 1) := by
    have behind := congrArg List.length left
    rw [List.length_drop, List.length_cons] at behind
    omega
  have passed : ∀ place : Nat, place ≤ data.length → bytesBefore data.length place = place := by
    intro place inside
    rw [bytesBefore, if_neg (by omega), Int.toNat_natCast, Nat.min_eq_left inside]
  have whole : ∀ size : Nat,
      (if (data.length : Int) < offset + size then none
        else some (bytesBetween data offset (offset + size))) =
      (if ((first :: rest).take size).length = size then some ((first :: rest).take size)
        else none) := by
    intro size
    rw [List.length_take, List.length_cons]
    by_cases short : rest.length + 1 < size
    · rw [if_pos (by omega), if_neg (by omega)]
    · rw [if_neg (by omega), if_pos (by omega), ← Int.natCast_add, bytesBetween,
        passed offset (by omega), passed (offset + size) (by omega), List.drop_take, left,
        Nat.add_sub_cancel_left]
  rw [atOffset, if_neg (by omega), if_neg (by omega), passed offset (by omega), left, ofBytes]
  simp only [whole]

/-- Decoding all bytes covers them. -/
theorem covers_decodeAll (address : Int) (data : List UInt8) :
    Covers address (decodeAll address data) data := by
  fun_induction decodeAll address data with
  | case1 address => exact .nil address
  | case2 address first rest decoded inductionHypothesis =>
    obtain ⟨start, whole, taken⟩ := ofBytes_spec address first rest
    have behind : Covers address (decoded :: decodeAll (address + decoded.size)
        (rest.drop (decoded.size - 1))) (decoded.bytes ++ rest.drop (decoded.size - 1)) :=
      .cons start whole (whole.size ▸ inductionHypothesis)
    rwa [taken] at behind

variable {address : Int} {decoded : List Decoded} {data : List UInt8}

theorem Covers.whole (covers : Covers address decoded data) : ∀ one ∈ decoded, one.Whole := by
  induction covers with
  | nil => exact fun _ none => absurd none List.not_mem_nil
  | cons start whole behind inductionHypothesis =>
    exact List.forall_mem_cons.mpr ⟨whole, inductionHypothesis⟩

/-- Nothing that is decoded begins before the first address. -/
theorem Covers.le_address (covers : Covers address decoded data) :
    ∀ one ∈ decoded, address ≤ one.address := by
  induction covers with
  | nil => exact fun _ none => absurd none List.not_mem_nil
  | @cons address head rest data start whole behind inductionHypothesis =>
    intro one member
    rcases List.mem_cons.mp member with rfl | later
    · exact Int.le_of_eq start.symm
    · have further := inductionHypothesis one later
      omega

/-- What is decoded behind some bytes begins behind their address. -/
theorem Covers.lt_address {one : Decoded} {rest : List Decoded}
    (covers : Covers address (one :: rest) data) : ∀ other ∈ rest, one.address < other.address := by
  intro other member
  cases covers with
  | cons start whole behind =>
    have further := behind.le_address other member
    have something := List.length_pos_iff.mpr whole.something
    omega

end Decoded

/-! ### What decoded bytes stand for -/

/-- The label that an operand byte stands for: that of the address, if the operand may point
somewhere and the address has one. -/
def Operand.pointsTo? (labels : AddressNames) (operand : Operand) (byte : UInt8) : Option String :=
  if operand.meaning = .immediate then none else labels.find? byte.toNat

/-- What an operand byte stands for, a label or the number. Memory cells stand in brackets. -/
def Arg.meant (labels : AddressNames) (operand : Operand) (byte : UInt8) : Arg :=
  ⟨match operand.pointsTo? labels byte with
    | some label => .label label
    | none => .value byte.toNat, none, operand.meaning = .cell⟩

/-- The arguments that the operand bytes of an instruction stand for. -/
def Arg.allMeant (labels : AddressNames) (operands : List Operand) (bytes : List UInt8) :
    List Arg :=
  (operands.zip bytes).map fun (operand, byte) => Arg.meant labels operand byte

/-- The label that is wanted where decoded bytes begin. -/
def Decoded.labelMeant (labels : AddressNames) (decoded : Decoded) : List Statement :=
  match labels.find? decoded.address with
  | some label => [.label label none]
  | none => []

/-- The statements that lay the decoded bytes down. -/
def Decoded.codeMeant (labels : AddressNames) (decoded : Decoded) : List Statement :=
  match decoded.opcode? with
  | none => decoded.bytes.map fun byte => .byte byte.toNat
  | some opcode =>
    match Instruction.ofArgs opcode
        (Arg.allMeant labels opcode.operands decoded.operandBytes) with
    | .ok held => [.instruction held]
    | .error _ => []

/-- The statements that decoded bytes stand for. -/
def Decoded.meant (labels : AddressNames) (decoded : Decoded) : List Statement :=
  decoded.labelMeant labels ++ decoded.codeMeant labels

theorem Arg.length_allMeant (labels : AddressNames) {operands : List Operand} {bytes : List UInt8}
    (same : bytes.length = operands.length) :
    (Arg.allMeant labels operands bytes).length = operands.length := by
  rw [Arg.allMeant, List.length_map, List.length_zip, same, Nat.min_self]

/-- A complete instruction stands for itself. -/
theorem Decoded.Whole.codeMeant_instruction {decoded : Decoded} (whole : decoded.Whole)
    (labels : AddressNames) {opcode : Opcode} (found : decoded.opcode? = some opcode) :
    ∃ complete, decoded.codeMeant labels = [.instruction
      ⟨opcode, Arg.allMeant labels opcode.operands decoded.operandBytes, complete⟩] := by
  have complete := Arg.length_allMeant labels (whole.instruction opcode found).2
  refine ⟨complete, ?_⟩
  rw [Decoded.codeMeant, found]
  simp only [Instruction.ofArgs, dif_pos complete]

theorem Decoded.codeMeant_bytes {decoded : Decoded} (labels : AddressNames)
    (data : decoded.opcode? = none) :
    decoded.codeMeant labels = decoded.bytes.map fun byte => .byte byte.toNat := by
  rw [Decoded.codeMeant, data]

/-! ### What is meant says what was decoded -/

/-- Addresses of names that lead from the label of an address back to the address. -/
def AddressNames.Leads (labels : AddressNames) (address? : String → Option Nat) : Prop :=
  ∀ (byte : UInt8) (name : String), labels.find? byte.toNat = some name →
    address? name = some byte.toNat

section

variable {labels : AddressNames} {address? : String → Option Nat}

theorem Operand.find?_of_pointsTo? {operand : Operand} {byte : UInt8} {label : String}
    (points : operand.pointsTo? labels byte = some label) :
    labels.find? byte.toNat = some label := by
  unfold Operand.pointsTo? at points
  by_cases immediate : operand.meaning = .immediate
  · rw [if_pos immediate] at points
    cases points
  · rwa [if_neg immediate] at points

/-- What an operand byte stands for is encoded by that byte. -/
theorem Arg.byte?_meant (leads : labels.Leads address?) (operand : Operand) (byte : UInt8) :
    (Arg.meant labels operand byte).byte? address? = some byte := by
  unfold Arg.meant Arg.byte?
  cases points : operand.pointsTo? labels byte with
  | none => exact congrArg some (byteOfInt_toNat byte)
  | some label =>
    have inside : byte.toNat < memorySize := byte.toNat_lt
    simp only [leads byte label (Operand.find?_of_pointsTo? points), if_pos inside,
      UInt8.ofNat_toNat]

theorem Arg.mapM_allMeant (leads : labels.Leads address?) (operands : List Operand)
    (bytes : List UInt8) (same : bytes.length = operands.length) :
    (Arg.allMeant labels operands bytes).mapM (Arg.byte? address?) = some bytes := by
  induction operands generalizing bytes with
  | nil =>
    rw [List.length_eq_zero_iff.mp same]
    rfl
  | cons operand operands inductionHypothesis =>
    cases bytes with
    | nil => cases same
    | cons byte bytes =>
      have rest := inductionHypothesis bytes (Nat.succ.inj same)
      rw [Arg.allMeant] at rest ⊢
      rw [List.zip_cons_cons, List.map_cons, List.mapM_cons, rest, Arg.byte?_meant leads]
      rfl

namespace Decoded

variable {address : Int} {decoded : List Decoded} {data : List UInt8} {one : Decoded}

theorem sizes_bytes (bytes : List UInt8) :
    Statement.sizes (bytes.map fun byte => .byte byte.toNat) = bytes.length := by
  induction bytes with
  | nil => rfl
  | cons byte rest inductionHypothesis =>
    rw [List.map_cons, Statement.sizes_cons, inductionHypothesis, List.length_cons, Nat.add_comm]
    rfl

theorem code_bytes (address? : String → Option Nat) (bytes : List UInt8) :
    Statement.code address? (bytes.map fun byte => .byte byte.toNat) = bytes := by
  induction bytes with
  | nil => rfl
  | cons byte rest inductionHypothesis =>
    rw [Statement.code] at inductionHypothesis ⊢
    rw [List.map_cons, List.flatMap_cons, inductionHypothesis, Statement.bytes, byteOfInt_toNat]
    rfl

/-- The statements for decoded bytes take up as many bytes. -/
theorem Whole.sizes_codeMeant (whole : one.Whole) (labels : AddressNames) :
    Statement.sizes (one.codeMeant labels) = one.bytes.length := by
  cases found : one.opcode? with
  | none => rw [one.codeMeant_bytes labels found, sizes_bytes]
  | some opcode =>
    obtain ⟨complete, meant⟩ := whole.codeMeant_instruction labels found
    obtain ⟨bytes, operands⟩ := whole.instruction opcode found
    rw [meant, Statement.sizes_cons, Statement.sizes_nil, bytes, List.length_cons, operands]
    exact Nat.add_comm 1 _

/-- The statements for decoded bytes say these bytes. -/
theorem Whole.code_codeMeant (whole : one.Whole) (leads : labels.Leads address?) :
    Statement.code address? (one.codeMeant labels) = one.bytes := by
  cases found : one.opcode? with
  | none => rw [one.codeMeant_bytes labels found, code_bytes]
  | some opcode =>
    obtain ⟨complete, meant⟩ := whole.codeMeant_instruction labels found
    obtain ⟨bytes, operands⟩ := whole.instruction opcode found
    rw [meant, Statement.code, List.flatMap_cons, List.flatMap_nil, List.append_nil,
      Statement.bytes, Arg.mapM_allMeant leads _ _ operands]
    exact bytes.symm

/-- Every argument in the statements for decoded bytes stands for a byte. -/
theorem Whole.resolved_codeMeant (whole : one.Whole) (leads : labels.Leads address?) :
    ∀ statement ∈ one.codeMeant labels, statement.Resolved address? := by
  intro statement member
  cases found : one.opcode? with
  | none =>
    rw [one.codeMeant_bytes labels found] at member
    obtain ⟨byte, _, rfl⟩ := List.mem_map.mp member
    trivial
  | some opcode =>
    obtain ⟨complete, meant⟩ := whole.codeMeant_instruction labels found
    rw [meant, List.mem_singleton] at member
    rw [member]
    exact ⟨_, Arg.mapM_allMeant leads _ _ (whole.instruction opcode found).2⟩

/-- No statement for decoded bytes defines a label of its own. -/
theorem Whole.defined?_codeMeant (whole : one.Whole) (labels : AddressNames) :
    ∀ statement ∈ one.codeMeant labels, statement.defined? = none := by
  intro statement member
  cases found : one.opcode? with
  | none =>
    rw [one.codeMeant_bytes labels found] at member
    obtain ⟨byte, _, rfl⟩ := List.mem_map.mp member
    rfl
  | some opcode =>
    obtain ⟨complete, meant⟩ := whole.codeMeant_instruction labels found
    rw [meant, List.mem_singleton] at member
    rw [member]
    rfl

/-! ### The label in front takes up nothing -/

theorem sizes_labelMeant (labels : AddressNames) (one : Decoded) :
    Statement.sizes (one.labelMeant labels) = 0 := by
  unfold labelMeant
  cases labels.find? one.address <;> rfl

theorem code_labelMeant (labels : AddressNames) (one : Decoded) (address? : String → Option Nat) :
    Statement.code address? (one.labelMeant labels) = [] := by
  unfold labelMeant
  cases labels.find? one.address <;> rfl

theorem mem_labelMeant {statement : Statement} (member : statement ∈ one.labelMeant labels) :
    ∃ name, statement = .label name none ∧ labels.find? one.address = some name := by
  unfold labelMeant at member
  cases found : labels.find? one.address with
  | none =>
    rw [found] at member
    exact absurd member List.not_mem_nil
  | some name =>
    rw [found] at member
    exact ⟨name, List.mem_singleton.mp member, rfl⟩

theorem boundFrom?_labelMeant (labels : AddressNames) (one : Decoded) (name : String)
    (start : Nat) :
    Statement.boundFrom? name start (one.labelMeant labels) =
      if labels.find? one.address = some name then some start else none := by
  unfold labelMeant
  cases labels.find? one.address with
  | none => rfl
  | some label => rfl

theorem defined?_labelMeant (labels : AddressNames) (one : Decoded) :
    (one.labelMeant labels).filterMap Statement.defined? =
      (labels.find? one.address).toList := by
  unfold labelMeant
  cases labels.find? one.address <;> rfl

/-! ### All that is decoded -/

/-- The statements for some data say the data. -/
theorem Covers.code (covers : Covers address decoded data) (leads : labels.Leads address?) :
    Statement.code address? (decoded.flatMap (meant labels)) = data := by
  induction covers with
  | nil => rfl
  | @cons address head rest data start whole behind inductionHypothesis =>
    have labelled := head.code_labelMeant labels address?
    have body := whole.code_codeMeant leads
    rw [Statement.code] at labelled body inductionHypothesis ⊢
    rw [List.flatMap_cons, List.flatMap_append, meant, List.flatMap_append, labelled, body,
      inductionHypothesis, List.nil_append]

/-- The statements for some data take up as many bytes as there are. -/
theorem Covers.sizes (covers : Covers address decoded data) (labels : AddressNames) :
    Statement.sizes (decoded.flatMap (meant labels)) = data.length := by
  induction covers with
  | nil => rfl
  | cons start whole behind inductionHypothesis =>
    rw [List.flatMap_cons, Statement.sizes_append, meant, Statement.sizes_append, sizes_labelMeant,
      whole.sizes_codeMeant, inductionHypothesis, List.length_append, Nat.zero_add]

/-- Every argument in the statements for some data stands for a byte. -/
theorem Covers.resolved (covers : Covers address decoded data) (leads : labels.Leads address?) :
    ∀ statement ∈ decoded.flatMap (meant labels), statement.Resolved address? := by
  induction covers with
  | nil => exact fun _ none => absurd none List.not_mem_nil
  | cons start whole behind inductionHypothesis =>
    intro statement member
    rw [List.flatMap_cons, meant] at member
    rcases List.mem_append.mp member with first | later
    · rcases List.mem_append.mp first with labelled | body
      · obtain ⟨name, rfl, _⟩ := mem_labelMeant labelled
        trivial
      · exact whole.resolved_codeMeant leads statement body
    · exact inductionHypothesis statement later

/-- In the statements for some data a name is bound to the first address that has it as its
label. -/
theorem Covers.boundFrom? (covers : Covers address decoded data) (labels : AddressNames)
    (name : String) (start : Nat) (place : address = start) :
    Statement.boundFrom? name start (decoded.flatMap (meant labels)) =
      (decoded.find? fun one => labels.find? one.address = some name).map
        fun one => one.address.toNat := by
  induction covers generalizing start with
  | nil => rfl
  | @cons address head rest data begins whole behind inductionHypothesis =>
    have next := inductionHypothesis (start + head.bytes.length) (by rw [place, Int.natCast_add])
    have body : Statement.boundFrom? name start (head.codeMeant labels) = none :=
      (Statement.boundFrom?_eq_none_iff _ _ _).mpr fun statement member defines => by
        rw [whole.defined?_codeMeant labels statement member] at defines
        cases defines
    rw [List.flatMap_cons, Statement.boundFrom?_append, meant, Statement.sizes_append,
      whole.sizes_codeMeant, Statement.boundFrom?_append, sizes_labelMeant, Nat.add_zero,
      Nat.zero_add, body, next, boundFrom?_labelMeant]
    by_cases named : labels.find? head.address = some name
    · have chosen : (head :: rest).find? (fun one => labels.find? one.address = some name) =
          some head := List.find?_cons_of_pos (decide_eq_true named)
      rw [if_pos named, chosen, Option.some_or, Option.some_or, Option.map_some, begins, place,
        Int.toNat_natCast]
    · have passed : (head :: rest).find? (fun one => labels.find? one.address = some name) =
          rest.find? fun one => labels.find? one.address = some name :=
        List.find?_cons_of_neg fun chosen => named (of_decide_eq_true chosen)
      rw [if_neg named, passed, Option.none_or, Option.none_or]

/-- The statements for some data define the labels of the addresses where something begins. -/
theorem Covers.defined? (covers : Covers address decoded data) (labels : AddressNames) :
    (decoded.flatMap (meant labels)).filterMap Statement.defined? =
      decoded.filterMap fun one => labels.find? one.address := by
  induction covers with
  | nil => rfl
  | @cons address head rest data start whole behind inductionHypothesis =>
    have body : (head.codeMeant labels).filterMap Statement.defined? = [] :=
      List.filterMap_eq_nil_iff.mpr (whole.defined?_codeMeant labels)
    rw [List.flatMap_cons, List.filterMap_append, meant, List.filterMap_append, body,
      defined?_labelMeant, List.append_nil, inductionHypothesis, List.filterMap_cons]
    cases labels.find? head.address <;> rfl

/-- What is decoded later begins later. -/
theorem Covers.pairwise (covers : Covers address decoded data) :
    decoded.Pairwise fun first second => first.address < second.address := by
  induction covers with
  | nil => exact List.Pairwise.nil
  | cons start whole behind inductionHypothesis =>
    exact List.Pairwise.cons (Covers.cons start whole behind).lt_address inductionHypothesis

end Decoded

end

end Octet
