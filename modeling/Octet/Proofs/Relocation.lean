/-
This file shows what becomes of a program behind another one. Both are read one
behind the other, so the second begins where the code of the first ends, and
whatever it binds to an address is bound that much further on. Its code is the
same but for the bytes that encode labels, and to each of these the length of
the first code is added.

One statement about addresses carries the proof: among the names that some
statements mention, each that had an address has one that has moved on, and the
memory still reaches it. For the statements of the first program it holds with
addresses that have not moved at all, for those of the second with the length of
the first code. Only here it is needed that the programs share no name, for then
the first definition of a name in the joined program is where it was.
-/

import Octet.Assembly.Session
import Octet.Proofs.Joining
import Octet.Proofs.Meaning

namespace Octet

/-! ### The bytes that encode labels -/

/-- The name that an argument mentions, if it is a label. -/
def Arg.label? (arg : Arg) : Option String :=
  match arg.content with
  | .value _ => none
  | .label name => some name

/-- The names that the operands of a statement mention. -/
def Statement.mentioned : Statement → List String
  | .instruction held => held.args.filterMap Arg.label?
  | _ => []

/-- For each byte of a statement, whether it encodes a label. -/
def Statement.labelBytes : Statement → List Bool
  | .label _ _ => []
  | .byte _ => [false]
  | .instruction held => false :: held.args.map fun arg => arg.label?.isSome

/-- The numbers that some bytes are when those that encode labels have moved on by some places. -/
def movedOn (places : Nat) (labels : List Bool) (bytes : List UInt8) : List Nat :=
  List.zipWith (fun isLabel byte => if isLabel then byte.toNat + places else byte.toNat) labels
    bytes

/-- Every byte of a statement is known to encode a label or not. -/
theorem Statement.length_labelBytes (address? : String → Option Nat) (statement : Statement) :
    statement.labelBytes.length = (statement.bytes address?).length := by
  rw [Statement.length_bytes]
  cases statement with
  | label name span => rfl
  | byte value => rfl
  | instruction held =>
    rw [Statement.labelBytes, List.length_cons, List.length_map, held.complete, Nat.add_comm]
    rfl

theorem Statement.length_flatMap_labelBytes (address? : String → Option Nat)
    (statements : List Statement) :
    (statements.flatMap Statement.labelBytes).length =
      (Statement.code address? statements).length := by
  induction statements with
  | nil => rfl
  | cons statement rest inductionHypothesis =>
    rw [Statement.code] at inductionHypothesis ⊢
    rw [List.flatMap_cons, List.flatMap_cons, List.length_append, List.length_append,
      inductionHypothesis, statement.length_labelBytes address?]

/-- Nothing that has not moved is another number. -/
theorem movedOn_zero {labels : List Bool} {bytes : List UInt8}
    (complete : labels.length = bytes.length) : movedOn 0 labels bytes = bytes.map UInt8.toNat := by
  have same : ∀ (isLabel : Bool) (byte : UInt8),
      (if isLabel then byte.toNat + 0 else byte.toNat) = byte.toNat := by
    intro isLabel byte
    cases isLabel <;> rfl
  induction bytes generalizing labels with
  | nil => rw [movedOn, List.zipWith_nil_right, List.map_nil]
  | cons byte rest inductionHypothesis =>
    cases labels with
    | nil => cases complete
    | cons isLabel others =>
      have further := inductionHypothesis (Nat.succ.inj complete)
      rw [movedOn] at further ⊢
      rw [List.zipWith_cons_cons, same, further, List.map_cons]

/-! ### Code for addresses that have moved on -/

/-- Among some names each that has an address has one that has moved on, within the memory. -/
def Moves (places : Nat) (names : List String) (address? moved? : String → Option Nat) : Prop :=
  ∀ name ∈ names, ∀ address, address? name = some address →
    moved? name = some (address + places) ∧ address + places < memorySize

section

variable {places : Nat} {address? moved? : String → Option Nat}

theorem Moves.append {front back : List String}
    (moves : Moves places (front ++ back) address? moved?) :
    Moves places front address? moved? ∧ Moves places back address? moved? :=
  List.forall_mem_append.mp moves

/-- A label stands for a byte exactly if it is bound within the memory. -/
theorem Arg.byte?_label {name : String} {span : Option Span} {bracketed : Bool} {byte : UInt8} :
    Arg.byte? address? ⟨.label name, span, bracketed⟩ = some byte ↔
      ∃ address, address? name = some address ∧ address < memorySize ∧ byte = .ofNat address := by
  simp only [Arg.byte?]
  cases address? name with
  | none => simp
  | some address => by_cases within : address < memorySize <;> simp [within, eq_comm]

/-- The byte of an argument moves on if it encodes a label. -/
theorem Arg.byte?_moved {arg : Arg} {byte : UInt8}
    (moves : Moves places arg.label?.toList address? moved?)
    (stands : arg.byte? address? = some byte) :
    ∃ moved, arg.byte? moved? = some moved ∧
      moved.toNat = if arg.label?.isSome then byte.toNat + places else byte.toNat := by
  obtain ⟨content, span, bracketed⟩ := arg
  cases content with
  | value number => exact ⟨byte, stands, rfl⟩
  | label name =>
    obtain ⟨address, bound, inside, rfl⟩ := Arg.byte?_label.mp stands
    obtain ⟨later, within⟩ := moves name List.mem_cons_self address bound
    refine ⟨.ofNat (address + places), Arg.byte?_label.mpr ⟨_, later, within, rfl⟩, ?_⟩
    rw [UInt8.toNat_ofNat_of_lt' within, UInt8.toNat_ofNat_of_lt' inside]
    rfl

theorem Arg.mapM_byte?_moved {args : List Arg} {bytes : List UInt8}
    (moves : Moves places (args.filterMap Arg.label?) address? moved?)
    (stand : args.mapM (Arg.byte? address?) = some bytes) :
    ∃ moved, args.mapM (Arg.byte? moved?) = some moved ∧
      moved.map UInt8.toNat = movedOn places (args.map fun arg => arg.label?.isSome) bytes := by
  induction args generalizing bytes with
  | nil =>
    obtain rfl : [] = bytes := by simpa using stand
    exact ⟨[], rfl, rfl⟩
  | cons arg rest inductionHypothesis =>
    have names : (arg :: rest).filterMap Arg.label? =
        arg.label?.toList ++ rest.filterMap Arg.label? := by
      cases mentions : arg.label? with
      | none => rw [List.filterMap_cons_none mentions]; rfl
      | some name => rw [List.filterMap_cons_some mentions]; rfl
    rw [names] at moves
    simp only [List.mapM_cons, Option.bind_eq_bind, Option.pure_def, Option.bind_eq_some_iff,
      Option.some_inj] at stand
    obtain ⟨byte, first, others, further, rfl⟩ := stand
    obtain ⟨moved, stands, number⟩ := Arg.byte?_moved moves.append.1 first
    obtain ⟨movedOthers, standOthers, numbers⟩ := inductionHypothesis moves.append.2 further
    refine ⟨moved :: movedOthers, ?_, ?_⟩
    · rw [List.mapM_cons, stands, standOthers]
      rfl
    · rw [List.map_cons, number, numbers]
      rfl

/-- The bytes of a statement move on where they encode labels. -/
theorem Statement.bytes_moved {statement : Statement}
    (moves : Moves places statement.mentioned address? moved?)
    (resolved : statement.Resolved address?) :
    statement.Resolved moved? ∧ (statement.bytes moved?).map UInt8.toNat =
      movedOn places statement.labelBytes (statement.bytes address?) := by
  cases statement with
  | label name span => exact ⟨trivial, rfl⟩
  | byte value => exact ⟨trivial, rfl⟩
  | instruction held =>
    obtain ⟨operands, stand⟩ := resolved
    obtain ⟨moved, standMoved, numbers⟩ := Arg.mapM_byte?_moved moves stand
    refine ⟨⟨moved, standMoved⟩, ?_⟩
    simp only [Statement.bytes, Statement.labelBytes, stand, standMoved, List.map_cons, numbers]
    rfl

/-- The code of some statements moves on where it encodes labels. -/
theorem Statement.code_moved {statements : List Statement}
    (moves : Moves places (statements.flatMap Statement.mentioned) address? moved?)
    (resolved : ∀ statement ∈ statements, statement.Resolved address?) :
    (∀ statement ∈ statements, statement.Resolved moved?) ∧
      (Statement.code moved? statements).map UInt8.toNat =
        movedOn places (statements.flatMap Statement.labelBytes)
          (Statement.code address? statements) := by
  induction statements with
  | nil => exact ⟨fun _ none => absurd none List.not_mem_nil, rfl⟩
  | cons statement rest inductionHypothesis =>
    rw [List.flatMap_cons] at moves
    rw [List.forall_mem_cons] at resolved
    obtain ⟨first, bytes⟩ := Statement.bytes_moved moves.append.1 resolved.1
    obtain ⟨others, code⟩ := inductionHypothesis moves.append.2 resolved.2
    refine ⟨List.forall_mem_cons.mpr ⟨first, others⟩, ?_⟩
    rw [Statement.code, Statement.code] at code ⊢
    rw [List.flatMap_cons, List.flatMap_cons, List.flatMap_cons, List.map_append, bytes, code,
      movedOn, movedOn, movedOn, List.zipWith_append (statement.length_labelBytes address?)]

end

/-! ### Addresses behind other code -/

/-- Where statements begin further on, their names are bound that much further on. -/
theorem Statement.boundFrom?_behind (name : String) (start places : Nat)
    (statements : List Statement) :
    Statement.boundFrom? name (start + places) statements =
      (Statement.boundFrom? name start statements).map (· + places) := by
  induction statements generalizing start with
  | nil => rfl
  | cons statement rest inductionHypothesis =>
    rw [Statement.boundFrom?, Statement.boundFrom?]
    by_cases defines : statement.defined? = some name
    · rw [if_pos defines, if_pos defines]
      rfl
    · rw [if_neg defines, if_neg defines, Nat.add_right_comm, inductionHypothesis]

theorem Program.address?_ofProgram (program : Program) (name : String) :
    (Image.ofProgram program).labels.address? name =
      Statement.boundFrom? name 0 program.statements := by
  rw [Image.labels_ofProgram, program.address?_labels]

/-- A name is one of a program's exactly if it is bound to some address. -/
theorem Program.bound_iff_mem_names (program : Program) (name : String) :
    (∃ address, Statement.boundFrom? name 0 program.statements = some address) ↔
      name ∈ program.names := by
  rw [← not_iff_not, ← program.find?_defines_eq_none_iff, not_exists,
    ← Option.eq_none_iff_forall_ne_some, Statement.boundFrom?_eq_none_iff]
  simp [Program.statements, Entry.defines]

/-- If no definition comes too late, no name is defined twice. -/
theorem Labels.distinct_of_late_eq_nil (labels : Labels) (address : Nat) (program : Program)
    (inTime : (Labels.collect labels (program.placedFrom address)).2 = []) :
    (program.statements.filterMap Statement.defined?).Nodup ∧
      ∀ name ∈ program.statements.filterMap Statement.defined?, labels.find? name = none := by
  induction program generalizing labels address with
  | nil => exact ⟨List.nodup_nil, fun _ none => absurd none List.not_mem_nil⟩
  | cons entry rest inductionHypothesis =>
    obtain ⟨statement, line⟩ := entry
    cases statement with
    | label name span =>
      have names : (Program.statements (⟨.label name span, line⟩ :: rest)).filterMap
          Statement.defined? = name :: (Program.statements rest).filterMap Statement.defined? := rfl
      rw [names]
      cases known : labels.find? name with
      | some first =>
        simp only [Program.placedFrom, Labels.collect, known] at inTime
        cases inTime
      | none =>
        simp only [Program.placedFrom, Labels.collect, known] at inTime
        obtain ⟨distinct, unknown⟩ := inductionHypothesis _ _ inTime
        refine ⟨List.nodup_cons.mpr ⟨fun again => ?_, distinct⟩,
          List.forall_mem_cons.mpr ⟨known, fun other member => ?_⟩⟩
        · have missed := unknown name again
          simp [Labels.find?, List.find?_append] at missed
        · have missed := unknown other member
          rw [Labels.find?, List.find?_append, Option.or_eq_none_iff] at missed
          exact missed.1
    | byte value => exact inductionHypothesis _ _ inTime
    | instruction held => exact inductionHypothesis _ _ inTime

namespace Image

variable {program : Program} {code : List UInt8}

/-- In a program that encoding has a result for, the arguments of every statement stand for
bytes. -/
theorem resolved_of_result (made : (ofProgram program).result = .ok code) :
    ∀ statement ∈ program.statements,
      statement.Resolved (ofProgram program).labels.address? := by
  intro statement listed
  obtain ⟨⟨held, line⟩, member, rfl⟩ := List.mem_map.mp listed
  cases held with
  | label name span => trivial
  | byte value => trivial
  | instruction held => exact operands_of_result program made member

/-- A program that encoding has a result for defines no name twice. -/
theorem distinct_of_result (made : (ofProgram program).result = .ok code) :
    (program.statements.filterMap Statement.defined?).Nodup := by
  have clean := ((result_eq_ok_iff _ _).mp made).1
  rw [diagnostics_ofProgram, List.append_assoc, List.append_eq_nil_iff] at clean
  exact (Labels.distinct_of_late_eq_nil [] 0 program clean.1).1

theorem length_of_made (made : (ofProgram program).result = .ok code) :
    code.length = program.size := by
  rw [← ((result_eq_ok_iff _ _).mp made).2, length_code_ofProgram]

end Image

/-! ### One program behind another -/

/-- Names that arguments mention are bound within the memory if all arguments stand for bytes. -/
theorem Arg.bound_of_mapM {address? : String → Option Nat} {args : List Arg} {bytes : List UInt8}
    (stand : args.mapM (Arg.byte? address?) = some bytes) :
    ∀ name ∈ args.filterMap Arg.label?,
      ∃ address, address? name = some address ∧ address < memorySize := by
  induction args generalizing bytes with
  | nil => exact fun _ none => absurd none List.not_mem_nil
  | cons arg rest inductionHypothesis =>
    simp only [List.mapM_cons, Option.bind_eq_bind, Option.pure_def, Option.bind_eq_some_iff,
      Option.some_inj] at stand
    obtain ⟨byte, first, others, further, -⟩ := stand
    obtain ⟨content, span, bracketed⟩ := arg
    cases content with
    | value number => exact inductionHypothesis further
    | label name =>
      obtain ⟨address, bound, inside, -⟩ := Arg.byte?_label.mp first
      exact List.forall_mem_cons.mpr ⟨⟨address, bound, inside⟩, inductionHypothesis further⟩

theorem Statement.bound_of_resolved {address? : String → Option Nat} {statement : Statement}
    (resolved : statement.Resolved address?) :
    ∀ name ∈ statement.mentioned,
      ∃ address, address? name = some address ∧ address < memorySize := by
  cases statement with
  | label name span => exact fun _ none => absurd none List.not_mem_nil
  | byte value => exact fun _ none => absurd none List.not_mem_nil
  | instruction held =>
    obtain ⟨operands, stand⟩ := resolved
    exact Arg.bound_of_mapM stand

namespace Program.Says

variable {before after joined : Program} {front back : List UInt8}

/-- A name is bound as in the first program, or else as in the second, behind the first. -/
theorem address?_joined (meaning : joined.Says (before.statements ++ after.statements))
    (name : String) :
    (Image.ofProgram joined).labels.address? name =
      ((Image.ofProgram before).labels.address? name).or
        (((Image.ofProgram after).labels.address? name).map (· + before.size)) := by
  rw [meaning.address?, Statement.boundFrom?_append, Program.sizes_statements,
    Statement.boundFrom?_behind, Program.address?_ofProgram, Program.address?_ofProgram]

/-- The names that the first program mentions are bound where they were. -/
theorem moves_front (meaning : joined.Says (before.statements ++ after.statements))
    (made : (Image.ofProgram before).result = .ok front) :
    Moves 0 (before.statements.flatMap Statement.mentioned)
      (Image.ofProgram before).labels.address? (Image.ofProgram joined).labels.address? := by
  intro name mentioned address bound
  obtain ⟨statement, listed, inside⟩ := List.mem_flatMap.mp mentioned
  obtain ⟨other, same, within⟩ :=
    Statement.bound_of_resolved (Image.resolved_of_result made statement listed) name inside
  rw [bound] at same
  obtain rfl := Option.some_inj.mp same
  refine ⟨?_, within⟩
  rw [meaning.address?_joined, bound, Option.some_or, Nat.add_zero]

/-- The names that the second program mentions are bound behind the first. -/
theorem moves_back (meaning : joined.Says (before.statements ++ after.statements))
    (disjoint : ∀ name ∈ before.names, name ∉ after.names)
    (reached : ∀ name ∈ after.statements.flatMap Statement.mentioned, ∀ address,
      (Image.ofProgram after).labels.address? name = some address →
        before.size + address < memorySize) :
    Moves before.size (after.statements.flatMap Statement.mentioned)
      (Image.ofProgram after).labels.address? (Image.ofProgram joined).labels.address? := by
  intro name mentioned address bound
  have unknown : (Image.ofProgram before).labels.address? name = none := by
    rw [Program.address?_ofProgram, Option.eq_none_iff_forall_ne_some]
    intro other same
    refine disjoint name ((before.bound_iff_mem_names name).mp ⟨other, same⟩) ?_
    rw [Program.address?_ofProgram] at bound
    exact (after.bound_iff_mem_names name).mp ⟨address, bound⟩
  refine ⟨?_, ?_⟩
  · rw [meaning.address?_joined, unknown, bound]
    rfl
  · rw [Nat.add_comm]
    exact reached name mentioned address bound

/-- The names of the joined program are those of the first, and behind them those of the second. -/
theorem names_joined (meaning : joined.Says (before.statements ++ after.statements))
    (disjoint : ∀ name ∈ before.names, name ∉ after.names) :
    joined.names = before.names ++ after.names := by
  have apart : (after.statements.filterMap Statement.defined?).removeAll
      (before.statements.filterMap Statement.defined?) =
        after.statements.filterMap Statement.defined? := by
    refine List.filter_eq_self.mpr fun name listed => ?_
    have fresh := mt (disjoint name) (not_not.mpr (List.mem_eraseDups.mpr listed))
    rw [Program.names, List.mem_eraseDups] at fresh
    simpa using fresh
  rw [meaning.names, List.filterMap_append, List.eraseDups_append, apart, Program.names,
    Program.names]

/-- The labels of the joined program are those of the first where they were, and behind them those
of the second behind the first program. -/
theorem bindings_joined (meaning : joined.Says (before.statements ++ after.statements))
    (disjoint : ∀ name ∈ before.names, name ∉ after.names) :
    joined.labels.1.bindings = before.labels.1.bindings ++
      after.labels.1.bindings.map fun (name, address) => (name, address + before.size) := by
  have bound : ∀ name, Statement.boundFrom? name 0 joined.statements =
      (Statement.boundFrom? name 0 before.statements).or
        ((Statement.boundFrom? name 0 after.statements).map (· + before.size)) := by
    intro name
    rw [← Program.address?_ofProgram, meaning.address?_joined, Program.address?_ofProgram,
      Program.address?_ofProgram]
  rw [Program.bindings_labels, Program.bindings_labels, Program.bindings_labels,
    meaning.names_joined disjoint, List.filterMap_append, List.map_filterMap]
  congr 1
  · refine List.filterMap_congr fun name listed => ?_
    obtain ⟨address, known⟩ := (before.bound_iff_mem_names name).mpr listed
    rw [bound, known, Option.some_or]
  · refine List.filterMap_congr fun name listed => ?_
    have unknown : Statement.boundFrom? name 0 before.statements = none := by
      refine Option.eq_none_iff_forall_ne_some.mpr fun address known => ?_
      exact disjoint name ((before.bound_iff_mem_names name).mp ⟨address, known⟩) listed
    rw [bound, unknown, Option.none_or, Option.map_map, Option.map_map]
    rfl

/-- Behind another program that shares no name with it, a program is encoded as by itself, except
that its labels have moved on by the length of the other. -/
theorem result_joined (meaning : joined.Says (before.statements ++ after.statements))
    (madeFront : (Image.ofProgram before).result = .ok front)
    (madeBack : (Image.ofProgram after).result = .ok back)
    (disjoint : ∀ name ∈ before.names, name ∉ after.names)
    (fits : before.size + after.size ≤ memorySize)
    (reached : ∀ name ∈ after.statements.flatMap Statement.mentioned, ∀ address,
      (Image.ofProgram after).labels.address? name = some address →
        before.size + address < memorySize) :
    ∃ code, (Image.ofProgram joined).result = .ok code ∧
      code.map UInt8.toNat = front.map UInt8.toNat ++
        movedOn before.size (after.statements.flatMap Statement.labelBytes) back := by
  have resolved := fun {program code} => @Image.resolved_of_result program code
  obtain ⟨resolvedFront, codeFront⟩ :=
    Statement.code_moved (meaning.moves_front madeFront) (resolved madeFront)
  obtain ⟨resolvedBack, codeBack⟩ :=
    Statement.code_moved (meaning.moves_back disjoint reached) (resolved madeBack)
  rw [movedOn_zero (Statement.length_flatMap_labelBytes _ _)] at codeFront
  have distinct : ((before.statements ++ after.statements).filterMap
      Statement.defined?).Nodup := by
    rw [List.filterMap_append]
    refine List.nodup_append'.mpr ⟨Image.distinct_of_result madeFront,
      Image.distinct_of_result madeBack, fun name known again => ?_⟩
    exact disjoint name (List.mem_eraseDups.mpr known) (List.mem_eraseDups.mpr again)
  have size : joined.size ≤ memorySize := by
    rw [meaning.size, Statement.sizes_append, Program.sizes_statements, Program.sizes_statements]
    exact fits
  refine ⟨(Image.ofProgram joined).code, (Image.result_eq_ok_iff _ _).mpr ⟨?_, rfl⟩, ?_⟩
  · rw [meaning.diagnostics distinct (List.forall_mem_append.mpr ⟨resolvedFront, resolvedBack⟩),
      Image.oversize, if_pos size]
  · rw [meaning.code, Statement.code, List.flatMap_append, List.map_append]
    rw [Statement.code] at codeFront codeBack
    rw [codeFront, codeBack, ← ((Image.result_eq_ok_iff _ _).mp madeFront).2,
      ← ((Image.result_eq_ok_iff _ _).mp madeBack).2, Image.code_ofProgram, Image.code_ofProgram]

end Program.Says

/-! ### Joined sources are relocated -/

theorem Program.statements_behind (lines bytes : Nat) (program : Program) :
    Program.statements (program.map (.behind lines bytes)) = program.statements := by
  rw [Program.statements, Program.statements, List.map_map]
  rfl

/-- Two sources that share no label assemble to the code of the first and behind it the code of the
second, with the length of the first added to exactly the bytes that encode labels; and their labels
are those of the first and behind them those of the second, with that length added to each address.
This holds as long as the memory holds both codes and reaches every label that is mentioned. -/
theorem joined_sources_are_relocated (session : Session) {first second : String}
    {front back : List UInt8} {after : Program} (assembledFirst : assemble first = .ok front)
    (assembledSecond : assemble second = .ok back)
    (parsedSecond : Program.ofSource second = .ok after)
    (disjoint : ∀ name ∈ (Session.fresh.assemble first).1.image.labels.map Label.name,
      name ∉ (Session.fresh.assemble second).1.image.labels.map Label.name)
    (fits : front.length + back.length ≤ memorySize)
    (reached : ∀ name ∈ after.statements.flatMap Statement.mentioned, ∀ address,
      (Session.fresh.assemble second).1.image.labels.address? name = some address →
        front.length + address < memorySize) :
    let labelBytes := after.statements.flatMap Statement.labelBytes
    let joined := session.assemble (first ++ "\n" ++ second)
    labelBytes.length = back.length ∧
      (∃ code, joined.2 = .ok code ∧ joined.1.image.code = code ∧
        code.map UInt8.toNat =
          front.map UInt8.toNat ++ movedOn front.length labelBytes back) ∧
      joined.1.image.labels.bindings =
        (Session.fresh.assemble first).1.image.labels.bindings ++
          (Session.fresh.assemble second).1.image.labels.bindings.map
            fun (name, address) => (name, address + front.length) := by
  obtain ⟨before, parsedFirst, madeFront⟩ := (assemble_eq_ok_iff first front).mp assembledFirst
  obtain ⟨_, parsedAgain, madeBack⟩ := (assemble_eq_ok_iff second back).mp assembledSecond
  rw [parsedSecond] at parsedAgain
  obtain rfl := Except.ok.inj parsedAgain
  have parsed := Program.ofSource_join parsedFirst parsedSecond
  have meaning : Program.Says (before ++ after.map (.behind (lineCount first) (endedWidth first)))
      (before.statements ++ after.statements) := by
    rw [Program.Says, Program.statements, List.map_append]
    exact congrArg (fun back => List.map _ (_ ++ back)) (Program.statements_behind _ _ after)
  rw [Session.fresh.assemble_of_parsed parsedFirst, Session.fresh.assemble_of_parsed parsedSecond]
    at disjoint
  rw [Session.fresh.assemble_of_parsed parsedSecond] at reached
  simp only [Image.labels_ofProgram, before.knows_labels.1.names,
    after.knows_labels.1.names] at disjoint
  rw [Image.length_of_made madeFront, Image.length_of_made madeBack] at fits
  simp only [Image.length_of_made madeFront] at reached ⊢
  rw [session.assemble_of_parsed parsed, Session.fresh.assemble_of_parsed parsedFirst,
    Session.fresh.assemble_of_parsed parsedSecond]
  obtain ⟨code, made, numbers⟩ :=
    meaning.result_joined madeFront madeBack disjoint fits reached
  refine ⟨?_, ⟨code, made, ((Image.result_eq_ok_iff _ _).mp made).2, numbers⟩,
    meaning.bindings_joined disjoint⟩
  rw [Statement.length_flatMap_labelBytes (Image.ofProgram after).labels.address?,
    ← Image.code_ofProgram, ((Image.result_eq_ok_iff _ _).mp madeBack).2]

/-- References forward to the very end and backward move on, and a literal of the same number as a
label does not. -/
theorem joined_loop_is_relocated :
    let first := "ldi $05\n.top:\njmp top"
    let second := ".back:\nsti $06 end\njmp back\n.end:"
    let joined := Session.fresh.assemble (first ++ "\n" ++ second)
    assemble first = .ok [0x11, 0x05, 0x20, 0x02] ∧
      assemble second = .ok [0x13, 0x06, 0x05, 0x20, 0x00] ∧
      joined.1.image.code = [0x11, 0x05, 0x20, 0x02, 0x13, 0x06, 0x09, 0x20, 0x04] ∧
      joined.1.image.labels.bindings = [("top", 2), ("back", 4), ("end", 9)] := by
  intro first second joined
  let load : Instruction := ⟨.ldi, [⟨.value 0x05, some ⟨4, 7, by decide⟩, false⟩], rfl⟩
  let loop : Instruction := ⟨.jmp, [⟨.label "top", some ⟨4, 7, by decide⟩, false⟩], rfl⟩
  let store : Instruction := ⟨.sti, [⟨.value 0x06, some ⟨4, 7, by decide⟩, false⟩,
    ⟨.label "end", some ⟨8, 11, by decide⟩, false⟩], rfl⟩
  let jump : Instruction := ⟨.jmp, [⟨.label "back", some ⟨4, 8, by decide⟩, false⟩], rfl⟩
  let before : Program :=
    [⟨.instruction load, 0, 0, "ldi $05"⟩,
      ⟨.label "top" (some ⟨1, 4, by decide⟩), 1, 8, ".top:"⟩,
      ⟨.instruction loop, 2, 14, "jmp top"⟩]
  let after : Program :=
    [⟨.label "back" (some ⟨1, 5, by decide⟩), 0, 0, ".back:"⟩,
      ⟨.instruction store, 1, 7, "sti $06 end"⟩,
      ⟨.instruction jump, 2, 19, "jmp back"⟩,
      ⟨.label "end" (some ⟨1, 4, by decide⟩), 3, 28, ".end:"⟩]
  have parsed : (Program.ofSource first, Program.ofSource second) = (.ok before, .ok after) := by
    decide +kernel
  obtain ⟨parsedFirst, parsedSecond⟩ := Prod.mk.inj parsed
  have leftFirst := Session.fresh.assemble_of_parsed parsedFirst
  have leftSecond := Session.fresh.assemble_of_parsed parsedSecond
  have assembledFirst : assemble first = .ok [0x11, 0x05, 0x20, 0x02] := by
    rw [assemble, leftFirst]
    rfl
  have assembledSecond : assemble second = .ok [0x13, 0x06, 0x05, 0x20, 0x00] := by
    rw [assemble, leftSecond]
    rfl
  have disjoint : ∀ name ∈ (Session.fresh.assemble first).1.image.labels.map Label.name,
      name ∉ (Session.fresh.assemble second).1.image.labels.map Label.name := by
    rw [leftFirst, leftSecond]
    decide
  have reached : ∀ name ∈ after.statements.flatMap Statement.mentioned, ∀ address,
      (Session.fresh.assemble second).1.image.labels.address? name = some address →
        4 + address < memorySize := by
    have bound : ∀ name ∈ ["end", "back"],
        ∀ address ∈ (Image.ofProgram after).labels.address? name, 4 + address < memorySize := by
      decide
    rw [leftSecond]
    exact bound
  obtain ⟨-, ⟨code, -, same, numbers⟩, bindings⟩ :=
    joined_sources_are_relocated Session.fresh assembledFirst assembledSecond parsedSecond disjoint
      (by decide) reached
  refine ⟨assembledFirst, assembledSecond, ?_, ?_⟩
  · rw [same]
    exact List.map_injective_iff.mpr (fun _ _ => UInt8.toNat_inj.mp) numbers
  · rw [bindings, leftFirst, leftSecond]
    rfl

end Octet
