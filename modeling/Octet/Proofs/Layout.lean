/-
This file shows what the first pass over a program finds out. Statements lie
one behind the other, so where a statement begins is the number of bytes before
it, and a name is bound to the place of its first definition.

Only what the statements say counts for that. The address of a name is
therefore described as a search through a list of statements, which knows
nothing of lines, and the labels that the first pass collects are shown to
answer every question as that search does.
-/

import Octet.Assembly.Layout

namespace Octet

/-! ### The statements of a program -/

/-- The name that a statement defines. -/
def Statement.defined? : Statement → Option String
  | label name _ => some name
  | _ => none

/-- The statements of a program, without their lines. -/
def Program.statements (program : Program) : List Statement :=
  program.map Entry.statement

/-- The number of bytes that some statements lay down. -/
def Statement.sizes : List Statement → Nat
  | [] => 0
  | statement :: rest => statement.size + sizes rest

@[simp]
theorem Statement.sizes_nil : Statement.sizes [] = 0 := rfl

@[simp]
theorem Statement.sizes_cons (statement : Statement) (rest : List Statement) :
    Statement.sizes (statement :: rest) = statement.size + Statement.sizes rest := rfl

@[simp]
theorem Statement.sizes_append (first second : List Statement) :
    Statement.sizes (first ++ second) = Statement.sizes first + Statement.sizes second := by
  induction first with
  | nil => rw [List.nil_append, sizes_nil, Nat.zero_add]
  | cons statement rest inductionHypothesis =>
    rw [List.cons_append, sizes_cons, sizes_cons, inductionHypothesis, Nat.add_assoc]

theorem Program.sizes_statements (program : Program) :
    Statement.sizes program.statements = program.size := by
  induction program with
  | nil => rfl
  | cons entry rest inductionHypothesis => exact congrArg _ inductionHypothesis

@[simp]
theorem Program.size_nil : Program.size [] = 0 := rfl

@[simp]
theorem Program.size_cons (entry : Entry) (rest : Program) :
    Program.size (entry :: rest) = entry.statement.size + Program.size rest := rfl

@[simp]
theorem Program.size_append (first second : Program) :
    Program.size (first ++ second) = first.size + second.size := by
  rw [← sizes_statements, ← sizes_statements, ← sizes_statements, statements, List.map_append,
    Statement.sizes_append]
  rfl

/-! ### Entries lie one behind the other -/

theorem Program.placedFrom_append (address : Nat) (first second : Program) :
    Program.placedFrom address (first ++ second) =
      Program.placedFrom address first ++ Program.placedFrom (address + first.size) second := by
  induction first generalizing address with
  | nil => rfl
  | cons entry rest inductionHypothesis =>
    rw [List.cons_append, Program.placedFrom, Program.placedFrom, inductionHypothesis,
      Program.size_cons, Nat.add_assoc, List.cons_append]

/-- A placed entry has the bytes before it behind it. -/
theorem Program.split_of_mem_placedFrom (program : Program) (start address : Nat) (entry : Entry)
    (member : ⟨address, entry⟩ ∈ program.placedFrom start) :
    ∃ before after : Program, program = before ++ entry :: after ∧
      start + before.size = address := by
  induction program generalizing start with
  | nil => exact absurd member List.not_mem_nil
  | cons head rest inductionHypothesis =>
    rcases List.mem_cons.mp member with same | later
    · obtain ⟨rfl, rfl⟩ := Placed.mk.inj same
      exact ⟨[], rest, rfl, rfl⟩
    · obtain ⟨before, after, rfl, sum⟩ := inductionHypothesis _ later
      exact ⟨head :: before, after, rfl, by rw [Program.size_cons, ← sum, Nat.add_assoc]⟩

/-- An entry is placed at an address exactly if the bytes before it lead up to there. -/
theorem Program.mem_placed_iff (program : Program) (address : Nat) (entry : Entry) :
    ⟨address, entry⟩ ∈ program.placed ↔
      ∃ before after : Program, program = before ++ entry :: after ∧ before.size = address := by
  constructor
  · intro member
    obtain ⟨before, after, split, sum⟩ := program.split_of_mem_placedFrom 0 address entry member
    exact ⟨before, after, split, by rw [← sum, Nat.zero_add]⟩
  · rintro ⟨before, after, rfl, rfl⟩
    rw [Program.placed, Program.placedFrom_append, Nat.zero_add]
    exact List.mem_append_right _ List.mem_cons_self

/-- A place between two entries of a program, or at one of its ends: the number of bytes that
some of its first entries lay down. -/
def Program.Boundary (program : Program) (place : Nat) : Prop :=
  ∃ before after : Program, program = before ++ after ∧ before.size = place

theorem Program.boundary_zero (program : Program) : program.Boundary 0 :=
  ⟨[], program, rfl, rfl⟩

theorem Program.Boundary.le_size {program : Program} {place : Nat}
    (boundary : program.Boundary place) : place ≤ program.size := by
  obtain ⟨before, after, rfl, rfl⟩ := boundary
  rw [Program.size_append]
  exact Nat.le_add_right _ _

/-! ### A name is bound to its first definition -/

/-- The address of a name in statements that begin at the given address: the place of the first
statement that defines it. -/
def Statement.boundFrom? (name : String) (address : Nat) : List Statement → Option Nat
  | [] => none
  | statement :: rest =>
    if statement.defined? = some name then some address
    else boundFrom? name (address + statement.size) rest

theorem Statement.boundFrom?_append (name : String) (address : Nat)
    (first second : List Statement) :
    Statement.boundFrom? name address (first ++ second) =
      (Statement.boundFrom? name address first).or
        (Statement.boundFrom? name (address + Statement.sizes first) second) := by
  induction first generalizing address with
  | nil => rfl
  | cons statement rest inductionHypothesis =>
    rw [List.cons_append, Statement.boundFrom?, Statement.boundFrom?]
    by_cases defines : statement.defined? = some name
    · rw [if_pos defines, if_pos defines, Option.some_or]
    · rw [if_neg defines, if_neg defines, inductionHypothesis, Statement.sizes_cons,
        Nat.add_assoc]

theorem Statement.boundFrom?_eq_none_iff (name : String) (address : Nat)
    (statements : List Statement) :
    Statement.boundFrom? name address statements = none ↔
      ∀ statement ∈ statements, statement.defined? ≠ some name := by
  induction statements generalizing address with
  | nil => simp [Statement.boundFrom?]
  | cons statement rest inductionHypothesis =>
    rw [Statement.boundFrom?, List.forall_mem_cons]
    by_cases defines : statement.defined? = some name
    · simp [defines]
    · simp [defines, inductionHypothesis]

/-- The first definition of a name decides about its address. -/
theorem Statement.boundFrom?_first (name : String) (address : Nat) (before after : List Statement)
    (statement : Statement) (defines : statement.defined? = some name)
    (first : ∀ earlier ∈ before, earlier.defined? ≠ some name) :
    Statement.boundFrom? name address (before ++ statement :: after) =
      some (address + Statement.sizes before) := by
  rw [Statement.boundFrom?_append, (Statement.boundFrom?_eq_none_iff name address before).mpr first,
    Option.none_or, Statement.boundFrom?, if_pos defines]

/-- A name is bound to a place between two entries. -/
theorem Program.split_of_boundFrom? (program : Program) (name : String) (start address : Nat)
    (bound : Statement.boundFrom? name start program.statements = some address) :
    ∃ before after : Program, program = before ++ after ∧ start + before.size = address := by
  induction program generalizing start with
  | nil => cases bound
  | cons entry rest inductionHypothesis =>
    rw [Program.statements, List.map_cons, Statement.boundFrom?] at bound
    by_cases defines : entry.statement.defined? = some name
    · rw [if_pos defines] at bound
      exact ⟨[], entry :: rest, rfl, Option.some_inj.mp bound⟩
    · rw [if_neg defines] at bound
      obtain ⟨before, after, rfl, sum⟩ := inductionHypothesis _ bound
      exact ⟨entry :: before, after, rfl, by rw [Program.size_cons, ← sum, Nat.add_assoc]⟩

/-! ### The labels that the first pass collects -/

/-- The address that a table of labels has for a name. -/
def Labels.address? (labels : Labels) (name : String) : Option Nat :=
  (labels.find? name).map Label.address

theorem Labels.address?_append_single (labels : Labels) (name other : String) (address : Nat)
    (line : Int) :
    Labels.address? (labels ++ [⟨name, address, line⟩]) other =
      (labels.address? other).or (if name = other then some address else none) := by
  simp only [Labels.address?, Labels.find?, List.find?_append, List.find?_singleton]
  cases List.find? (fun label => label.name == other) labels with
  | some label => rfl
  | none => by_cases same : name = other <;> simp [same]

/-- Collecting labels keeps those there are and binds every other name to its first definition. -/
theorem Labels.address?_collect (labels : Labels) (name : String) (address : Nat)
    (program : Program) :
    (Labels.collect labels (program.placedFrom address)).1.address? name =
      (labels.address? name).or (Statement.boundFrom? name address program.statements) := by
  induction program generalizing labels address with
  | nil => simp [Program.placedFrom, Labels.collect, Program.statements, Statement.boundFrom?]
  | cons entry rest inductionHypothesis =>
    obtain ⟨statement, line⟩ := entry
    have searched :
        Statement.boundFrom? name address (Program.statements (⟨statement, line⟩ :: rest)) =
          if statement.defined? = some name then some address
          else Statement.boundFrom? name (address + statement.size) (Program.statements rest) :=
      rfl
    rw [searched]
    cases statement with
    | label defined span =>
      cases known : labels.find? defined with
      | none =>
        simp only [Program.placedFrom, Labels.collect, known]
        rw [inductionHypothesis, Labels.address?_append_single, Option.or_assoc]
        by_cases same : defined = name
        · simp [Statement.defined?, same]
        · simp [Statement.defined?, Statement.size, same]
      | some first =>
        simp only [Program.placedFrom, Labels.collect, known]
        rw [inductionHypothesis]
        by_cases same : defined = name
        · subst same
          simp [Labels.address?, known]
        · simp [Statement.defined?, Statement.size, same]
    | byte value =>
      simp only [Program.placedFrom, Labels.collect, inductionHypothesis]
      simp [Statement.defined?]
    | instruction held =>
      simp only [Program.placedFrom, Labels.collect, inductionHypothesis]
      simp [Statement.defined?]

/-- The labels of a program bind a name to the place of its first definition, and no other. -/
theorem Program.address?_labels (program : Program) (name : String) :
    program.labels.1.address? name = Statement.boundFrom? name 0 program.statements := by
  rw [Program.labels, Program.placed, Labels.address?_collect]
  rfl

theorem Program.boundary_of_address? (program : Program) (name : String) (address : Nat)
    (bound : program.labels.1.address? name = some address) : program.Boundary address := by
  rw [Program.address?_labels] at bound
  obtain ⟨before, after, split, sum⟩ := program.split_of_boundFrom? name 0 address bound
  exact ⟨before, after, split, by rw [← sum, Nat.zero_add]⟩

/-- If no name is defined twice, no definition comes too late. -/
theorem Labels.late_eq_nil (labels : Labels) (address : Nat) (program : Program)
    (distinct : (program.statements.filterMap Statement.defined?).Nodup)
    (fresh : ∀ name ∈ program.statements.filterMap Statement.defined?, labels.find? name = none) :
    (Labels.collect labels (program.placedFrom address)).2 = [] := by
  induction program generalizing labels address with
  | nil => rfl
  | cons entry rest inductionHypothesis =>
    obtain ⟨statement, line⟩ := entry
    cases statement with
    | label name span =>
      have names : (Program.statements (⟨.label name span, line⟩ :: rest)).filterMap
          Statement.defined? = name :: (Program.statements rest).filterMap Statement.defined? := rfl
      rw [names] at distinct fresh
      obtain ⟨absent, distinctRest⟩ := List.nodup_cons.mp distinct
      have unknown : labels.find? name = none := fresh name List.mem_cons_self
      simp only [Program.placedFrom, Labels.collect, unknown]
      refine inductionHypothesis _ _ distinctRest fun other member => ?_
      have different : name ≠ other := fun same => absent (same ▸ member)
      have unknownOther := fresh other (List.mem_cons_of_mem _ member)
      simp only [Labels.find?] at unknownOther ⊢
      simp [List.find?_append, unknownOther, different]
    | byte value => exact inductionHypothesis _ _ distinct fresh
    | instruction held => exact inductionHypothesis _ _ distinct fresh

end Octet
