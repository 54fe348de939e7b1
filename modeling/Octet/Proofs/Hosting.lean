/-
This file shows what a host can do to a machine and what it cannot, together
with the hooks of its runs. The numbers that they give may be of any size and
sign, for registers and cells take bytes and nothing else. Only a stop halts a
machine, and the program counter then rests on the stop; only a reset wakes it.
Whoever asks for a step or a run while the machine is halted gets nothing done.

A hook is not called while the machine is halted. But a hook may step the
machine itself, or run it, and may so come to a stop before it has answered. If
it then lets its run go on, the run executes one more instruction all the same,
for it looks at the machine before it calls the hook and not behind that. That
is the only way in which a machine that has halted executes anything, and it
takes a hook that has halted the machine itself.

What carries the argument is one lemma on what an act can do. The rest is said
of one act first, and of all acts together by induction.
-/

import Mathlib.Data.List.Induction
import Octet.Machine.Host
import Octet.Proofs.Instructions
import Octet.Proofs.Memory
import Octet.Proofs.Watching

namespace Octet

/-! ### Halting and waking -/

/-- A machine stands on a stop, has not halted and halts when it executes the stop. Nothing but the
flag changes then. -/
structure Machine.HaltsInto (last halted : Machine) : Prop where
  running : last.halted = false
  fetched : last.fetched = Opcode.stop.byte
  halted : halted = { last with halted := true }

namespace Machine

variable {machine next : Machine} {text : String}

/-- No change halts a machine. -/
theorem halted_change (running : machine.halted = false) (change : Change) :
    (machine.change change).halted = false := by
  cases change with
  | reset => rfl
  | _ => exact running

/-- Only a reset wakes a machine. -/
theorem reset_of_woken {change : Change} (halted : machine.halted = true)
    (woken : (machine.change change).halted = false) : change = .reset := by
  cases change with
  | reset => rfl
  | _ => exact absurd halted (Bool.eq_false_iff.mp woken)

/-- What is executed is an instruction that lies under the program counter. -/
theorem exists_opcode_of_executed (executed : machine.executeFetched = .ok (next, text)) :
    ∃ opcode : Opcode, machine.fetched = opcode.byte ∧ machine.execute opcode = (next, text) := by
  cases found : Opcode.ofByte? machine.fetched with
  | none =>
    rw [executeFetched, found] at executed
    cases executed
  | some opcode =>
    rw [executeFetched, found] at executed
    exact ⟨opcode, (Opcode.byte_of_ofByte? found).symm, Except.ok.inj executed⟩

/-- An instruction that halts a machine is a stop. -/
theorem haltsInto_of_executed (running : machine.halted = false)
    (executed : machine.executeFetched = .ok (next, text)) (halted : next.halted = true) :
    machine.HaltsInto next := by
  obtain ⟨opcode, fetched, same⟩ := exists_opcode_of_executed executed
  obtain ⟨rfl, rfl⟩ := Prod.mk.inj same
  obtain rfl := (machine.halted_execute opcode running).mp halted
  exact ⟨running, fetched, rfl⟩

/-- No instruction wakes a machine. -/
theorem halted_of_executed (halted : machine.halted = true)
    (executed : machine.executeFetched = .ok (next, text)) : next.halted = true := by
  obtain ⟨opcode, _, same⟩ := exists_opcode_of_executed executed
  have still : (machine.execute opcode).1.halted = true := by
    cases opcode with
    | stop => rfl
    | jz =>
      simp only [execute]
      split <;> exact halted
    | _ => exact halted
  rwa [same] at still

/-- The program counter of a machine that has halted rests on the stop. -/
theorem HaltsInto.fetched_halted {last : Machine} (halts : last.HaltsInto machine) :
    machine.fetched = Opcode.stop.byte := by
  rw [halts.halted]
  exact halts.fetched

/-- A machine that has halted behind some calls has been halted by a stop. -/
theorem exists_haltsInto (running : machine.halted = false) {calls : Nat}
    (halted : (machine.stepped calls).machine.halted = true) :
    ∃ earlier, (machine.stepped earlier).machine.HaltsInto (machine.stepped calls).machine := by
  induction calls with
  | zero => exact absurd halted (Bool.eq_false_iff.mp running)
  | succ calls inductionHypothesis =>
    rw [stepped] at halted ⊢
    rcases (machine.stepped calls).call_cases with
      idle | ⟨going, _, ⟨next, text, executed, called⟩ | ⟨fault, _, called⟩⟩
    · rw [idle] at halted ⊢
      exact inductionHypothesis halted
    · rw [called] at halted ⊢
      rw [step_of_running _ going] at executed
      exact ⟨calls, haltsInto_of_executed going executed halted⟩
    · rw [called] at halted
      exact absurd halted (Bool.eq_false_iff.mp going)

/-- A run of a machine that has halted is over before it has done anything. -/
theorem run_of_halted {Notes : Type} (halted : machine.halted = true) (watcher : Watcher Notes)
    (notes : Notes) (limit : Option Int) :
    machine.run watcher notes limit = (Run.start machine notes, .stopped) := by
  have ended : (Run.start machine notes).upTo watcher (Run.allowance limit) =
      (Run.start machine notes, .stopped) := by
    cases Run.allowance limit with
    | zero => rw [Run.upTo, show (Run.start machine notes).machine.halted = true from halted,
        if_pos rfl]
    | succ count => rw [Run.upTo, Run.Turns.eq_turn (.stopped halted)]
  rw [run_eq, ended]
  cases limit <;> rfl

end Machine

/-! ### What an act can do -/

/-- Whether an act makes the machine execute something. -/
def Act.Executes : Act → Prop
  | .operate .step | .operate (.run _) | .answer true => True
  | _ => False

/-- Whether an act must leave the memory alone. -/
def Act.Spares : Act → Prop
  | .operate (.change .reset) | .operate (.read _) | .operate (.block _ _)
  | .operate (.string _) | .operate (.dump _ _ _) | .operate .snapshot => True
  | _ => False

/-- What is told those who ask for a step or a run of a machine that has halted. -/
def Act.refusal? : Act → Option Response
  | .operate .step => some (.stepped false)
  | .operate (.run _) | .run _ => some (.ended .stopped 0)
  | _ => none

namespace Hosted

variable {hosted : Hosted}

/-- What an act can do. A run that waited for its hook is ended, or it has executed the instruction
that is there now, and takes its next turn. -/
inductive Acts (hosted : Hosted) : Act → Hosted × Response → Prop
  | operated (operation : Operation) :
      Acts hosted (.operate operation)
        (⟨(hosted.machine.serve operation).machine,
          hosted.printed ++ (hosted.machine.serve operation).printed, hosted.pending⟩,
          (hosted.machine.serve operation).answer)
  | begun (limit : Option Int) : Acts hosted (.run limit) (hosted.turn ⟨limit, 0⟩)
  | lost {act : Act} (none : hosted.pending = []) : Acts hosted act (hosted, .done)
  | ended {act : Act} {run : Pending} {outer : List Pending} {response : Response}
      (waits : hosted.pending = run :: outer)
      (silent : ∀ pc opcode, response ≠ .called pc opcode) :
      Acts hosted act ({ hosted with pending := outer }, response)
  | executed {run : Pending} {outer : List Pending} {next : Machine} {text : String}
      (waits : hosted.pending = run :: outer)
      (executed : hosted.machine.executeFetched = .ok (next, text)) :
      Acts hosted (.answer true)
        ((Hosted.mk next (hosted.printed ++ text) outer).turn { run with steps := run.steps + 1 })

theorem acts_act (hosted : Hosted) (act : Act) : hosted.Acts act (hosted.act act) := by
  cases act with
  | operate operation => exact .operated operation
  | run limit => exact .begun limit
  | answer goesOn =>
    rw [Hosted.act]
    cases waits : hosted.pending with
    | nil => exact .lost waits
    | cons run outer =>
      cases goesOn with
      | false => exact .ended waits fun _ _ => Response.noConfusion
      | true =>
        simp only [if_true, goOn]
        cases executed : hosted.machine.executeFetched with
        | ok result => exact .executed waits executed
        | error fault => exact .ended waits fun _ _ => Response.noConfusion
  | abandon =>
    rw [Hosted.act]
    cases waits : hosted.pending with
    | nil => exact .lost waits
    | cons run outer => exact .ended waits fun _ _ => Response.noConfusion

/-- A turn calls the hook of a run, if the machine has not halted, or the run is over. -/
theorem turn_cases (hosted : Hosted) (run : Pending) :
    (∃ outcome, hosted.turn run = (hosted, .ended outcome run.steps)) ∨
      hosted.machine.halted = false ∧
        hosted.turn run = ({ hosted with pending := run :: hosted.pending },
          .called hosted.machine.pc hosted.machine.fetched) := by
  rw [turn]
  cases halted : hosted.machine.halted with
  | true => exact .inl ⟨_, rfl⟩
  | false =>
    cases run.exhausted with
    | true => exact .inl ⟨_, rfl⟩
    | false => exact .inr ⟨rfl, rfl⟩

@[simp]
theorem machine_turn (hosted : Hosted) (run : Pending) :
    (hosted.turn run).1.machine = hosted.machine := by
  rcases hosted.turn_cases run with ⟨_, same⟩ | ⟨_, same⟩ <;> rw [same]

@[simp]
theorem printed_turn (hosted : Hosted) (run : Pending) :
    (hosted.turn run).1.printed = hosted.printed := by
  rcases hosted.turn_cases run with ⟨_, same⟩ | ⟨_, same⟩ <;> rw [same]

/-- A hook that is called behind a turn is shown a machine that has not halted. -/
theorem called_of_turn {run : Pending} {pc opcode : UInt8}
    (called : (hosted.turn run).2 = .called pc opcode) :
    hosted.machine.halted = false ∧ pc = hosted.machine.pc ∧ opcode = hosted.machine.fetched := by
  rcases hosted.turn_cases run with ⟨_, same⟩ | ⟨running, same⟩
  · rw [same] at called
    cases called
  · rw [same] at called
    obtain ⟨rfl, rfl⟩ := Response.called.inj called
    exact ⟨running, rfl, rfl⟩

end Hosted

/-! ### What an act keeps -/

/-- What is kept in an act, from what there was before it to what comes of it. -/
structure Act.Keeps (act : Act) (before after : Hosted) (response : Response) : Prop where
  /-- The registers and all cells are bytes, and there are as many of them as before. -/
  registers : after.machine.pc.toNat ≤ 255 ∧ after.machine.acc.toNat ≤ 255
  cells : after.machine.memory.toList.length = memorySize ∧
    ∀ byte ∈ after.machine.memory.toList, byte.toNat ≤ 255
  snapshot : act = .operate .snapshot → ∃ bytes, response = .bytes bytes ∧ bytes.length = 259 ∧
    ∀ byte ∈ bytes, byte.toNat ≤ 255
  /-- A number that is put into a register or a cell is reduced to a byte. -/
  wraps : ∀ value : Int,
    (act = .operate (.change (.pc value)) →
      (after.machine.pc.toNat : Int) = value % memorySize) ∧
    (act = .operate (.change (.acc value)) →
      (after.machine.acc.toNat : Int) = value % memorySize) ∧
    ∀ address : Int, act = .operate (.change (.write address value)) →
      ((after.machine.memory.read address).toNat : Int) = value % memorySize
  /-- A machine is halted by a stop, on which it rests. -/
  halts : before.machine.halted = false → after.machine.halted = true → act.Executes ∧
    after.machine.fetched = Opcode.stop.byte ∧
      ∃ calls, (before.machine.stepped calls).machine.HaltsInto after.machine
  /-- A machine is woken by a reset. -/
  wakes : before.machine.halted = true → after.machine.halted = false →
    act = .operate (.change .reset)
  /-- A step or a run that is asked for while the machine is halted is refused, and nothing is
  changed or printed. -/
  idle : before.machine.halted = true → ∀ refusal, act.refusal? = some refusal →
    after = before ∧ response = refusal
  /-- Apart from changes, only a run that goes on behind a call of its hook touches a machine that
  has halted. -/
  quiet : before.machine.halted = true → (∀ change, act ≠ .operate (.change change)) →
    (act = .answer true → before.pending = []) →
      after.machine = before.machine ∧ after.printed = before.printed
  /-- A hook is called with what lies under the program counter, and not while the machine is
  halted. -/
  calls : ∀ pc opcode, response = .called pc opcode → after.machine.halted = false ∧
    pc = after.machine.pc ∧ opcode = after.machine.fetched
  spares : act.Spares → after.machine.memory = before.machine.memory

theorem Memory.length_toList (memory : Memory) : memory.toList.length = memorySize :=
  Vector.length_toList

theorem Machine.length_toBytes (machine : Machine) : machine.toBytes.length = 259 := by
  rw [toBytes, List.length_cons, List.length_cons, List.length_cons, machine.memory.length_toList]

theorem toNat_byteOfInt_eq_emod (number : Int) :
    ((UInt8.ofInt number).toNat : Int) = number % memorySize := by
  rw [toNat_byteOfInt]
  exact Int.toNat_of_nonneg (Int.emod_nonneg _ (by decide))

namespace Machine

variable (machine : Machine) (operation : Operation)

/-- If an operation halts a machine, it makes the machine execute a stop at last. -/
theorem serve_halts (running : machine.halted = false)
    (halted : (machine.serve operation).machine.halted = true) :
    (Act.operate operation).Executes ∧
      ∃ calls, (machine.stepped calls).machine.HaltsInto (machine.serve operation).machine := by
  cases operation with
  | step =>
    refine ⟨trivial, 0, ?_⟩
    rw [serve] at halted ⊢
    cases executed : machine.step with
    | ok result =>
      rw [executed] at halted
      rw [machine.step_of_running running] at executed
      exact haltsInto_of_executed running executed halted
    | error fault =>
      rw [executed] at halted
      exact absurd halted (Bool.eq_false_iff.mp running)
  | run limit =>
    have reached : (machine.stepped (machine.run .blind () limit).1.steps).machine =
        (machine.run .blind () limit).1.machine :=
      congrArg Progress.machine (machine.run_tracks .blind () limit)
    have stopped : (machine.run .blind () limit).1.machine.halted = true := halted
    rw [← reached] at stopped
    obtain ⟨calls, halts⟩ := exists_haltsInto running stopped
    rw [reached] at halts
    exact ⟨trivial, calls, halts⟩
  | change change =>
    exact absurd halted (Bool.eq_false_iff.mp (halted_change running change))
  | read | block | string | dump | snapshot =>
    exact absurd halted (Bool.eq_false_iff.mp running)

/-- Nothing is executed on a machine that has halted. -/
theorem serve_idle (halted : machine.halted = true)
    (unchanged : ∀ change, operation ≠ .change change) :
    (machine.serve operation).machine = machine ∧ (machine.serve operation).printed = "" := by
  cases operation with
  | step =>
    rw [serve, machine.step_of_halted halted]
    exact ⟨rfl, rfl⟩
  | run limit =>
    rw [serve, run_of_halted halted]
    exact ⟨rfl, rfl⟩
  | change change => exact absurd rfl (unchanged change)
  | read | block | string | dump | snapshot => exact ⟨rfl, rfl⟩

theorem serve_refusal (halted : machine.halted = true) {refusal : Response}
    (refuses : (Act.operate operation).refusal? = some refusal) :
    machine.serve operation = ⟨machine, "", refusal⟩ := by
  cases operation with
  | step =>
    obtain rfl := Option.some_inj.mp refuses
    rw [serve, machine.step_of_halted halted]
    show Reply.mk machine "" (.stepped !machine.halted) = _
    rw [halted]
    rfl
  | run limit =>
    obtain rfl := Option.some_inj.mp refuses
    rw [serve, run_of_halted halted]
    rfl
  | _ => cases refuses

/-- An operation that wakes a machine is a reset. -/
theorem serve_wakes (halted : machine.halted = true)
    (woken : (machine.serve operation).machine.halted = false) : operation = .change .reset := by
  cases operation with
  | change change => exact congrArg Operation.change (reset_of_woken halted woken)
  | _ =>
    rw [(machine.serve_idle _ halted fun _ => Operation.noConfusion).1, halted] at woken
    cases woken

theorem serve_spares (spares : (Act.operate operation).Spares) :
    (machine.serve operation).machine.memory = machine.memory := by
  cases operation with
  | step | run => exact spares.elim
  | change change =>
    cases change with
    | reset => rfl
    | _ => exact spares.elim
  | read | block | string | dump | snapshot => rfl

/-- No operation calls a hook. -/
theorem serve_silent (pc opcode : UInt8) :
    (machine.serve operation).answer ≠ .called pc opcode := by
  cases operation with
  | step =>
    rw [serve]
    cases machine.step <;> exact Response.noConfusion
  | run limit =>
    show Response.ofOutcome _ (machine.run .blind () limit).2 ≠ _
    cases (machine.run .blind () limit).2 <;> exact Response.noConfusion
  | dump start length width =>
    rw [serve]
    cases machine.memory.dump start length width <;> exact Response.noConfusion
  | change | read | block | string | snapshot => exact Response.noConfusion

/-- What is put into a register or a cell is there as a byte. -/
theorem change_wraps (value : Int) :
    ((machine.change (.pc value)).pc.toNat : Int) = value % memorySize ∧
      ((machine.change (.acc value)).acc.toNat : Int) = value % memorySize ∧
        ∀ address : Int,
          (((machine.change (.write address value)).memory.read address).toNat : Int) =
            value % memorySize := by
  refine ⟨toNat_byteOfInt_eq_emod value, toNat_byteOfInt_eq_emod value, fun address => ?_⟩
  show (((machine.memory.set _ _).get _).toNat : Int) = _
  rw [Memory.get_set_self, toNat_byteOfInt_eq_emod]

end Machine

namespace Hosted

variable (hosted : Hosted) (act : Act)

/-- An act that halts the machine makes it execute a stop at last. -/
theorem act_halts (running : hosted.machine.halted = false)
    (halted : (hosted.act act).1.machine.halted = true) :
    act.Executes ∧
      ∃ calls, (hosted.machine.stepped calls).machine.HaltsInto (hosted.act act).1.machine := by
  generalize acted : hosted.act act = result at halted ⊢
  cases acted ▸ hosted.acts_act act with
  | operated operation => exact hosted.machine.serve_halts operation running halted
  | begun limit =>
    rw [machine_turn] at halted
    exact absurd halted (Bool.eq_false_iff.mp running)
  | lost | ended => exact absurd halted (Bool.eq_false_iff.mp running)
  | executed _ executed =>
    rw [machine_turn] at halted ⊢
    exact ⟨trivial, 0, Machine.haltsInto_of_executed running executed halted⟩

theorem act_wakes (halted : hosted.machine.halted = true)
    (woken : (hosted.act act).1.machine.halted = false) : act = .operate (.change .reset) := by
  generalize acted : hosted.act act = result at woken
  cases acted ▸ hosted.acts_act act with
  | operated operation =>
    exact congrArg Act.operate (hosted.machine.serve_wakes operation halted woken)
  | begun limit =>
    rw [machine_turn] at woken
    exact absurd halted (Bool.eq_false_iff.mp woken)
  | lost | ended => exact absurd halted (Bool.eq_false_iff.mp woken)
  | executed _ executed =>
    rw [machine_turn, Machine.halted_of_executed halted executed] at woken
    cases woken

theorem act_idle (halted : hosted.machine.halted = true) {refusal : Response}
    (refuses : act.refusal? = some refusal) : hosted.act act = (hosted, refusal) := by
  cases act with
  | operate operation =>
    rw [Hosted.act, hosted.machine.serve_refusal operation halted refuses, String.append_empty]
  | run limit =>
    obtain rfl := Option.some_inj.mp refuses
    rw [Hosted.act, turn, halted, if_pos rfl]
  | answer | abandon => cases refuses

theorem act_quiet (halted : hosted.machine.halted = true)
    (unchanged : ∀ change, act ≠ .operate (.change change))
    (unanswered : act = .answer true → hosted.pending = []) :
    (hosted.act act).1.machine = hosted.machine ∧
      (hosted.act act).1.printed = hosted.printed := by
  generalize acted : hosted.act act = result
  cases acted ▸ hosted.acts_act act with
  | operated operation =>
    obtain ⟨machine, printed⟩ := hosted.machine.serve_idle operation halted fun change same =>
      unchanged change (congrArg Act.operate same)
    exact ⟨machine, by rw [printed, String.append_empty]⟩
  | begun limit => exact ⟨hosted.machine_turn _, hosted.printed_turn _⟩
  | lost | ended => exact ⟨rfl, rfl⟩
  | executed waits =>
    rw [unanswered rfl] at waits
    cases waits

theorem act_calls {pc opcode : UInt8} (called : (hosted.act act).2 = .called pc opcode) :
    (hosted.act act).1.machine.halted = false ∧ pc = (hosted.act act).1.machine.pc ∧
      opcode = (hosted.act act).1.machine.fetched := by
  generalize acted : hosted.act act = result at called ⊢
  cases acted ▸ hosted.acts_act act with
  | operated operation => exact absurd called (hosted.machine.serve_silent operation pc opcode)
  | begun limit =>
    rw [machine_turn]
    exact called_of_turn called
  | lost => cases called
  | ended _ silent => exact absurd called (silent pc opcode)
  | executed =>
    rw [machine_turn]
    exact called_of_turn called

theorem act_keeps : act.Keeps hosted (hosted.act act).1 (hosted.act act).2 where
  registers := ⟨Nat.le_of_lt_succ (UInt8.toNat_lt _), Nat.le_of_lt_succ (UInt8.toNat_lt _)⟩
  cells := ⟨Memory.length_toList _, fun byte _ => Nat.le_of_lt_succ byte.toNat_lt⟩
  snapshot := fun asked => by
    subst asked
    exact ⟨_, rfl, hosted.machine.length_toBytes, fun byte _ => Nat.le_of_lt_succ byte.toNat_lt⟩
  wraps := fun value => by
    refine ⟨?_, ?_, fun address => ?_⟩
    · rintro rfl
      exact (hosted.machine.change_wraps value).1
    · rintro rfl
      exact (hosted.machine.change_wraps value).2.1
    · rintro rfl
      exact (hosted.machine.change_wraps value).2.2 address
  halts := fun running halted => by
    obtain ⟨executes, calls, halts⟩ := hosted.act_halts act running halted
    exact ⟨executes, halts.fetched_halted, calls, halts⟩
  wakes := hosted.act_wakes act
  idle := fun halted refusal refuses => Prod.mk.inj (hosted.act_idle act halted refuses)
  quiet := hosted.act_quiet act
  calls := fun _ _ => hosted.act_calls act
  spares := fun spares => by
    cases act with
    | operate operation => exact hosted.machine.serve_spares operation spares
    | run | answer | abandon => exact spares.elim

end Hosted

/-! ### Acts, one after the other -/

namespace Hosted

variable {hosted : Hosted} {acts : List Act}

theorem actAll_append (hosted : Hosted) (acts further : List Act) :
    hosted.actAll (acts ++ further) = (hosted.actAll acts).actAll further :=
  List.foldl_append

theorem actAll_append_single (hosted : Hosted) (acts : List Act) (act : Act) :
    hosted.actAll (acts ++ [act]) = ((hosted.actAll acts).act act).1 :=
  hosted.actAll_append acts [act]

/-- A machine that has been halted was halted by one of the acts, and there was no reset behind
that. -/
theorem exists_halting_act (running : hosted.machine.halted = false)
    (halted : (hosted.actAll acts).machine.halted = true) :
    ∃ earlier act later, acts = earlier ++ act :: later ∧
      (hosted.actAll earlier).machine.halted = false ∧
      ((hosted.actAll earlier).act act).1.machine.halted = true ∧
      .operate (.change .reset) ∉ later := by
  induction acts using List.reverseRecOn with
  | nil => exact absurd halted (Bool.eq_false_iff.mp running)
  | append_singleton acts last inductionHypothesis =>
    rw [actAll_append_single] at halted
    cases before : (hosted.actAll acts).machine.halted with
    | false => exact ⟨acts, last, [], rfl, before, halted, List.not_mem_nil⟩
    | true =>
      obtain ⟨earlier, act, later, rfl, going, stopped, others⟩ := inductionHypothesis before
      refine ⟨earlier, act, later ++ [last], by rw [List.append_assoc]; rfl, going, stopped, ?_⟩
      rw [List.mem_append, List.mem_singleton, not_or]
      refine ⟨others, ?_⟩
      rintro rfl
      cases halted

/-- An act leaves the runs that wait, or fewer of them, or it has called a hook. -/
theorem pending_act (hosted : Hosted) (act : Act) :
    (hosted.act act).1.pending <:+ hosted.pending ∨
      (hosted.act act).1.machine.halted = false ∧
        ∃ run outer, (hosted.act act).1.pending = run :: outer ∧ outer <:+ hosted.pending := by
  generalize acted : hosted.act act = result
  cases acted ▸ hosted.acts_act act with
  | operated | lost => exact .inl (List.suffix_refl _)
  | begun limit =>
    rcases hosted.turn_cases ⟨limit, 0⟩ with ⟨_, same⟩ | ⟨running, same⟩
    · rw [same]
      exact .inl (List.suffix_refl _)
    · rw [same]
      exact .inr ⟨running, _, _, rfl, List.suffix_refl _⟩
  | ended waits =>
    rw [waits]
    exact .inl (List.suffix_cons _ _)
  | @executed run outer next text waits executed =>
    rw [waits]
    rcases turn_cases ⟨next, hosted.printed ++ text, outer⟩ { run with steps := run.steps + 1 } with
      ⟨_, same⟩ | ⟨running, same⟩
    · rw [same]
      exact .inl (List.suffix_cons _ _)
    · rw [same]
      exact .inr ⟨running, _, _, rfl, List.suffix_cons _ _⟩

/-- Some runs began to wait behind the earlier acts, when the machine had not halted, and have waited
during all the later ones, which are therefore acts of the innermost hook or of runs inside it. -/
structure Waits (hosted : Hosted) (waiting : List Pending) (earlier later : List Act) : Prop where
  called : (hosted.actAll earlier).pending = waiting
  running : (hosted.actAll earlier).machine.halted = false
  since : ∀ front, front <+: later → waiting <:+ (hosted.actAll (earlier ++ front)).pending

theorem Waits.append_single {waiting : List Pending} {earlier later : List Act} {last : Act}
    (waits : hosted.Waits waiting earlier later)
    (still : waiting <:+ (hosted.actAll (earlier ++ later ++ [last])).pending) :
    hosted.Waits waiting earlier (later ++ [last]) where
  called := waits.called
  running := waits.running
  since := fun front within => by
    rcases List.prefix_concat_iff.mp within with rfl | before
    · rwa [← List.append_assoc]
    · exact waits.since front before

/-- Runs that wait have begun to wait at some time. -/
theorem exists_waits {waiting : List Pending} (unasked : hosted.pending = [])
    (something : waiting ≠ []) (waits : waiting <:+ (hosted.actAll acts).pending) :
    ∃ earlier later, acts = earlier ++ later ∧ hosted.Waits waiting earlier later := by
  induction acts using List.reverseRecOn with
  | nil =>
    rw [actAll, List.foldl_nil, unasked] at waits
    exact absurd (List.suffix_nil.mp waits) something
  | append_singleton acts last inductionHypothesis =>
    have goesOn (waited : waiting <:+ (hosted.actAll acts).pending) :
        ∃ earlier later, acts ++ [last] = earlier ++ later ∧ hosted.Waits waiting earlier later := by
      obtain ⟨earlier, later, rfl, before⟩ := inductionHypothesis waited
      exact ⟨earlier, later ++ [last], List.append_assoc _ _ _, before.append_single waits⟩
    have behind := hosted.actAll_append_single acts last
    rw [behind] at waits
    rcases (hosted.actAll acts).pending_act last with fewer | ⟨running, run, outer, pending, older⟩
    · exact goesOn (waits.trans fewer)
    · rw [pending] at waits
      rcases List.suffix_cons_iff.mp waits with rfl | outside
      · refine ⟨acts ++ [last], [], (List.append_nil _).symm, ?_, ?_, fun front within => ?_⟩
        · exact behind ▸ pending
        · rwa [behind]
        · have waiting := congrArg Hosted.pending behind
          rw [List.prefix_nil.mp within, List.append_nil]
          exact waiting.trans pending ▸ List.suffix_refl _
      · exact goesOn (outside.trans older)

end Hosted

/-! ### Watched runs -/

/-- A hook answers some calls, one after the other, each for what it is called with, and so gets from
the first result to the last one. -/
inductive Hosted.Answers : Hosted × Response → List Call → Hosted × Response → Prop
  | done (result : Hosted × Response) : Answers result [] result
  | call (hosted : Hosted) (call : Call) {calls : List Call} {last : Hosted × Response}
      (goesOn : Answers (hosted.act (.answer call.goesOn)) calls last) :
      Answers (hosted, .called call.pc call.opcode) (call :: calls) last

section

variable {Notes : Type} (look : Notes → Machine → UInt8 → UInt8 → Notes × Bool)

/-- A machine in use, in the midst of a watched run. -/
def Run.hosted (printed : String) (outer : List Pending) (run : Run Notes) : Hosted :=
  ⟨run.machine, printed ++ run.printed, outer⟩

/-- A run that may still execute an instruction is not exhausted. -/
theorem Pending.exhausted_eq_false {limit : Option Int} {steps count : Nat}
    (allowed : ∀ bound, limit = some bound → steps + (count + 1) = bound.toNat) :
    (Pending.mk limit steps).exhausted = false := by
  cases limit with
  | none => rfl
  | some bound =>
    have more := allowed bound rfl
    have outside : ¬bound ≤ steps := by omega
    exact decide_eq_false outside

namespace Run

variable (printed : String) (outer : List Pending) (limit : Option Int)

theorem turn_hosted_of_halted {run : Run Notes} (halted : run.machine.halted = true) :
    (run.hosted printed outer).turn ⟨limit, run.steps⟩ =
      (run.hosted printed outer, .ended .stopped run.steps) := by
  rw [Hosted.turn, show (run.hosted printed outer).machine.halted = true from halted, if_pos rfl]

theorem turn_hosted_of_running {run : Run Notes} (running : run.machine.halted = false)
    (within : (Pending.mk limit run.steps).exhausted = false) :
    (run.hosted printed outer).turn ⟨limit, run.steps⟩ =
      (⟨run.machine, printed ++ run.printed, ⟨limit, run.steps⟩ :: outer⟩,
        .called run.machine.pc run.machine.fetched) := by
  rw [Hosted.turn, show (run.hosted printed outer).machine.halted = false from running,
    if_neg Bool.false_ne_true, within, if_neg Bool.false_ne_true]
  rfl

/-- A run with a hook that answers as a watcher does is the watched run. -/
theorem answers_upTo (count : Nat) (run : Run (Diary Notes))
    (allowed : ∀ bound, limit = some bound → run.steps + count = bound.toNat)
    (ended : limit = none → (run.upTo (Watcher.seeing look).recorded count).2 ≠ .stepLimit) :
    ∃ calls, (run.upTo (Watcher.seeing look).recorded count).1.notes.calls =
        run.notes.calls ++ calls ∧
      Hosted.Answers ((run.hosted printed outer).turn ⟨limit, run.steps⟩) calls
        ((run.upTo (Watcher.seeing look).recorded count).1.hosted printed outer,
          .ofOutcome (run.upTo (Watcher.seeing look).recorded count).1.steps
            (run.upTo (Watcher.seeing look).recorded count).2) := by
  induction count generalizing run with
  | zero =>
    refine ⟨[], (List.append_nil _).symm, ?_⟩
    rw [upTo] at ended ⊢
    cases halted : run.machine.halted with
    | true =>
      rw [turn_hosted_of_halted printed outer limit halted]
      exact .done _
    | false =>
      rw [halted] at ended
      cases limit with
      | none => exact absurd rfl (ended rfl)
      | some bound =>
        have last := allowed bound rfl
        have reached : bound ≤ run.steps := by omega
        have exhausted : (Pending.mk (some bound) run.steps).exhausted = true :=
          decide_eq_true reached
        rw [Hosted.turn, show (run.hosted printed outer).machine.halted = false from halted,
          if_neg Bool.false_ne_true, exhausted, if_pos rfl]
        exact .done _
  | succ count inductionHypothesis =>
    rw [upTo] at ended ⊢
    generalize turned : run.turn (Watcher.seeing look).recorded = result at ended ⊢
    cases turned ▸ turns_turn (Watcher.seeing look).recorded run with
    | stopped halted =>
      rw [turn_hosted_of_halted printed outer limit halted]
      exact ⟨[], (List.append_nil _).symm, .done _⟩
    | paused running refused =>
      rw [turn_hosted_of_running printed outer limit running (Pending.exhausted_eq_false allowed)]
      exact ⟨_, calls_of_ask refused, .call _ (run.machine.called false) (.done _)⟩
    | faulted running permitted unknown =>
      rw [turn_hosted_of_running printed outer limit running (Pending.exhausted_eq_false allowed)]
      rw [run.machine.step_of_running running] at unknown
      refine ⟨_, calls_of_ask permitted, .call _ (run.machine.called true) ?_⟩
      show Hosted.Answers (Hosted.goOn _ _) [] _
      rw [Hosted.goOn]
      simp only [unknown]
      exact .done _
    | @executed notes next text running permitted executed =>
      rw [turn_hosted_of_running printed outer limit running (Pending.exhausted_eq_false allowed)]
      rw [run.machine.step_of_running running] at executed
      obtain ⟨calls, recorded, answers⟩ := inductionHypothesis
        ⟨next, notes, run.printed ++ text, run.steps + 1⟩
        (fun bound same => (Nat.succ_add_eq_add_succ _ _).trans (allowed bound same)) ended
      refine ⟨run.machine.called true :: calls, ?_, .call _ (run.machine.called true) ?_⟩
      · rw [recorded]
        simp only [calls_of_ask permitted, List.append_assoc, List.singleton_append]
      · show Hosted.Answers (Hosted.goOn _ _) calls _
        rw [Hosted.goOn]
        simp only [executed]
        rw [hosted, ← String.append_assoc] at answers
        exact answers

end Run

/-- What is told of a run that ended within its limit does not depend on the limit. -/
theorem Response.ofOutcome_told {limit : Option Int} {outcome : Outcome}
    (ended : limit = none → outcome ≠ .stepLimit) (steps : Nat) :
    Response.ofOutcome steps (outcome.told limit) = .ofOutcome steps outcome := by
  cases limit with
  | some limit => rfl
  | none =>
    cases outcome with
    | stepLimit => exact absurd rfl (ended rfl)
    | _ => rfl

theorem Hosted.answers_recorded (hosted : Hosted) (notes : Notes) (limit : Option Int)
    (ended : (hosted.machine.run (Watcher.seeing look).recorded ⟨notes, []⟩ limit).2 ≠ .endless) :
    Hosted.Answers (hosted.act (.run limit))
      (hosted.machine.run (Watcher.seeing look).recorded ⟨notes, []⟩ limit).1.notes.calls
      ((hosted.machine.run (Watcher.seeing look).recorded ⟨notes, []⟩ limit).1.hosted
          hosted.printed hosted.pending,
        .ofOutcome (hosted.machine.run (Watcher.seeing look).recorded ⟨notes, []⟩ limit).1.steps
          (hosted.machine.run (Watcher.seeing look).recorded ⟨notes, []⟩ limit).2) := by
  rw [Machine.run_eq] at ended ⊢
  have limited : ∀ bound, limit = some bound → 0 + Run.allowance limit = bound.toNat := by
    rintro bound rfl
    exact Nat.zero_add _
  have within : limit = none → ((Run.start hosted.machine ⟨notes, []⟩).upTo
      (Watcher.seeing look).recorded (Run.allowance limit)).2 ≠ .stepLimit := by
    rintro rfl reached
    exact ended (by rw [reached]; rfl)
  obtain ⟨calls, recorded, answers⟩ := Run.answers_upTo look hosted.printed hosted.pending limit
    (Run.allowance limit) (Run.start hosted.machine ⟨notes, []⟩) limited within
  have begun : (Run.start hosted.machine (⟨notes, []⟩ : Diary Notes)).hosted hosted.printed
      hosted.pending = hosted :=
    congrArg (Hosted.mk hosted.machine · hosted.pending) String.append_empty
  rw [begun] at answers
  rw [recorded, Response.ofOutcome_told within]
  exact answers

/-- A run that is begun with such a hook ends as the watched run does, and its hook is called as the
watcher is. -/
theorem Hosted.answers_run (hosted : Hosted) (notes : Notes) (limit : Option Int)
    (ended : (hosted.machine.run (.seeing look) notes limit).2 ≠ .endless) :
    Hosted.Answers (hosted.act (.run limit))
      (hosted.machine.run (Watcher.seeing look).recorded ⟨notes, []⟩ limit).1.notes.calls
      (⟨(hosted.machine.run (.seeing look) notes limit).1.machine,
        hosted.printed ++ (hosted.machine.run (.seeing look) notes limit).1.printed,
        hosted.pending⟩,
        .ofOutcome (hosted.machine.run (.seeing look) notes limit).1.steps
          (hosted.machine.run (.seeing look) notes limit).2) := by
  rw [hosted.machine.run_eq_recorded (.seeing look) notes limit] at ended ⊢
  exact hosted.answers_recorded look notes limit ended

end

/-! ### Any acts in any order -/

/-- A host writes a stop into cell zero, steps, and assigns the accumulator afterwards. -/
example :
    let hosted := (Hosted.start (.ofMemory .zero)).actAll
      [.operate (.change (.write (-256) 0x150)), .operate (.change (.pc 512)), .operate .step,
        .operate (.change (.acc (-1)))]
    hosted.machine.halted = true ∧ hosted.machine.pc = 0 ∧ hosted.machine.acc = 0xFF := by
  decide

/-- A hook steps onto the stop itself, moves the program counter and lets its run go on: the store
there is executed, though the machine has halted. -/
example :
    let memory := (Memory.zero.load [0x50] 0x00).load [0x13, 0x2A, 0x80] 0x10
    let hosted := (Hosted.start (.ofMemory memory)).actAll
      [.run none, .operate .step, .operate (.change (.pc 0x10)), .answer true]
    hosted.machine.halted = true ∧ hosted.machine.pc = 0x13 ∧
      hosted.machine.memory.read 0x80 = 0x2A ∧ hosted.pending = [] := by
  decide

end Octet
