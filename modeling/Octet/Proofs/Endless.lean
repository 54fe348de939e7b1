/-
This file shows that the machine of a run that is said to be endless executes on
and on. Such a run has executed as many instructions as there are states in
which a machine has not halted, and has not halted yet. So it was in some state
twice, and whatever it has executed since the first time it executes again and
again. Neither a stop nor a fault lies ahead of it.
-/

import Mathlib.Data.FinEnum
import Mathlib.Data.Fintype.BigOperators
import Mathlib.Data.Fintype.Pigeonhole
import Octet.Proofs.Runs

namespace Octet

/-! ### States -/

/-- What tells a machine that has not halted from another one: the registers and all cells. -/
def Machine.configuration (machine : Machine) : UInt8 × UInt8 × (UInt8 → UInt8) :=
  (machine.pc, machine.acc, machine.memory.get)

/-- A memory is told from another one by its cells. -/
theorem Memory.eq_of_get_eq {first second : Memory} (same : first.get = second.get) :
    first = second := by
  obtain ⟨firstCells⟩ := first
  obtain ⟨secondCells⟩ := second
  refine congrArg Memory.mk (Vector.ext fun index inside => ?_)
  have cell : (UInt8.ofNat index).toNat = index := UInt8.toNat_ofNat_of_lt' inside
  have held := congrFun same (.ofNat index)
  simpa only [Memory.get, cell] using held

theorem Machine.eq_of_configuration_eq {first second : Machine}
    (running : first.halted = false) (alsoRunning : second.halted = false)
    (same : first.configuration = second.configuration) : first = second := by
  obtain ⟨firstMemory, _, _, _⟩ := first
  obtain ⟨secondMemory, _, _, _⟩ := second
  obtain ⟨pc, rest⟩ := Prod.mk.inj same
  obtain ⟨acc, cells⟩ := Prod.mk.inj rest
  have memory : firstMemory = secondMemory := Memory.eq_of_get_eq cells
  simp only at running alsoRunning pc acc
  rw [memory, pc, acc, running, alsoRunning]

theorem card_byte : Fintype.card UInt8 = 2 ^ 8 :=
  (Fintype.card_congr
    (⟨UInt8.toFin, UInt8.ofFin, fun _ => rfl, fun _ => rfl⟩ : UInt8 ≃ Fin 256)).trans
      (Fintype.card_fin 256)

/-- The power is too large to be evaluated, and so its exponent is kept apart. -/
theorem Run.stateCount_eq {exponent : Nat} (whole : 8 * 258 = exponent) :
    Run.stateCount = 2 ^ exponent := by
  unfold Run.stateCount
  rw [whole]
  rfl

/-- A run without a limit is allowed as many instructions as it takes bits to tell the states apart,
and many more. -/
theorem Run.le_allowance {least : Nat} (small : least ≤ 8 * 258) {limit : Option Int}
    (allowed : ∀ count, limit = some count → (least : Int) ≤ count) :
    least ≤ Run.allowance limit := by
  cases limit with
  | some count =>
    have within := allowed count rfl
    show least ≤ count.toNat
    omega
  | none =>
    rw [Run.allowance]
    generalize whole : 8 * 258 = exponent at small
    rw [Run.stateCount_eq whole]
    exact Nat.le_of_lt (Nat.lt_of_le_of_lt small Nat.lt_two_pow_self)

/-- There are as many states as the unlimited run allows instructions. -/
theorem card_configuration : Fintype.card (UInt8 × UInt8 × (UInt8 → UInt8)) = Run.stateCount := by
  rw [Fintype.card_prod, Fintype.card_prod, Fintype.card_fun, card_byte, ← pow_mul, ← pow_add,
    ← pow_add]
  generalize whole : 8 + (8 + 8 * 2 ^ 8) = exponent
  exact (Run.stateCount_eq whole).symm

/-! ### Executing on and on -/

namespace Machine

variable {machine : Machine}

/-- A machine executes another instruction behind so many calls. -/
def ExecutesAt (machine : Machine) (calls : Nat) : Prop :=
  (machine.stepped calls).machine.halted = false ∧
    ∃ next, (machine.stepped calls).machine.step = .ok next

/-- If a machine has executed an instruction at every call, it has met no fault. -/
theorem sound_of_executes {calls : Nat}
    (busy : ∀ earlier < calls, machine.ExecutesAt earlier) :
    (machine.stepped calls).steps = calls ∧ (machine.stepped calls).fault = none := by
  induction calls with
  | zero => exact ⟨rfl, rfl⟩
  | succ calls inductionHypothesis =>
    obtain ⟨steps, sound⟩ := inductionHypothesis fun earlier before =>
      busy earlier (Nat.lt_succ_of_lt before)
    obtain ⟨running, next, executed⟩ := busy calls (Nat.lt_succ_self calls)
    have called : machine.stepped (calls + 1) =
        ⟨next.1, (machine.stepped calls).printed ++ next.2, (machine.stepped calls).steps + 1,
          none⟩ := by
      rw [stepped, Progress.call, running, sound, Option.isSome_none, Bool.or_false,
        if_neg Bool.false_ne_true]
      simp only [executed]
    rw [called]
    exact ⟨congrArg (· + 1) steps, rfl⟩

/-- From the same machine the same is reached. -/
theorem machine_stepped_add {first second : Nat}
    (soundFirst : (machine.stepped first).fault = none)
    (soundSecond : (machine.stepped second).fault = none)
    (same : (machine.stepped first).machine = (machine.stepped second).machine) (more : Nat) :
    (machine.stepped (first + more)).machine = (machine.stepped (second + more)).machine := by
  rw [stepped_add rfl soundFirst, stepped_add rfl soundSecond, same]

/-- A machine that comes back to where it was executes on and on. -/
theorem executesAt_of_repeat {first second : Nat} (before : first < second)
    (busy : ∀ earlier < second, machine.ExecutesAt earlier)
    (same : (machine.stepped first).machine = (machine.stepped second).machine) (calls : Nat) :
    machine.ExecutesAt calls := by
  have soundSecond := (sound_of_executes busy).2
  have soundFirst := (sound_of_executes fun earlier early =>
    busy earlier (Nat.lt_trans early before)).2
  induction calls using Nat.strongRecOn with
  | ind calls inductionHypothesis =>
    by_cases early : calls < second
    · exact busy calls early
    · obtain ⟨more, rfl⟩ := Nat.exists_eq_add_of_le (Nat.le_of_not_lt early)
      have again := inductionHypothesis (first + more) (Nat.add_lt_add_right before more)
      rwa [ExecutesAt, machine_stepped_add soundFirst soundSecond same more] at again

/-- Among as many calls as there are states, and one more, the machine is the same twice. -/
theorem exists_repeat (running : ∀ calls ≤ Run.stateCount,
    (machine.stepped calls).machine.halted = false) :
    ∃ first second, first < second ∧ second ≤ Run.stateCount ∧
      (machine.stepped first).machine = (machine.stepped second).machine := by
  have more : Fintype.card (UInt8 × UInt8 × (UInt8 → UInt8)) <
      Fintype.card (Fin (Run.stateCount + 1)) := by
    rw [card_configuration, Fintype.card_fin]
    exact Nat.lt_succ_self _
  obtain ⟨one, other, different, same⟩ := Fintype.exists_ne_map_eq_of_card_lt
    (fun calls : Fin (Run.stateCount + 1) => (machine.stepped calls).machine.configuration) more
  have oneLe := Nat.le_of_lt_succ one.isLt
  have otherLe := Nat.le_of_lt_succ other.isLt
  have equal := eq_of_configuration_eq (running one oneLe) (running other otherLe) same
  rcases Nat.lt_or_gt_of_ne (Fin.val_ne_of_ne different) with before | behind
  · exact ⟨one, other, before, otherLe, equal⟩
  · exact ⟨other, one, behind, oneLe, equal.symm⟩

/-- A run that is said to be endless has no limit, and the machine executes an instruction at every
call of a caller who steps it by hand. -/
theorem executesAt_of_endless {Notes : Type} {watcher : Watcher Notes} {notes : Notes}
    {limit : Option Int} (endless : (machine.run watcher notes limit).2 = .endless) :
    limit = none ∧ ∀ calls, machine.ExecutesAt calls := by
  have fits := Run.start_fits watcher machine notes (Run.allowance limit)
  have tracks := Run.upTo_tracks watcher machine (Run.allowance limit) (Run.start machine notes) rfl
  rw [run_eq] at endless
  simp only at endless
  generalize ((Run.start machine notes).upTo watcher (Run.allowance limit)).1 = run at fits tracks
  generalize ((Run.start machine notes).upTo watcher (Run.allowance limit)).2 = outcome at *
  cases outcome with
  | stepLimit =>
    cases limit with
    | some limit => cases endless
    | none =>
      obtain ⟨running, steps⟩ := fits
      rw [show Run.allowance none = Run.stateCount from rfl] at steps
      rw [steps] at tracks
      have whole : (machine.stepped Run.stateCount).steps = Run.stateCount := by
        rw [tracks]
        exact steps
      have busy : ∀ earlier < Run.stateCount, machine.ExecutesAt earlier :=
        fun earlier before => (executes_of_steps_eq whole before).2
      obtain ⟨first, second, before, within, same⟩ := exists_repeat fun calls within => by
        rcases Nat.lt_or_eq_of_le within with less | rfl
        · exact (busy calls less).1
        · rw [tracks]
          exact running
      exact ⟨rfl, executesAt_of_repeat before
        (fun earlier early => busy earlier (Nat.lt_of_lt_of_le early within)) same⟩
  | endless => exact fits.elim
  | _ => cases limit <;> cases endless

end Machine

end Octet
