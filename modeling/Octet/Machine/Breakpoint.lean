/-
This file is a watcher that pauses a run at chosen places: before instructions
at some addresses, and before some instructions wherever they are. The first
few hits can be let pass. The watcher also notes what it was shown.
-/

import Octet.Machine.Run

namespace Octet

/-- Where to pause, and how many hits to let pass. -/
structure Breakpoints where
  addresses : List Int
  opcodes : List Int
  ignored : Int
deriving DecidableEq, Repr

/-- How often a breakpoint was hit, and the program counter and the byte of every instruction
that was shown, the latest first. -/
structure Sightings where
  hits : Nat
  calls : List (UInt8 × UInt8)
deriving DecidableEq, Repr

namespace Breakpoints

/-- Whether a run is to be paused before the instruction that is shown. -/
def hit (breakpoints : Breakpoints) (pc opcode : UInt8) : Bool :=
  breakpoints.addresses.contains pc.toNat || breakpoints.opcodes.contains opcode.toNat

/-- What is noted at a call, and whether the run may go on. -/
def look (breakpoints : Breakpoints) (sightings : Sightings) (_ : Machine) (pc opcode : UInt8) :
    Sightings × Bool :=
  let calls := (pc, opcode) :: sightings.calls
  if breakpoints.hit pc opcode then
    let hits := sightings.hits + 1
    (⟨hits, calls⟩, (hits : Int) ≤ breakpoints.ignored)
  else (⟨sightings.hits, calls⟩, true)

/-- The watcher that pauses at the breakpoints. -/
def watcher (breakpoints : Breakpoints) : Watcher Sightings :=
  .seeing breakpoints.look

end Breakpoints

end Octet
