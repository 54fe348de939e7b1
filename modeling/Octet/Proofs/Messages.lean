/-
This file shows that a text which is written into a program is printed as it is.
The source prints from a label and stops; behind the label it lays down one byte
for the length of the text and then the bytes of its encoding. However these
bytes are spelled, the source assembles, and a machine prints exactly the text
and a line feed.

The text may have as many bytes as leave room for three bytes of code and one
for the length. Then the program fills the memory to its last cell, and the
length of the text is still a byte.
-/

import Octet.Assembly.Session
import Octet.Proofs.Decoding
import Octet.Proofs.Endless
import Octet.Proofs.Meaning
import Octet.Proofs.Memory
import Octet.Proofs.Utf8

namespace Octet

open Character

/-! ### Texts in memory -/

/-- A text as a machine prints it: its encoding, with a byte for the length in front. -/
def Utf8.counted (text : String) : List UInt8 :=
  .ofNat (encode text).length :: encode text

/-- A text that was loaded is read back if the load does not come around to it again. -/
theorem Memory.textAt_load (memory : Memory) (front back : List UInt8) (text : String)
    (address : Int) (fits : (Utf8.counted text ++ back).length ≤ memorySize) :
    (memory.load (front ++ (Utf8.counted text ++ back)) address).textAt (address + front.length) =
      text := by
  have bound : (Utf8.counted text ++ back).length ≤ 256 := fits
  rw [List.length_append, Utf8.counted, List.length_cons] at bound
  have small : (UInt8.ofNat (Utf8.encode text).length).toNat = (Utf8.encode text).length := by
    rw [UInt8.toNat_ofNat']
    exact Nat.mod_eq_of_lt (by omega)
  have whole := memory.block_load front (Utf8.counted text) back address fits
  generalize memory.load (front ++ (Utf8.counted text ++ back)) address = loaded at whole ⊢
  rw [Utf8.counted, List.length_cons, Nat.add_comm, block_add] at whole
  obtain ⟨count, bytes⟩ := List.cons.inj whole
  have count : loaded.read (address + front.length) = .ofNat (Utf8.encode text).length := by
    simpa using count
  rw [textAt, count, small]
  exact (congrArg Utf8.decodeLossy bytes).trans (Utf8.decodeLossy_encode text)

/-- A text that lies in a program is read from there. -/
theorem Memory.textAt_load_program (front back : List UInt8) (text : String)
    (fits : (front ++ (Utf8.counted text ++ back)).length ≤ memorySize) :
    (zero.load (front ++ (Utf8.counted text ++ back)) 0).textAt front.length = text := by
  rw [List.length_append] at fits
  have held := zero.textAt_load front back text 0 (Nat.le_of_add_left_le fits)
  rwa [Int.zero_add] at held

/-! ### Printing and stopping -/

/-- A machine that is about to print, with a stop behind that, prints the text once and stops. -/
theorem Machine.run_of_print_stop {machine : Machine} (running : machine.halted = false)
    (prints : machine.fetched = Opcode.print.byte)
    (stops : machine.memory.get (machine.pc + 2) = Opcode.stop.byte) {limit : Option Int}
    (allowed : ∀ count, limit = some count → 2 ≤ count) :
    machine.run .blind () limit =
      (⟨{ machine with pc := machine.pc + 2, halted := true }, (),
          machine.memory.textAt (machine.operand 1).toNat ++ "\n", 2⟩, .stopped) := by
  let printed := machine.memory.textAt (machine.operand 1).toNat ++ "\n"
  let halted : Machine := { machine with pc := machine.pc + 2, halted := true }
  have first : machine.stepped 1 = ⟨machine.advance 2, printed, 1, none⟩ := by
    simp only [stepped, Progress.call, running, machine.step_of_fetched running prints]
    exact congrArg (Progress.mk _ · 1 none) String.empty_append
  have second : machine.stepped 2 = ⟨halted, printed, 2, none⟩ := by
    have still : (machine.advance 2).halted = false := running
    have executed := (machine.advance 2).step_of_fetched still stops
    rw [stepped, first]
    simp only [Progress.call, still, executed]
    exact congrArg (Progress.mk _ · 2 none) String.append_empty
  have least : 2 ≤ Run.allowance limit := Run.le_allowance (by decide) allowed
  have ended : machine.runFor (Run.allowance limit) = (⟨halted, (), printed, 2⟩, .stopped) :=
    machine.runFor_eq second ⟨rfl, least⟩ Outcome.noConfusion
  have turned : (Run.start machine ()).upTo .blind (Run.allowance limit) =
      (⟨halted, (), printed, 2⟩, .stopped) := ended
  rw [run_eq, turned]
  cases limit <;> rfl

/-! ### The source -/

/-- A line that lays down a byte: it has any hexadecimal digits that make the byte. -/
def LaysDown (line : String) (byte : UInt8) : Prop :=
  ∃ digits : List Char, digits ≠ [] ∧ (∀ digit ∈ digits, isHexDigit digit = true) ∧
    hexValue digits = byte.toNat ∧ line = ".byte $" ++ String.ofList digits

/-- A program that prints from a label behind it, and stops. -/
def Statement.printing : List Statement :=
  [.instruction ⟨.print, [⟨.label "msg", none, false⟩], by decide⟩,
    .instruction ⟨.stop, [], by decide⟩, .label "msg" none]

/-- The lines of a source that prints what some lines lay down, and stops. -/
def printingLines (lines : List String) : List String :=
  ["print msg", "stop", ".msg:"] ++ lines

/-- What such a source is assembled to. -/
def printingCode (bytes : List UInt8) : List UInt8 :=
  [Opcode.print.byte, 3, Opcode.stop.byte] ++ bytes

section

variable {line : String} {byte : UInt8} {lines : List String} {bytes : List UInt8}

theorem LaysDown.scans (lays : LaysDown line byte) :
    Scans line.toList (Statement.byte byte.toNat).tokens := by
  obtain ⟨digits, something, hexadecimal, made, rfl⟩ := lays
  have small : hexValue digits ≤ 255 := made ▸ Nat.le_of_lt_succ byte.toNat_lt
  have literal := Scans.digits something hexadecimal small parted_nil .nil
  rw [made, List.append_nil] at literal
  have spelled : (String.ofList digits).toList = digits := String.toList_ofList
  rw [String.toList_append, spelled]
  exact .token .dot trivial (fun word => by cases word)
    (.token (.identifier "byte") isName_byte (fun _ => parted_space _)
      (.blank isBlank_space literal))

theorem LaysDown.lineFeed_not_mem (lays : LaysDown line byte) : '\n' ∉ line.toList := by
  obtain ⟨digits, _, hexadecimal, _, rfl⟩ := lays
  have spelled : (String.ofList digits).toList = digits := String.toList_ofList
  rw [String.toList_append, spelled, List.mem_append, not_or]
  refine ⟨by decide, fun member => ?_⟩
  exact absurd (hexadecimal '\n' member) (by decide)

theorem lineFeed_not_mem_lines (lays : List.Forall₂ LaysDown lines bytes) :
    ∀ line ∈ lines, '\n' ∉ line.toList := by
  induction lays with
  | nil => exact fun _ none => absurd none List.not_mem_nil
  | cons first _ inductionHypothesis =>
    exact List.forall_mem_cons.mpr ⟨first.lineFeed_not_mem, inductionHypothesis⟩

/-- Lines that lay down bytes spell the directives for them. -/
theorem spells_bytes (lays : List.Forall₂ LaysDown lines bytes) :
    Spells (lines.map String.toList) (bytes.map fun byte => .byte byte.toNat) := by
  induction lays with
  | nil => exact .nil
  | cons first _ inductionHypothesis => exact .line first.scans trivial inductionHypothesis

theorem spellable_printing : ∀ statement ∈ Statement.printing, statement.Spellable := by
  have name : IsName "msg" := by decide +kernel
  refine List.forall_mem_cons.mpr ⟨⟨?_, ?_⟩, List.forall_mem_cons.mpr ⟨⟨?_, ?_⟩,
    List.forall_mem_singleton.mpr ⟨?_, ?_⟩⟩⟩
  · exact List.forall_mem_cons.mpr ⟨isName_mnemonic .print, List.forall_mem_singleton.mpr name⟩
  · exact List.forall_mem_singleton.mpr fun bracketed => nomatch bracketed
  · exact List.forall_mem_singleton.mpr (isName_mnemonic .stop)
  · exact fun _ none => absurd none List.not_mem_nil
  · exact List.forall_mem_cons.mpr ⟨trivial, List.forall_mem_cons.mpr ⟨name,
      List.forall_mem_singleton.mpr trivial⟩⟩
  · trivial

/-- A source that prints what some lines lay down says so, with or without a line feed at the
end. -/
theorem spells_printing (lays : List.Forall₂ LaysDown lines bytes) {source : String}
    (written : source = "\n".intercalate (printingLines lines) ∨
      source = "\n".intercalate (printingLines lines) ++ "\n") :
    Spells (source.toList.splitOn '\n')
      (Statement.printing ++ bytes.map fun byte => .byte byte.toNat) := by
  have shown : Statement.printing.map Statement.text = ["print msg", "stop", ".msg:"] := by
    decide +kernel
  have whole : ∀ line ∈ printingLines lines, '\n' ∉ line.toList :=
    List.forall_mem_append.mpr ⟨by decide, lineFeed_not_mem_lines lays⟩
  have filled : printingLines lines ≠ [] := List.cons_ne_nil _ _
  have spells : Spells ((printingLines lines).map String.toList)
      (Statement.printing ++ bytes.map fun byte => .byte byte.toNat) := by
    rw [printingLines, List.map_append, ← shown]
    refine (Spells.shown _ _ fun statement member => ?_).append (spells_bytes lays)
    have spellable := spellable_printing statement member
    exact ⟨spellable.bracketed, spellable.scans⟩
  rcases written with rfl | rfl
  · rwa [splitOn_intercalate _ filled whole]
  · rw [splitOn_lines _ filled whole, ← List.append_nil (Statement.printing ++ _)]
    exact spells.append (.idle Scans.nil .nil)

/-! ### The code -/

section

variable {program : Program}
  (meaning : program.Says (Statement.printing ++ bytes.map fun byte => .byte byte.toNat))

include meaning

/-- The label is bound behind the code. -/
theorem operands_printing : [(⟨.label "msg", none, false⟩ : Arg)].mapM
    (Arg.byte? (Image.ofProgram program).labels.address?) = some [3] := by
  have first := Statement.boundFrom?_first "msg" 0 (Statement.printing.take 2)
    (bytes.map fun byte => .byte byte.toNat) (.label "msg" none) rfl (by decide)
  have bound : (Image.ofProgram program).labels.address? "msg" = some 3 :=
    (meaning.address? "msg").trans first
  simp only [List.mapM_cons, List.mapM_nil, Arg.byte?, bound]
  rfl

theorem code_printing : (Image.ofProgram program).code = printingCode bytes := by
  have front : Statement.code (Image.ofProgram program).labels.address? Statement.printing =
      [Opcode.print.byte, 3, Opcode.stop.byte] := by
    simp only [Statement.code, Statement.printing, List.flatMap_cons, List.flatMap_nil,
      Statement.bytes, operands_printing meaning]
    rfl
  rw [meaning.code, Statement.code, List.flatMap_append]
  exact congr (congrArg HAppend.hAppend front) (Decoded.code_bytes _ bytes)

/-- Nothing but the size can be wrong with the program. -/
theorem diagnostics_printing :
    (Image.ofProgram program).diagnostics = Image.oversize program := by
  refine meaning.diagnostics ?_ (List.forall_mem_append.mpr ⟨?_, ?_⟩)
  · have unnamed : (bytes.map fun byte => Statement.byte byte.toNat).filterMap
        Statement.defined? = [] := by
      rw [List.filterMap_map]
      exact List.filterMap_eq_nil_iff.mpr fun _ _ => rfl
    rw [List.filterMap_append, unnamed]
    exact List.nodup_singleton "msg"
  · exact List.forall_mem_cons.mpr ⟨⟨_, operands_printing meaning⟩,
      List.forall_mem_cons.mpr ⟨⟨_, rfl⟩, List.forall_mem_singleton.mpr trivial⟩⟩
  · intro statement member
    obtain ⟨byte, _, rfl⟩ := List.mem_map.mp member
    trivial

/-- If there is room for the bytes, encoding results in the code. -/
theorem result_printing (fits : (printingCode bytes).length ≤ memorySize) :
    (Image.ofProgram program).result = .ok (printingCode bytes) := by
  have code := code_printing meaning
  have size : program.size = (printingCode bytes).length := by
    rw [← code, Image.length_code_ofProgram]
  rw [Image.result_eq_ok_iff, diagnostics_printing meaning, Image.oversize, size, if_pos fits]
  exact ⟨rfl, code⟩

end

end

/-! ### The text is printed -/

/-- A text of at most 252 bytes is written into a program that prints it and stops. The program
assembles, and a machine prints the text and a line feed, however its bytes are spelled. -/
theorem assembled_text_is_printed (session : Session) (text : String)
    (fits : (Utf8.encode text).length ≤ 252) {lines : List String}
    (lays : List.Forall₂ LaysDown lines (Utf8.counted text)) {source : String}
    (written : source = "\n".intercalate (printingLines lines) ∨
      source = "\n".intercalate (printingLines lines) ++ "\n") :
    (session.assemble source).2 = .ok (printingCode (Utf8.counted text)) ∧
      ∃ machine, Machine.ofProgram (printingCode (Utf8.counted text)) = .ok machine ∧
        ∀ limit : Option Int, (∀ count, limit = some count → 2 ≤ count) →
          machine.run .blind () limit =
            (⟨{ machine with pc := 2, acc := 0, halted := true }, (), text ++ "\n", 2⟩,
              .stopped) := by
  obtain ⟨program, read, meaning⟩ := Program.ofSource_eq_ok source (spells_printing lays written)
  have length : (printingCode (Utf8.counted text)).length ≤ memorySize := by
    rw [printingCode, List.length_append, Utf8.counted, List.length_cons]
    show 3 + ((Utf8.encode text).length + 1) ≤ 256
    omega
  refine ⟨?_, _, Machine.ofProgram_of_length_le length, fun limit allowed => ?_⟩
  · rw [session.assemble_of_parsed read]
    exact result_printing meaning length
  · let machine := Machine.ofMemory (Memory.zero.load (printingCode (Utf8.counted text)) 0)
    have prints : machine.fetched = Opcode.print.byte := Memory.get_load_program _ length 0
    have operand : machine.operand 1 = 3 := Memory.get_load_program _ length 1
    have stops : machine.memory.get (machine.pc + 2) = Opcode.stop.byte :=
      Memory.get_load_program _ length 2
    have held : machine.memory.textAt (machine.operand 1).toNat = text := by
      have behind := Memory.textAt_load_program [Opcode.print.byte, 3, Opcode.stop.byte] [] text
        (by rwa [List.append_nil])
      rw [List.append_nil] at behind
      rw [operand]
      exact behind
    have ended := Machine.run_of_print_stop rfl prints stops allowed
    rw [held] at ended
    exact ended

/-- A character of two bytes, in lines with and without capitals and zeros in front. -/
theorem assembled_letter_is_printed :
    let lines := [".byte $2", ".byte $c3", ".byte $0A9"]
    let source := "print msg\nstop\n.msg:\n.byte $2\n.byte $c3\n.byte $0A9\n"
    (Utf8.encode "é").length ≤ 252 ∧ List.Forall₂ LaysDown lines (Utf8.counted "é") ∧
      source = "\n".intercalate (printingLines lines) ++ "\n" ∧
      (Session.fresh.assemble source).2 = .ok [0x40, 0x03, 0x50, 0x02, 0xC3, 0xA9] ∧
      ∃ machine, Machine.ofProgram [0x40, 0x03, 0x50, 0x02, 0xC3, 0xA9] = .ok machine ∧
        machine.run .blind () none =
          (⟨{ machine with pc := 2, acc := 0, halted := true }, (), "é\n", 2⟩, .stopped) := by
  intro lines source
  have fits : (Utf8.encode "é").length ≤ 252 := by decide
  have bytes : Utf8.counted "é" = [0x02, 0xC3, 0xA9] := by decide
  have lays : List.Forall₂ LaysDown lines (Utf8.counted "é") := by
    rw [bytes]
    exact .cons ⟨['2'], by decide, List.all_eq_true.mp rfl, rfl, by decide⟩
      (.cons ⟨['c', '3'], by decide, List.all_eq_true.mp rfl, rfl, by decide⟩
        (.cons ⟨['0', 'A', '9'], by decide, List.all_eq_true.mp rfl, rfl, by decide⟩ .nil))
  have written : source = "\n".intercalate (printingLines lines) ++ "\n" := by decide +kernel
  obtain ⟨assembled, machine, made, runs⟩ :=
    assembled_text_is_printed Session.fresh "é" fits lays (.inr written)
  rw [bytes] at assembled made
  exact ⟨fits, lays, written, assembled, machine, made, runs none fun _ none => nomatch none⟩

end Octet
