/-
This file shows that the tools lose nothing between them. A program that was
assembled, and written out as a source again with the help of its symbols,
assembles to the same bytes.

The source that the disassembler writes begins with a comment that tells the
name of the file. What else could do harm has been kept out of it: the names in
the symbol file are those of a program, so they hold no blank, and no two labels
have one name. The name of the file is the one text that comes from elsewhere;
a line break in it would end the comment, and what stands behind the break
would be read as a part of the program.
-/

import Octet.Proofs.RoundTrip
import Octet.Proofs.Symbols
import Octet.Proofs.Writing

namespace Octet

open Character

/-! ### What the disassembler writes -/

/-- Of nonempty lines the last character is that of some line. -/
theorem getLast?_intercalate {lines : List String} (something : lines ≠ [])
    (filled : ∀ line ∈ lines, line ≠ "") :
    ∃ line ∈ lines, ∃ c ∈ line.toList, ("\n".intercalate lines).toList.getLast? = some c := by
  induction lines with
  | nil => exact absurd rfl something
  | cons line rest inductionHypothesis =>
    rw [List.forall_mem_cons] at filled
    by_cases last : rest = []
    · subst last
      have visible : line.toList ≠ [] := fun empty => filled.1 (String.toList_eq_nil_iff.mp empty)
      refine ⟨line, List.mem_cons_self, _, List.getLast_mem visible, ?_⟩
      rw [String.intercalate_singleton, List.getLast?_eq_some_getLast]
    · obtain ⟨other, member, c, inside, ends⟩ := inductionHypothesis last filled.2
      refine ⟨other, List.mem_cons_of_mem _ member, c, inside, ?_⟩
      rw [String.intercalate_cons_of_ne_nil last, String.toList_append, List.getLast?_append, ends,
        Option.some_or]

/-- A text that does not end in a line feed comes out of the trimming as it was, with the line feed
behind it gone. -/
theorem dropWhile_lineFeed {text : List Char} {c : Char} (ends : text.getLast? = some c)
    (visible : c ≠ '\n') :
    ((text ++ ['\n']).reverse.dropWhile (· = '\n')).reverse = text := by
  have stays : text.reverse.dropWhile (· = '\n') = text.reverse := by
    refine dropWhile_eq_of_head fun first head => ?_
    rw [List.head?_reverse, ends] at head
    rw [← Option.some_inj.mp head]
    exact decide_eq_false visible
  rw [List.reverse_append, List.reverse_singleton, List.singleton_append,
    List.dropWhile_cons_of_pos (by decide), stays, List.reverse_reverse]

/-- No line for decoded bytes is empty. -/
theorem Decoded.statements_ne_empty {decoded : Decoded} {names labels : AddressNames}
    (whole : decoded.Whole)
    (proper : ∀ address name, labels.find? address = some name → IsName name) :
    ∀ line ∈ decoded.statements names labels, line ≠ "" := by
  intro line member empty
  rw [Decoded.statements_eq whole proper] at member
  rcases List.mem_append.mp member with labelled | body
  · obtain ⟨statement, listed, rfl⟩ := List.mem_map.mp labelled
    obtain ⟨name, rfl, _⟩ := Decoded.mem_labelMeant listed
    have front := (String.append_eq_empty_iff.mp (String.append_eq_empty_iff.mp empty).1).1
    exact absurd front (by decide)
  · obtain ⟨statement, _, rfl⟩ := List.mem_map.mp body
    exact absurd (String.append_eq_empty_iff.mp empty).1 (by decide)

/-- The comment in front of a source that was written for a file. -/
def sourceHead (path : String) : String :=
  "; Disassembly of " ++ Path.name path

theorem toList_sourceHead (path : String) :
    (sourceHead path).toList = "; Disassembly of ".toList ++ (Path.name path).toList :=
  String.toList_append

/-- The comment holds a break only if the name of the file does. -/
theorem break_not_mem_sourceHead {path : String} {c : Char} (breaks : IsBreak c)
    (unbroken : c ∉ (Path.name path).toList) : c ∉ (sourceHead path).toList := by
  have checked : ("; Disassembly of ".toList.all fun other => !isBlank other || other = ' ') =
      true := by
    decide
  rw [toList_sourceHead, List.mem_append, not_or]
  refine ⟨fun inside => ?_, unbroken⟩
  have visible := List.all_eq_true.mp checked c inside
  rw [breaks.1, decide_eq_false breaks.2] at visible
  cases visible

/-- The lines of a source for some data. -/
def sourceLines (names : AddressNames) (data : List UInt8) : List String :=
  let decoded := decodeAll 0 data
  decoded.flatMap (Decoded.statements names (chooseLabels names decoded))

section

variable {names : AddressNames} (data : List UInt8)
  (distinct : (names.map Prod.snd).Nodup) (proper : ∀ pair ∈ names, IsName pair.2)

include distinct proper

theorem chosen_proper : ∀ address name,
    (chooseLabels names (decodeAll 0 data)).find? address = some name → IsName name :=
  fun _ _ found => (usable_chooseLabels distinct proper (decodeAll 0 data)).proper _
    (AddressNames.mem_of_find? found)

/-- The lines of a source hold no break. -/
theorem break_not_mem_sourceLines {c : Char} (breaks : IsBreak c) :
    ∀ line ∈ sourceLines names data, c ∉ line.toList := by
  have single : ∀ pair ∈ names, c ∉ pair.2.toList := by
    intro pair member inside
    exact Bool.false_ne_true
      ((not_blank_of_isName (proper pair member) c inside).symm.trans breaks.1)
  intro line member
  obtain ⟨one, listed, written⟩ := List.mem_flatMap.mp member
  exact Decoded.break_not_mem_statements ((Decoded.covers_decodeAll 0 data).whole one listed)
    breaks single (chosen_proper data distinct proper) line written

/-- No line of a source is empty. -/
theorem sourceLines_ne_empty : ∀ line ∈ sourceLines names data, line ≠ "" := by
  intro line member
  obtain ⟨one, listed, written⟩ := List.mem_flatMap.mp member
  exact Decoded.statements_ne_empty ((Decoded.covers_decodeAll 0 data).whole one listed)
    (chosen_proper data distinct proper) line written

/-- A whole source holds a break only if the name of the file does. -/
theorem break_not_mem_source {path : String} {c : Char} (breaks : IsBreak c)
    (unbroken : c ∉ (Path.name path).toList) :
    ∀ line ∈ sourceHead path :: sourceLines names data, c ∉ line.toList :=
  List.forall_mem_cons.mpr ⟨break_not_mem_sourceHead breaks unbroken,
    break_not_mem_sourceLines data distinct proper breaks⟩

/-- The lines of a source spell what the data stands for. -/
theorem spells_sourceLines : Spells ((sourceLines names data).map String.toList)
    ((decodeAll 0 data).flatMap (Decoded.meant (chooseLabels names (decodeAll 0 data)))) :=
  Decoded.spells_all names (Decoded.covers_decodeAll 0 data).whole
    (chosen_proper data distinct proper)

variable {data}

/-- There is a line for data that is not empty. -/
theorem sourceLines_ne_nil (filled : data ≠ []) : sourceLines names data ≠ [] := by
  intro none
  have spells := spells_sourceLines data distinct proper
  have sizes := (Decoded.covers_decodeAll 0 data).sizes (chooseLabels names (decodeAll 0 data))
  rw [none] at spells
  generalize (decodeAll 0 data).flatMap _ = statements at spells sizes
  cases spells
  exact filled (List.length_eq_zero_iff.mp sizes.symm)

/-- The source that the disassembler writes is made of these lines. -/
theorem sourceOutput_eq (path : String) (filled : data ≠ []) :
    Tool.Disassemble.sourceOutput path names data =
      "\n".intercalate (sourceHead path :: sourceLines names data) ++ "\n" := by
  have something := sourceLines_ne_nil distinct proper filled
  obtain ⟨line, member, c, inside, ends⟩ :=
    getLast?_intercalate something (sourceLines_ne_empty data distinct proper)
  have visible : c ≠ '\n' := by
    rintro rfl
    exact break_not_mem_sourceLines data distinct proper isBreak_lineFeed line member inside
  have trimmed := dropWhile_lineFeed ends visible
  have written : sourceText names data true =
      "\n".intercalate (sourceLines names data) ++ "\n" := rfl
  have ending : "\n".toList = ['\n'] := by decide
  unfold Tool.Disassemble.sourceOutput sourceHead
  simp only [written, String.toList_append, ending, trimmed, String.ofList_toList,
    String.intercalate_cons_of_ne_nil something, String.append_assoc]

/-- The source that the disassembler writes is read back from its file, provided that the name of
the disassembled file holds no line break. -/
theorem sourceOutput_read_back {path : String} (filled : data ≠ [])
    (unbroken : '\r' ∉ (Path.name path).toList) :
    textOfFile (Utf8.encode (Tool.Disassemble.sourceOutput path names data)) =
      .ok (Tool.Disassemble.sourceOutput path names data) := by
  refine textOfFile_encode ?_
  rw [sourceOutput_eq distinct proper path filled, String.toList_append, List.mem_append, not_or]
  have whole := break_not_mem_source data distinct proper isBreak_return unbroken
  exact ⟨not_mem_intercalate _ _ (by decide) whole, by decide⟩

/-- The source that the disassembler writes for data that fits into the memory assembles to the
data, provided that the name of the disassembled file holds no line break. -/
theorem sourceOutput_restores {path : String} (filled : data ≠ [])
    (fits : data.length ≤ memorySize) (unbroken : '\n' ∉ (Path.name path).toList) :
    ∃ program,
      Program.ofSource (Tool.Disassemble.sourceOutput path names data) = .ok program ∧
      (Image.ofProgram program).result = .ok data := by
  have usable := usable_chooseLabels distinct proper (decodeAll 0 data)
  have whole := break_not_mem_source data distinct proper isBreak_lineFeed unbroken
  have head : Scans (sourceHead path).toList [] := by
    rw [toList_sourceHead]
    exact Scans.comment _
  obtain ⟨program, parsed, meaning⟩ := Program.ofSource_lines _ whole
    (.idle head (spells_sourceLines data distinct proper))
  rw [← sourceOutput_eq distinct proper path filled] at parsed
  refine ⟨program, parsed, ?_⟩
  rw [(meaning.restores (meaning.leads usable) usable.nodup_defined).2, if_pos fits]

end

/-! ### From the source to the binary and back -/

/-- A source that assembles to something is assembled with its symbols, the binary is written out
as a source with their help, and this source is assembled: all three tools succeed, and the second
binary is the first one. It takes that nothing is in the way of the tools, and that the name of the
first binary holds no line break.

That name is text, as all paths on a command line are here. A name with a byte in it that is no
UTF-8 is not: it would reach the comment of the source as a surrogate, and no source with one can be
written to a file. -/
theorem tools_restore_binary {tree : FileTree} {words backWords againWords : List String}
    {first again : Request Tool.Assemble.Switch} {back : Request Tool.Disassemble.Switch}
    {binary symbols written restored : Place} {content code : List UInt8} {source typed : String}
    (ready : Tool.Assemble.Ready tree words first binary)
    (read : tree.read first.path = .ok content) (text : textOfFile content = .ok source)
    (assembled : assemble source = .ok code) (filled : code ≠ [])
    (asked : first.value? .symbols = some typed) (filed : tree.Leads (Path.tidy typed) symbols)
    (readyBack : Tool.Disassemble.Ready tree backWords back binary symbols written)
    (unbroken : '\n' ∉ (Path.name back.path).toList ∧ '\r' ∉ (Path.name back.path).toList)
    (readyAgain : Tool.Assemble.Ready tree againWords again restored)
    (rereads : tree.locate again.path = .ok written) :
    let report := Tool.Assemble.run tree words
    let reportBack := Tool.Disassemble.run report.tree backWords
    let reportAgain := Tool.Assemble.run reportBack.tree againWords
    report.status = 0 ∧ reportBack.status = 0 ∧ reportAgain.status = 0 ∧
      report.tree.read (Tool.Assemble.binaryPath first) = .ok code ∧
      reportAgain.tree.read (Tool.Assemble.binaryPath again) = .ok code := by
  intro report reportBack reportAgain
  -- The assembler leaves the code and the symbols.
  obtain ⟨program, parsed, made⟩ := (assemble_eq_ok_iff source code).mp assembled
  obtain ⟨status, same, held, kept⟩ := Tool.Assemble.run_of_ready ready read text parsed made
  -- The disassembler leaves a source with the labels that the symbols give it.
  obtain ⟨table, distinct, proper⟩ := Program.names_read_back parsed
  obtain ⟨statusBack, sameBack, heldBack⟩ := Tool.Disassemble.run_of_ready
    (readyBack.of_same same) held filled (kept typed symbols asked filed) table
  have sameBoth := same.trans sameBack
  -- The assembler finds this source, and leaves what it restores.
  have readAgain := (FileTree.read_of_locate (sameBoth.locate rereads) heldBack).2
  have textAgain := sourceOutput_read_back distinct proper filled unbroken.2
  obtain ⟨programAgain, parsedAgain, madeAgain⟩ := sourceOutput_restores distinct proper filled
    (Image.length_of_result made) unbroken.1
  have readySecond := readyAgain.of_same sameBoth
  obtain ⟨statusAgain, sameAgain, heldAgain, _⟩ :=
    Tool.Assemble.run_of_ready readySecond readAgain textAgain parsedAgain madeAgain
  have found := (FileTree.read_of_locate (ready.leads.of_same same).found held).2
  have foundAgain :=
    (FileTree.read_of_locate (readySecond.leads.of_same sameAgain).found heldAgain).2
  exact ⟨status, statusBack, statusAgain, found, foundAgain⟩

/-- A loop with two names comes back, and so does a byte behind it that would begin another jump. -/
theorem tools_restore_loop :
    let source := ".top:\n.loop:\n    jmp loop\n.data:\n    .byte $20\n"
    let tree : FileTree := .ofFiles [] [("loop.t8", Utf8.encode source)]
    let report := Tool.Assemble.run tree ["-s", "loop.sym", "loop.t8"]
    let reportBack := Tool.Disassemble.run report.tree
      ["--source", "-s", "loop.sym", "-o", "again.t8", "loop.bin"]
    let reportAgain := Tool.Assemble.run reportBack.tree ["again.t8"]
    report.status = 0 ∧ reportBack.status = 0 ∧ reportAgain.status = 0 ∧
      report.tree.read "loop.bin" = .ok [0x20, 0x00, 0x20] ∧
      reportAgain.tree.read "again.bin" = .ok [0x20, 0x00, 0x20] := by
  intro source tree
  let first : Request Tool.Assemble.Switch := ⟨"loop.t8", [⟨.symbols, "loop.sym"⟩]⟩
  let back : Request Tool.Disassemble.Switch :=
    ⟨"loop.bin", [⟨.source, ""⟩, ⟨.symbols, "loop.sym"⟩, ⟨.output, "again.t8"⟩]⟩
  let again : Request Tool.Assemble.Switch := ⟨"again.t8", []⟩
  have filed : tree.Leads (Path.tidy "loop.sym") ["loop.sym"] :=
    ⟨by decide +kernel, by decide +kernel⟩
  have ready : Tool.Assemble.Ready tree ["-s", "loop.sym", "loop.t8"] first ["loop.bin"] := by
    refine ⟨⟨by decide +kernel, rfl⟩, rfl, ⟨by decide +kernel, by decide +kernel⟩, ?_⟩
    intro switch besides typed given
    rcases besides with rfl | rfl
    · cases given
    · cases given
      exact ⟨["loop.sym"], filed, by decide⟩
  have readyBack : Tool.Disassemble.Ready tree
      ["--source", "-s", "loop.sym", "-o", "again.t8", "loop.bin"] back
      ["loop.bin"] ["loop.sym"] ["again.t8"] :=
    ⟨⟨by decide +kernel, rfl⟩, rfl, fun _ given => (by cases given), by decide +kernel,
      ⟨"loop.sym", rfl, by decide +kernel⟩,
      ⟨"again.t8", rfl, by decide +kernel, by decide +kernel⟩⟩
  have readyAgain : Tool.Assemble.Ready tree ["again.t8"] again ["again.bin"] := by
    refine ⟨⟨by decide +kernel, rfl⟩, rfl, ⟨by decide +kernel, by decide +kernel⟩, ?_⟩
    intro switch besides typed given
    cases given
  have read : tree.read first.path = .ok (Utf8.encode source) := by decide +kernel
  have text : textOfFile (Utf8.encode source) = .ok source := textOfFile_encode (by decide)
  have assembled : assemble source = .ok [0x20, 0x00, 0x20] := by decide +kernel
  have unbroken : '\n' ∉ (Path.name back.path).toList ∧ '\r' ∉ (Path.name back.path).toList := by
    decide +kernel
  have rereads : tree.locate again.path = .ok ["again.t8"] := by decide +kernel
  have named : Tool.Assemble.binaryPath first = "loop.bin" := by decide +kernel
  have namedAgain : Tool.Assemble.binaryPath again = "again.bin" := by decide +kernel
  have restores := tools_restore_binary ready read text assembled (by decide) rfl filed readyBack
    unbroken readyAgain rereads
  rw [named, namedAgain] at restores
  exact restores

end Octet
