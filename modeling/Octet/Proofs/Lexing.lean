/-
This file shows that what is spelled out is read again. The text of a token
scans to that token, provided that the token could stand in a program and that
nothing behind it would be taken for a part of it; and the text of a statement
scans to the tokens that it is spelled with. A blank at the end of a line
changes no token, and so it makes no difference whether a carriage return there
belongs to the line.

Spans depend on the place where scanning begins. The statements here leave that
place open and speak of the values of the tokens only.
-/

import Mathlib.Tactic.SplitIfs
import Octet.Assembly.Grammar
import Octet.Proofs.Characters
import Octet.Source.Line

namespace Octet

open Character

/-! ### What characters scan to -/

/-- Wherever they begin, some characters scan to tokens with the given values. -/
def Scans (text : List Char) (values : List Token) : Prop :=
  ∀ offset, ∃ tokens, scan offset text = .ok tokens ∧ tokens.map Located.value = values

/-- Nothing that continues a name or a literal comes next. -/
def Parted (text : List Char) : Prop :=
  ∀ c ∈ text.head?, isAlphanumeric c = false

theorem parted_nil : Parted [] := by
  intro c member
  cases member

theorem parted_cons {c : Char} (text : List Char) (other : isAlphanumeric c = false) :
    Parted (c :: text) := by
  intro first member
  rwa [← Option.some_inj.mp member]

theorem parted_space (text : List Char) : Parted (' ' :: text) :=
  parted_cons text isAlphanumeric_space

theorem parted_mark (mark : Char) (text : List Char) (member : mark ∈ marks) :
    Parted (mark :: text) :=
  parted_cons text (apart_of_mem_marks member).2.1

theorem isAlphanumeric_of_continues {first c : Char} (continued : continues first c = true) :
    isAlphanumeric c = true := by
  unfold continues at continued
  by_cases dollar : first = '$'
  · rw [if_pos dollar] at continued
    exact isAlphanumeric_of_isHexDigit continued
  · rw [if_neg dollar] at continued
    by_cases opens : opensName first = true
    · rwa [if_pos opens] at continued
    · rw [if_neg opens] at continued
      cases continued

/-- What is neither a letter nor a number continues no lexeme. -/
theorem not_continues {c : Char} (other : isAlphanumeric c = false) (first : Char) :
    continues first c = false := by
  cases continued : continues first c with
  | false => rfl
  | true =>
    rw [isAlphanumeric_of_continues continued] at other
    cases other

theorem Parted.not_continues {text : List Char} (parted : Parted text) (first : Char) :
    ∀ c ∈ text.head?, continues first c = false :=
  fun c member => Octet.not_continues (parted c member) first

namespace Scans

theorem nil : Scans [] [] := by
  intro offset
  exact ⟨[], by rw [scan], rfl⟩

/-- A semicolon ends the line. -/
theorem comment (text : List Char) : Scans (';' :: text) [] := by
  intro offset
  refine ⟨[], ?_, rfl⟩
  rw [scan, if_neg (by decide), if_pos rfl]

variable {text rest : List Char} {values : List Token}

theorem blank {c : Char} (isBlank : isBlank c = true) (scans : Scans text values) :
    Scans (c :: text) values := by
  intro offset
  obtain ⟨tokens, scanned, same⟩ := scans (offset + c.utf8Size)
  exact ⟨tokens, by rw [scan, if_pos isBlank, scanned], same⟩

theorem blanks (count : Nat) (scans : Scans text values) :
    Scans (List.replicate count ' ' ++ text) values := by
  induction count with
  | zero => exact scans
  | succ count inductionHypothesis =>
    rw [List.replicate_succ, List.cons_append]
    exact inductionHypothesis.blank isBlank_space

/-- A lexeme goes as far as characters continue it, and the rest is scanned for itself. -/
theorem lexeme {first : Char} {tail : List Char} {token : Token}
    (visible : isBlank first = false) (counts : first ≠ ';')
    (continued : ∀ c ∈ tail, continues first c = true)
    (ends : ∀ c ∈ rest.head?, continues first c = false)
    (made : Token.ofLexeme first tail = .ok token) (scans : Scans rest values) :
    Scans (first :: (tail ++ rest)) (token :: values) := by
  intro offset
  have taken : (tail ++ rest).takeWhile (continues first) = tail := by
    rw [List.takeWhile_append_of_pos continued]
    cases rest with
    | nil => exact List.append_nil _
    | cons c _ =>
      rw [List.takeWhile_cons_of_neg (Bool.eq_false_iff.mp (ends c rfl)), List.append_nil]
  have dropped : (tail ++ rest).dropWhile (continues first) = rest := by
    rw [List.dropWhile_append_of_pos continued]
    cases rest with
    | nil => rfl
    | cons c _ => rw [List.dropWhile_cons_of_neg (Bool.eq_false_iff.mp (ends c rfl))]
  obtain ⟨tokens, scanned, same⟩ := scans (offset + Utf8.width (first :: tail))
  refine ⟨⟨token, offset, offset + Utf8.width (first :: tail), Nat.le_add_right _ _⟩ :: tokens,
    ?_, congrArg (token :: ·) same⟩
  rw [scan, if_neg (Bool.eq_false_iff.mp visible), if_neg counts]
  simp only [taken, dropped, made, scanned]

end Scans

/-! ### The text of a token -/

/-- Whether a program can spell the token: names are proper and literals are bytes. -/
def Token.Proper : Token → Prop
  | identifier name => IsName name
  | literal value => 0 ≤ value ∧ value ≤ 255
  | _ => True

/-- Whether letters and numbers behind the token would be taken for a part of it. -/
def Token.isWord : Token → Bool
  | identifier _ => true
  | literal _ => true
  | _ => false

theorem continues_eq {first : Char} (opens : opensName first = true) :
    continues first = isAlphanumeric := by
  rw [continues, if_neg (ne_of_opensName opens (by simp [marks])), if_pos opens]

theorem Token.ofLexeme_eq {first : Char} (opens : opensName first = true) (rest : List Char) :
    Token.ofLexeme first rest = .ok (.identifier (String.ofList (first :: rest))) := by
  have differs : ∀ mark ∈ marks, first ≠ mark := fun mark => ne_of_opensName opens
  simp only [marks, List.forall_mem_cons] at differs
  obtain ⟨dot, colon, opening, closing, dollar, _⟩ := differs
  rw [Token.ofLexeme, if_neg dot, if_neg colon, if_neg opening, if_neg closing, if_neg dollar,
    if_pos opens]

/-- A dollar sign and the digits of a byte are a literal. -/
theorem Token.ofLexeme_dollar {digits : List Char} (something : digits ≠ [])
    (small : hexValue digits ≤ 255) :
    Token.ofLexeme '$' digits = .ok (.literal (hexValue digits)) := by
  show (if digits.isEmpty then (.error .emptyLiteral : Except Cause Token)
    else if hexValue digits ≤ 255 then .ok (.literal (hexValue digits))
    else .error .literalOverflow) = .ok (.literal (hexValue digits))
  rw [if_neg (by simpa using something), if_pos small]

namespace Scans

variable {rest : List Char} {values : List Token}

/-- A mark that nothing continues is a token by itself. -/
theorem delimiter (mark : Char) {token : Token} (member : mark ∈ marks) (counts : mark ≠ ';')
    (alone : mark ≠ '$') (made : Token.ofLexeme mark [] = .ok token) (scans : Scans rest values) :
    Scans (mark :: rest) (token :: values) := by
  obtain ⟨visible, _, closed⟩ := apart_of_mem_marks member
  refine lexeme visible counts (fun _ none => absurd none List.not_mem_nil) ?_ made scans
  intro next _
  rw [continues, if_neg alone, if_neg (Bool.eq_false_iff.mp closed)]

/-- A proper name is read as itself. -/
theorem identifier {name : String} (proper : IsName name) (parted : Parted rest)
    (scans : Scans rest values) : Scans (name.toList ++ rest) (.identifier name :: values) := by
  rw [IsName] at proper
  cases text : name.toList with
  | nil =>
    rw [text] at proper
    cases proper
  | cons first tail =>
    rw [text, spellsName, Bool.and_eq_true, List.all_eq_true] at proper
    obtain ⟨opens, continued⟩ := proper
    have named : name = String.ofList (first :: tail) := by
      rw [← text, String.ofList_toList]
    rw [named]
    refine lexeme (isBlank_of_opensName opens) (ne_of_opensName opens (by simp [marks])) ?_
      (parted.not_continues first) (Token.ofLexeme_eq opens tail) scans
    rwa [continues_eq opens]

/-- A dollar sign and the digits of a byte are read as its number. -/
theorem digits {digits : List Char} (something : digits ≠ [])
    (hexadecimal : ∀ digit ∈ digits, isHexDigit digit = true) (small : hexValue digits ≤ 255)
    (parted : Parted rest) (scans : Scans rest values) :
    Scans ('$' :: (digits ++ rest)) (.literal (hexValue digits) :: values) :=
  lexeme (apart_of_mem_marks (by simp [marks])).1 (by decide) hexadecimal
    (parted.not_continues '$') (Token.ofLexeme_dollar something small) scans

/-- A byte in hexadecimal is read as its number. -/
theorem literal {number : Nat} (small : number ≤ 255) (parted : Parted rest)
    (scans : Scans rest values) :
    Scans ((Text.dollarHex number).toList ++ rest) (.literal number :: values) := by
  obtain ⟨hexadecimal, made, something⟩ := Text.hex_spec number
  rw [← made] at small
  have taken := digits something hexadecimal small parted scans
  rwa [made, ← List.cons_append, ← Text.toList_dollarHex] at taken

/-- The text of a token is read as that token. -/
theorem token (token : Token) (proper : token.Proper) (parted : token.isWord = true → Parted rest)
    (scans : Scans rest values) : Scans (token.text.toList ++ rest) (token :: values) := by
  cases token with
  | dot => exact delimiter '.' (by simp [marks]) (by decide) (by decide) rfl scans
  | colon => exact delimiter ':' (by simp [marks]) (by decide) (by decide) rfl scans
  | bracketOpen => exact delimiter '[' (by simp [marks]) (by decide) (by decide) rfl scans
  | bracketClose => exact delimiter ']' (by simp [marks]) (by decide) (by decide) rfl scans
  | identifier name => exact identifier proper (parted rfl) scans
  | literal value =>
    obtain ⟨number, rfl⟩ := Int.eq_ofNat_of_zero_le proper.1
    exact literal (Int.ofNat_le.mp proper.2) (parted rfl) scans

end Scans

/-! ### The text of a statement -/

/-- The token that spells a content. -/
def Content.token : Content → Token
  | .value number => .literal number
  | .label name => .identifier name

/-- The tokens that spell an argument. -/
def Arg.tokens (arg : Arg) : List Token :=
  if arg.bracketed then [.bracketOpen, arg.content.token, .bracketClose] else [arg.content.token]

/-- The tokens that spell a statement. -/
def Statement.tokens : Statement → List Token
  | .label name _ => [.dot, .identifier name, .colon]
  | .byte value => [.dot, .identifier "byte", .literal value]
  | .instruction held => .identifier held.opcode.mnemonic :: held.args.flatMap Arg.tokens

theorem Content.text_token (content : Content) : content.token.text = content.text := by
  cases content <;> rfl

/-- An instruction is its mnemonic, and behind it each argument after a blank. -/
theorem Instruction.toList_text (held : Instruction) :
    held.text.toList =
      held.opcode.mnemonic.toList ++ held.args.flatMap fun arg => ' ' :: arg.text.toList := by
  have following : ∀ (word : List Char) (args : List Arg),
      [' '].intercalate (word :: args.map fun arg => arg.text.toList) =
        word ++ args.flatMap fun arg => ' ' :: arg.text.toList := by
    intro word args
    induction args generalizing word with
    | nil => simp
    | cons arg rest inductionHypothesis =>
      rw [List.map_cons, List.intercalate_cons_cons, inductionHypothesis]
      simp
  rw [Instruction.text, String.toList_intercalate, List.map_cons, List.map_map]
  exact following _ _

namespace Scans

variable {rest : List Char} {values : List Token}

/-- The text of an argument is read as the tokens that spell it. -/
theorem arg (arg : Arg) (proper : ∀ token ∈ arg.tokens, token.Proper) (parted : Parted rest)
    (scans : Scans rest values) : Scans (arg.text.toList ++ rest) (arg.tokens ++ values) := by
  unfold Arg.tokens at proper ⊢
  unfold Arg.text
  by_cases bracketed : arg.bracketed = true
  · rw [if_pos bracketed] at proper ⊢
    rw [if_pos bracketed, String.toList_append, String.toList_append, List.append_assoc,
      List.append_assoc, ← Content.text_token]
    refine token .bracketOpen trivial (fun word => by cases word) ?_
    refine token _ (proper _ (by simp)) (fun _ => parted_mark ']' _ (by simp [marks])) ?_
    exact token .bracketClose trivial (fun word => by cases word) scans
  · rw [if_neg bracketed] at proper ⊢
    rw [if_neg bracketed, ← Content.text_token]
    exact token _ (proper _ (by simp)) (fun _ => parted) scans

/-- Arguments with blanks in front of them are read one after the other. -/
theorem args (args : List Arg) (proper : ∀ arg ∈ args, ∀ token ∈ arg.tokens, token.Proper)
    (parted : Parted rest) (scans : Scans rest values) :
    Parted ((args.flatMap fun arg => ' ' :: arg.text.toList) ++ rest) ∧
      Scans ((args.flatMap fun arg => ' ' :: arg.text.toList) ++ rest)
        (args.flatMap Arg.tokens ++ values) := by
  induction args with
  | nil => exact ⟨parted, scans⟩
  | cons head tail inductionHypothesis =>
    obtain ⟨partedTail, scansTail⟩ :=
      inductionHypothesis fun other member => proper other (List.mem_cons_of_mem _ member)
    rw [List.flatMap_cons, List.flatMap_cons, List.append_assoc, List.append_assoc,
      List.cons_append]
    refine ⟨parted_space _, Scans.blank isBlank_space ?_⟩
    exact Scans.arg head (proper head List.mem_cons_self) partedTail scansTail

/-- The text of a statement is read as the tokens that spell it. -/
theorem statement (statement : Statement) (proper : ∀ token ∈ statement.tokens, token.Proper)
    (parted : Parted rest) (scans : Scans rest values) :
    Scans (statement.text.toList ++ rest) (statement.tokens ++ values) := by
  cases statement with
  | label name span =>
    show Scans (("." ++ name ++ ":").toList ++ rest) _
    rw [String.toList_append, String.toList_append, List.append_assoc, List.append_assoc]
    refine token .dot trivial (fun word => by cases word) ?_
    refine token (.identifier name) (proper _ (by simp [Statement.tokens]))
      (fun _ => parted_mark ':' _ (by simp [marks])) ?_
    exact token .colon trivial (fun word => by cases word) scans
  | byte value =>
    show Scans ((".byte " ++ Text.dollarHex value).toList ++ rest) _
    rw [String.toList_append, List.append_assoc]
    refine token .dot trivial (fun word => by cases word) ?_
    refine token (.identifier "byte") isName_byte (fun _ => parted_space _)
      (Scans.blank isBlank_space ?_)
    exact token (.literal value) (proper _ (by simp [Statement.tokens])) (fun _ => parted) scans
  | instruction held =>
    show Scans (held.text.toList ++ rest) _
    rw [Instruction.toList_text, List.append_assoc]
    obtain ⟨partedArgs, scansArgs⟩ := args held.args (fun arg member token spelled =>
      proper token (List.mem_cons_of_mem _ (List.mem_flatMap.mpr ⟨arg, member, spelled⟩)))
      parted scans
    exact token (.identifier held.opcode.mnemonic) (isName_mnemonic held.opcode)
      (fun _ => partedArgs) scansArgs

end Scans

/-! ### Proper statements hold no line feed -/

theorem Token.not_blank {token : Token} (proper : token.Proper) :
    ∀ c ∈ token.text.toList, isBlank c = false := by
  have delimiter : ∀ mark ∈ marks, ∀ c ∈ [mark], isBlank c = false :=
    fun mark member => List.forall_mem_singleton.mpr (apart_of_mem_marks member).1
  cases token with
  | dot => exact delimiter '.' (by simp [marks])
  | colon => exact delimiter ':' (by simp [marks])
  | bracketOpen => exact delimiter '[' (by simp [marks])
  | bracketClose => exact delimiter ']' (by simp [marks])
  | identifier name => exact not_blank_of_isName proper
  | literal value =>
    obtain ⟨number, rfl⟩ := Int.eq_ofNat_of_zero_le proper.1
    intro c member
    have spelled : c ∈ '$' :: (Text.hex number).toList := by
      rwa [← Text.toList_dollarHex]
    rcases List.mem_cons.mp spelled with rfl | digit
    · exact (apart_of_mem_marks (by simp [marks])).1
    · exact isBlank_of_isAlphanumeric
        (isAlphanumeric_of_isHexDigit ((Text.hex_spec number).1 c digit))

/-- An argument is written as the tokens that spell it. -/
theorem Arg.toList_text (arg : Arg) :
    arg.text.toList = arg.tokens.flatMap fun token => token.text.toList := by
  unfold Arg.text Arg.tokens
  by_cases bracketed : arg.bracketed = true
  · rw [if_pos bracketed, if_pos bracketed, String.toList_append, String.toList_append,
      ← Content.text_token]
    simp [Token.text]
  · rw [if_neg bracketed, if_neg bracketed, ← Content.text_token, List.flatMap_singleton]

/-- The only blank in the text of a statement is the space. -/
theorem Statement.space_of_isBlank {statement : Statement}
    (proper : ∀ token ∈ statement.tokens, token.Proper) {c : Char}
    (member : c ∈ statement.text.toList) (blank : isBlank c = true) : c = ' ' := by
  have visible : ∀ token ∈ statement.tokens, c ∉ token.text.toList := by
    intro token spelled inside
    rw [Token.not_blank (proper token spelled) c inside] at blank
    cases blank
  cases statement with
  | label name span =>
    have written : c ∈ ("." ++ name ++ ":").toList := member
    rw [String.toList_append, String.toList_append] at written
    rcases List.mem_append.mp written with front | colon
    · rcases List.mem_append.mp front with dot | inside
      · exact absurd dot (visible .dot (by simp [Statement.tokens]))
      · exact absurd inside (visible (.identifier name) (by simp [Statement.tokens]))
    · exact absurd colon (visible .colon (by simp [Statement.tokens]))
  | byte value =>
    have written : c ∈ (".byte " ++ Text.dollarHex value).toList := member
    rw [String.toList_append] at written
    rcases List.mem_append.mp written with word | number
    · have parts : c = '.' ∨ c ∈ "byte".toList ∨ c = ' ' := by simpa [or_assoc] using word
      rcases parts with rfl | inside | space
      · exact absurd List.mem_cons_self (visible .dot (by simp [Statement.tokens]))
      · exact absurd inside (visible (.identifier "byte") (by simp [Statement.tokens]))
      · exact space
    · exact absurd number (visible (.literal value) (by simp [Statement.tokens]))
  | instruction held =>
    have written : c ∈ held.text.toList := member
    rw [Instruction.toList_text] at written
    rcases List.mem_append.mp written with word | operands
    · exact absurd word (visible (.identifier held.opcode.mnemonic) List.mem_cons_self)
    · obtain ⟨arg, listed, inside⟩ := List.mem_flatMap.mp operands
      rcases List.mem_cons.mp inside with space | inArg
      · exact space
      · rw [Arg.toList_text] at inArg
        obtain ⟨token, spelled, inToken⟩ := List.mem_flatMap.mp inArg
        exact absurd inToken (visible token
          (List.mem_cons_of_mem _ (List.mem_flatMap.mpr ⟨arg, listed, spelled⟩)))

/-- There is no line feed in the text of a statement. -/
theorem Statement.lineFeed_not_mem {statement : Statement}
    (proper : ∀ token ∈ statement.tokens, token.Proper) : '\n' ∉ statement.text.toList :=
  fun member => absurd (Statement.space_of_isBlank proper member isBlank_lineFeed) (by decide)

/-! ### What is scanned could stand in a program -/

/-- A lexeme makes a proper token: it goes on only with characters that continue it, and a
literal that is too large is refused. -/
theorem Token.proper_of_ofLexeme {first : Char} {tail : List Char} {token : Token}
    (continued : ∀ c ∈ tail, continues first c = true)
    (made : Token.ofLexeme first tail = .ok token) : token.Proper := by
  unfold Token.ofLexeme at made
  split_ifs at made with dot colon opening closing dollar nothing small opens
  · obtain rfl := Except.ok.inj made
    trivial
  · obtain rfl := Except.ok.inj made
    trivial
  · obtain rfl := Except.ok.inj made
    trivial
  · obtain rfl := Except.ok.inj made
    trivial
  · obtain rfl := Except.ok.inj made
    exact ⟨Int.natCast_nonneg _, Int.ofNat_le.mpr small⟩
  · obtain rfl := Except.ok.inj made
    rw [continues_eq opens] at continued
    show spellsName (String.ofList (first :: tail)).toList = true
    rw [String.toList_ofList, spellsName, opens, List.all_eq_true.mpr continued]
    rfl

/-- Every token that is scanned could stand in a program. -/
theorem proper_of_scan (offset : Nat) (text : List Char) :
    ∀ tokens, scan offset text = .ok tokens → ∀ token ∈ tokens, token.value.Proper := by
  fun_induction scan offset text with
  | case1 offset =>
    rintro _ ⟨⟩
    exact fun _ none => absurd none List.not_mem_nil
  | case2 offset c rest blank inductionHypothesis => exact inductionHypothesis
  | case3 offset rest visible =>
    rintro _ ⟨⟩
    exact fun _ none => absurd none List.not_mem_nil
  | case4 => exact fun _ scanned => nomatch scanned
  | case5 => exact fun _ scanned => nomatch scanned
  | case6 offset first rest visible counts tail stop span token made others further
      inductionHypothesis =>
    rintro _ ⟨⟩
    have continued : ∀ c ∈ tail, continues first c = true := List.all_eq_true.mp List.all_takeWhile
    exact List.forall_mem_cons.mpr
      ⟨Token.proper_of_ofLexeme continued made, inductionHypothesis others further⟩

/-! ### What stands behind the lexemes of a line -/

/-- A text of which nothing belongs to a lexeme in front of it, and in which there is no token. -/
structure Idle (text : List Char) : Prop where
  apart : Parted text
  empty : ∀ offset, scan offset text = .ok []

namespace Idle

variable {text : List Char}

theorem takeWhile_eq (idle : Idle text) (first : Char) : text.takeWhile (continues first) = [] := by
  cases text with
  | nil => rfl
  | cons c rest =>
    exact List.takeWhile_cons_of_neg
      (Bool.eq_false_iff.mp (idle.apart.not_continues first c rfl))

theorem dropWhile_eq (idle : Idle text) (first : Char) :
    text.dropWhile (continues first) = text := by
  cases text with
  | nil => rfl
  | cons c rest =>
    exact List.dropWhile_cons_of_neg
      (Bool.eq_false_iff.mp (idle.apart.not_continues first c rfl))

theorem nil : Idle [] :=
  ⟨parted_nil, fun _ => by rw [scan]⟩

theorem comment (text : List Char) : Idle (';' :: text) := by
  refine ⟨parted_mark ';' text (by simp [marks]), fun offset => ?_⟩
  rw [scan, if_neg (by decide), if_pos rfl]

theorem blank {c : Char} (blank : isBlank c = true) : Idle [c] := by
  refine ⟨parted_cons [] (isAlphanumeric_of_isBlank blank), fun offset => ?_⟩
  rw [scan, if_pos blank, scan]

end Idle

/-- A change to a line that leaves everything as it is up to the end or up to a comment, and puts
nothing there that is read. -/
structure Harmless (change : List Char → List Char) : Prop where
  keeps : ∀ c rest, c ≠ ';' → change (c :: rest) = c :: change rest
  behind : Idle (change [])
  comment : ∀ rest, Idle (change (';' :: rest))

namespace Harmless

variable {change : List Char → List Char}

theorem takeWhile_eq (harmless : Harmless change) (first : Char) (text : List Char) :
    (change text).takeWhile (continues first) = text.takeWhile (continues first) := by
  induction text with
  | nil => exact harmless.behind.takeWhile_eq first
  | cons c rest inductionHypothesis =>
    by_cases counts : c = ';'
    · subst counts
      rw [(harmless.comment rest).takeWhile_eq, (Idle.comment rest).takeWhile_eq]
    · rw [harmless.keeps c rest counts, List.takeWhile_cons, List.takeWhile_cons,
        inductionHypothesis]

theorem dropWhile_eq (harmless : Harmless change) (first : Char) (text : List Char) :
    (change text).dropWhile (continues first) = change (text.dropWhile (continues first)) := by
  induction text with
  | nil => exact harmless.behind.dropWhile_eq first
  | cons c rest inductionHypothesis =>
    by_cases counts : c = ';'
    · subst counts
      rw [(harmless.comment rest).dropWhile_eq, (Idle.comment rest).dropWhile_eq]
    · rw [harmless.keeps c rest counts, List.dropWhile_cons, List.dropWhile_cons,
        inductionHypothesis]
      split
      · rfl
      · exact (harmless.keeps c rest counts).symm

/-- Such a change alters neither the tokens of a line nor the mistake in it. -/
theorem scan_eq (harmless : Harmless change) (offset : Nat) (text : List Char) :
    scan offset (change text) = scan offset text := by
  fun_induction scan offset text with
  | case1 offset => exact harmless.behind.empty offset
  | case2 offset c rest blank inductionHypothesis =>
    have counts : c ≠ ';' := by
      rintro rfl
      cases blank
    rw [harmless.keeps c rest counts, scan, if_pos blank, inductionHypothesis]
  | case3 offset rest visible => exact (harmless.comment rest).empty offset
  | case4 offset c rest visible counts tail stop span cause broken =>
    rw [harmless.keeps c rest counts, scan, if_neg visible, if_neg counts]
    simp only [harmless.takeWhile_eq]
    simp only [tail] at broken
    rw [broken]
  | case5 offset c rest visible counts tail stop token made diagnostic failed
      inductionHypothesis =>
    rw [harmless.keeps c rest counts, scan, if_neg visible, if_neg counts]
    simp only [harmless.takeWhile_eq, harmless.dropWhile_eq]
    simp only [tail, stop] at made inductionHypothesis failed
    rw [made, inductionHypothesis, failed]
  | case6 offset c rest visible counts tail stop span token made tokens scanned
      inductionHypothesis =>
    rw [harmless.keeps c rest counts, scan, if_neg visible, if_neg counts]
    simp only [harmless.takeWhile_eq, harmless.dropWhile_eq]
    simp only [tail, stop] at made inductionHypothesis scanned
    rw [made, inductionHypothesis, scanned]

end Harmless

/-- A blank at the end of a line changes neither its tokens nor the mistake in it. -/
theorem scan_append_blank (offset : Nat) (text : List Char) {c : Char} (blank : isBlank c = true) :
    scan offset (text ++ [c]) = scan offset text := by
  have harmless : Harmless fun text => text ++ [c] :=
    ⟨fun _ _ _ => rfl, .blank blank, fun rest => .comment (rest ++ [c])⟩
  exact harmless.scan_eq offset text

/-- Whether or not a carriage return at its end belongs to a line, the line scans alike. -/
theorem scan_dropReturn (offset : Nat) (piece : List Char) :
    scan offset (dropReturn piece) = scan offset piece := by
  unfold dropReturn
  by_cases ends : piece.getLast? = some '\r'
  · rw [if_pos ends]
    obtain ⟨front, rfl⟩ := List.getLast?_eq_some_iff.mp ends
    rw [List.dropLast_concat, scan_append_blank offset front (by decide)]
  · rw [if_neg ends]

end Octet
