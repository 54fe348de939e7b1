/-
This file shows what becomes of a tree when files are written into it. Writing
needs no more than a place that is no directory, below directories that are
there; it changes what that place holds and nothing else. Above all it changes
no directory. Since a path is walked through directories only, it leads to the
same place after any number of files have been written.

The tidy form of a path leads where the path leads. The converse fails: a path
that ends in a slash asks for a directory, and its tidy form does not.
-/

import Mathlib.Tactic.SplitIfs
import Octet.Tool.FileTree

namespace Octet

/-! ### Pieces between separators -/

/-- No piece holds the character that parts it from the others. -/
theorem separator_not_mem_splitOn (separator : Char) (text : List Char) :
    ∀ piece ∈ text.splitOn separator, separator ∉ piece := by
  induction text with
  | nil => exact List.forall_mem_singleton.mpr List.not_mem_nil
  | cons c rest inductionHypothesis =>
    rw [List.splitOn_cons_eq_if_modifyHead]
    by_cases parts : (c == separator) = true
    · rw [if_pos parts]
      exact List.forall_mem_cons.mpr ⟨List.not_mem_nil, inductionHypothesis⟩
    · rw [if_neg parts]
      cases cut : rest.splitOn separator with
      | nil => exact absurd cut (List.splitOn_ne_nil _ _)
      | cons first others =>
        rw [cut, List.forall_mem_cons] at inductionHypothesis
        refine List.forall_mem_cons.mpr ⟨fun member => ?_, inductionHypothesis.2⟩
        rcases List.mem_cons.mp member with rfl | later
        · exact parts (beq_self_eq_true _)
        · exact inductionHypothesis.1 later

/-! ### Tidy paths -/

namespace Path

/-- Whether a piece of a path is one of its steps. -/
def isStep (piece : String) : Bool :=
  piece ≠ "" && piece ≠ "."

/-- No step holds a slash. -/
theorem slash_not_mem_step {path step : String} (member : step ∈ steps path) :
    '/' ∉ step.toList := by
  obtain ⟨piece, listed, rfl⟩ := List.mem_map.mp (List.mem_filter.mp member).1
  rw [String.toList_ofList]
  exact separator_not_mem_splitOn '/' _ piece listed

/-- Steps with slashes between them are the pieces of what they make. -/
theorem pieces_intercalate {steps : List String} (something : steps ≠ [])
    (whole : ∀ step ∈ steps, '/' ∉ step.toList) : pieces ("/".intercalate steps) = steps := by
  have cut : ("/".intercalate steps).toList.splitOn '/' = steps.map String.toList := by
    rw [String.toList_intercalate]
    refine List.splitOn_intercalate '/' (fun piece member => ?_) (by simpa using something)
    obtain ⟨step, listed, rfl⟩ := List.mem_map.mp member
    exact whole step listed
  have same : String.ofList ∘ String.toList = id := funext fun _ => String.ofList_toList
  rw [pieces, cut, List.map_map, same, List.map_id]

/-- A slash in front of a path is behind an empty piece. -/
theorem pieces_slash (path : String) : pieces ("/" ++ path) = "" :: pieces path := by
  have cut : ("/" ++ path).toList.splitOn '/' = [] :: path.toList.splitOn '/' := by
    rw [String.toList_append]
    exact List.splitOn_append_cons_self [] path.toList
  rw [pieces, cut]
  rfl

/-- A path that begins with another character than a slash has no empty piece in front. -/
theorem pieces_relative {path : String} {c : Char} {rest : List Char}
    (text : path.toList = c :: rest) (relative : c ≠ '/') :
    ∃ first others, pieces path = first :: others ∧ first ≠ "" := by
  have other : ¬(c == '/') = true := by simpa using relative
  rw [pieces, text, List.splitOn_cons_eq_if_modifyHead, if_neg other]
  cases cut : rest.splitOn '/' with
  | nil => exact absurd cut (List.splitOn_ne_nil _ _)
  | cons first others =>
    refine ⟨_, _, rfl, fun empty => ?_⟩
    have nothing := congrArg String.toList empty
    rw [String.toList_ofList] at nothing
    cases nothing

/-- The tidy form of a path that does not begin with a slash. -/
theorem tidy_relative {path : String} {c : Char} {rest : List Char}
    (text : path.toList = c :: rest) (relative : c ≠ '/') :
    tidy path = if steps path = [] then "." else "/".intercalate (steps path) := by
  have rootless : root path = "" := by
    rw [root, text, List.takeWhile_cons_of_neg (by simpa using relative)]
  rw [tidy, rootless, build, String.empty_append]
  by_cases nothing : steps path = []
  · rw [if_pos nothing, nothing]
    rfl
  · have something : "/".intercalate (steps path) ≠ "" := by
      intro empty
      have cut := pieces_intercalate nothing fun _ => slash_not_mem_step
      have listed : "" ∈ steps path := by
        rw [← cut, empty]
        exact List.mem_cons_self
      exact absurd (List.mem_filter.mp listed).2 (by decide)
    rw [if_neg nothing, if_neg (by simpa using something)]

/-- The tidy form of a path that begins with a slash. -/
theorem tidy_absolute {path : String} {rest : List Char} (text : path.toList = '/' :: rest) :
    tidy path = "/" ++ "/".intercalate (steps path) ∨
      tidy path = "/" ++ ("/" ++ "/".intercalate (steps path)) := by
  have rooted : root path = "/" ∨ root path = "/" ++ "/" := by
    rw [root, text, List.takeWhile_cons_of_pos (by decide)]
    split
    · rename_i same
      cases same
    · exact .inr rfl
    · exact .inl rfl
  have full : ∀ more : String, ("/" ++ more).isEmpty = false := by
    intro more
    simp
  rcases rooted with single | double
  · refine .inl ?_
    rw [tidy, single, build, full]
    rfl
  · refine .inr ?_
    rw [tidy, double, build, String.append_assoc, full]
    rfl

end Path

/-! ### The places that paths lead to -/

namespace FileTree

variable {tree : FileTree} {place destination : Place}

/-- Walking on from a place means that it is a directory. -/
theorem directory_of_walk {piece : String} {rest : List String}
    (walked : tree.walk place (piece :: rest) = .ok destination) :
    tree.node? place = some .directory := by
  rw [walk] at walked
  cases held : tree.node? place with
  | none =>
    rw [held] at walked
    cases walked
  | some node =>
    cases node with
    | directory => rfl
    | file content =>
      rw [held] at walked
      cases walked

/-- One piece of a walk through directories. -/
theorem walk_cons (directory : tree.node? place = some .directory) (piece : String)
    (rest : List String) : tree.walk place (piece :: rest) =
      if Path.isStep piece = false then tree.walk place rest
      else if piece = ".." then tree.walk (around place) rest
      else if 255 < (Utf8.encode piece).length then .error .nameTooLong
      else tree.walk (place ++ [piece]) rest := by
  have idle : (piece = "" || piece = ".") = !Path.isStep piece := by
    rw [Path.isStep, Bool.not_and]
    simp
  rw [walk, directory]
  simp only [idle, Bool.not_eq_true']

/-- Pieces that are no steps lead nowhere else. -/
theorem walk_filter {pieces : List String} (walked : tree.walk place pieces = .ok destination) :
    tree.walk place (pieces.filter Path.isStep) = .ok destination := by
  induction pieces generalizing place with
  | nil => exact walked
  | cons piece rest inductionHypothesis =>
    have directory := directory_of_walk walked
    rw [walk_cons directory] at walked
    cases step : Path.isStep piece with
    | false =>
      rw [if_pos step] at walked
      rw [List.filter_cons_of_neg (Bool.eq_false_iff.mp step)]
      exact inductionHypothesis walked
    | true =>
      rw [if_neg (by rw [step]; decide)] at walked
      rw [List.filter_cons_of_pos step, walk_cons directory, if_neg (by rw [step]; decide)]
      split_ifs at walked ⊢
      · exact inductionHypothesis walked
      · exact inductionHypothesis walked

/-- From the top, steps with slashes between them lead where the steps lead. -/
theorem walk_intercalate {steps : List String} (whole : ∀ step ∈ steps, '/' ∉ step.toList)
    (walked : tree.walk ["/"] steps = .ok destination) :
    tree.walk ["/"] (Path.pieces ("/".intercalate steps)) = .ok destination := by
  by_cases nothing : steps = []
  · rw [nothing] at walked ⊢
    exact walked
  · rwa [Path.pieces_intercalate nothing whole]

theorem locate_slash (path : String) :
    tree.locate ("/" ++ path) = tree.walk ["/"] (Path.pieces path) := by
  rw [locate, Path.pieces_slash]
  cases cut : Path.pieces path with
  | nil => exact absurd (List.map_eq_nil_iff.mp cut) (List.splitOn_ne_nil _ _)
  | cons first others => rfl

theorem locate_relative {path first : String} {others : List String}
    (cut : Path.pieces path = first :: others) (relative : first ≠ "") :
    tree.locate path = tree.walk [] (first :: others) := by
  rw [locate, cut]
  split
  · rename_i same
    exact absurd (List.cons.inj same).1 relative
  · rename_i same
    exact absurd (List.cons.inj same).1 relative
  · rfl

/-- The tidy form of a path leads where the path leads. -/
theorem locate_tidy {path : String} (found : tree.locate path = .ok destination) :
    tree.locate (Path.tidy path) = .ok destination := by
  have whole : ∀ step ∈ Path.steps path, '/' ∉ step.toList := fun _ => Path.slash_not_mem_step
  cases text : path.toList with
  | nil =>
    rw [String.toList_eq_nil_iff.mp text] at found
    cases found
  | cons c rest =>
    by_cases slash : c = '/'
    · subst slash
      have apart : path = "/" ++ String.ofList rest := String.toList_injective (by simp [text])
      have stepped : tree.walk ["/"] (Path.steps path) = .ok destination := by
        rw [apart, locate_slash] at found
        have filtered := walk_filter found
        rw [apart, Path.steps, Path.pieces_slash]
        exact filtered
      have below := walk_intercalate whole stepped
      rcases Path.tidy_absolute text with single | double
      · rwa [single, locate_slash]
      · rwa [double, locate_slash, Path.pieces_slash]
    · obtain ⟨first, others, cut, relative⟩ := Path.pieces_relative text slash
      rw [locate_relative cut relative, ← cut] at found
      have stepped : tree.walk [] (Path.steps path) = .ok destination := walk_filter found
      rw [Path.tidy_relative text slash]
      cases listed : Path.steps path with
      | nil =>
        rw [listed] at stepped
        exact stepped
      | cons step more =>
        have proper : step ≠ "" := by
          rintro rfl
          have member : "" ∈ Path.steps path := listed ▸ List.mem_cons_self
          exact absurd (List.mem_filter.mp member).2 (by decide)
        rw [listed] at stepped whole
        rw [if_neg (List.cons_ne_nil _ _),
          locate_relative (Path.pieces_intercalate (List.cons_ne_nil _ _) whole) proper]
        exact stepped

/-! ### Trees with the same directories -/

/-- Two trees have the same directories. -/
def SameDirectories (tree other : FileTree) : Prop :=
  ∀ place, tree.node? place = some .directory ↔ other.node? place = some .directory

theorem SameDirectories.refl (tree : FileTree) : tree.SameDirectories tree :=
  fun _ => Iff.rfl

variable {other last : FileTree}

theorem SameDirectories.symm (same : tree.SameDirectories other) : other.SameDirectories tree :=
  fun place => (same place).symm

theorem SameDirectories.trans (same : tree.SameDirectories other)
    (further : other.SameDirectories last) : tree.SameDirectories last :=
  fun place => (same place).trans (further place)

/-- A path is walked through directories only. -/
theorem SameDirectories.walk (same : tree.SameDirectories other) {pieces : List String}
    (walked : tree.walk place pieces = .ok destination) :
    other.walk place pieces = .ok destination := by
  induction pieces generalizing place with
  | nil => exact walked
  | cons piece rest inductionHypothesis =>
    have directory := directory_of_walk walked
    rw [walk_cons directory] at walked
    rw [walk_cons ((same place).mp directory)]
    split_ifs at walked ⊢
    · exact inductionHypothesis walked
    · exact inductionHypothesis walked
    · exact inductionHypothesis walked

theorem SameDirectories.locate (same : tree.SameDirectories other) {path : String}
    (found : tree.locate path = .ok destination) : other.locate path = .ok destination := by
  rw [FileTree.locate] at found ⊢
  split at found
  · cases found
  · exact same.walk found
  · exact same.walk found

/-! ### Writing -/

/-- A path leads to a place where a file can be written. -/
structure Leads (tree : FileTree) (path : String) (place : Place) : Prop where
  found : tree.locate path = .ok place
  free : tree.node? place ≠ some .directory

theorem Leads.of_same {path : String} (leads : tree.Leads path place)
    (same : tree.SameDirectories other) : other.Leads path place :=
  ⟨same.locate leads.found, fun directory => leads.free ((same place).mpr directory)⟩

/-- A path leads to one place only. -/
theorem Leads.unique {path : String} {elsewhere : Place} (leads : tree.Leads path place)
    (alsoLeads : tree.Leads path elsewhere) : place = elsewhere :=
  Except.ok.inj (leads.found.symm.trans alsoLeads.found)

theorem not_ground (free : tree.node? place ≠ some .directory) : isGround place = false := by
  refine Bool.eq_false_iff.mpr fun ground => free ?_
  rw [node?, if_pos ground]

/-- A place that is no directory holds what is put there. -/
theorem node?_put_self (free : tree.node? place ≠ some .directory) (node : Node) :
    (tree.put place node).node? place = some node := by
  have cleared : (tree.nodes.filter (·.1 ≠ place)).lookup place = none := by
    refine List.lookup_eq_none_iff.mpr fun pair member => ?_
    have different := of_decide_eq_true (List.mem_filter.mp member).2
    simpa using different.symm
  rw [node?, not_ground free, if_neg Bool.false_ne_true, put, List.lookup_append, cleared,
    Option.none_or, List.lookup_cons_self]

/-- No other place is changed. -/
theorem node?_put_other {elsewhere : Place} (different : elsewhere ≠ place) (node : Node) :
    (tree.put place node).node? elsewhere = tree.node? elsewhere := by
  have kept : ∀ nodes : List (Place × Node),
      (nodes.filter (·.1 ≠ place)).lookup elsewhere = nodes.lookup elsewhere := by
    intro nodes
    induction nodes with
    | nil => rfl
    | cons pair rest inductionHypothesis =>
      obtain ⟨held, node⟩ := pair
      by_cases same : held = place
      · have other : (elsewhere == held) = false := by
          rw [same]
          simpa using different
        rw [List.filter_cons_of_neg (by simpa using same), inductionHypothesis, List.lookup_cons,
          other]
      · rw [List.filter_cons_of_pos (by simpa using same), List.lookup_cons, List.lookup_cons,
          inductionHypothesis]
  have apart : (elsewhere == place) = false := by simpa using different
  rw [node?, node?, put, List.lookup_append, kept, List.lookup_cons, apart, List.lookup_nil,
    Option.or_none]

theorem sameDirectories_put (free : tree.node? place ≠ some .directory) (content : List UInt8) :
    tree.SameDirectories (tree.put place (.file content)) := by
  intro elsewhere
  by_cases same : elsewhere = place
  · subst same
    rw [node?_put_self free]
    exact iff_of_false free fun directory => nomatch directory
  · rw [node?_put_other same]

theorem Leads.write {path : String} (leads : tree.Leads path place) (content : List UInt8) :
    tree.write path content = .ok (tree.put place (.file content)) := by
  simp only [FileTree.write, leads.found]
  cases held : tree.node? place with
  | none => rfl
  | some node =>
    cases node with
    | directory => exact absurd held leads.free
    | file before => rfl

/-- A path leads to every directory that it finds. -/
theorem locate_of_find_directory {path : String} (held : tree.find path = .ok .directory) :
    ∃ place, tree.locate path = .ok place ∧ tree.node? place = some .directory := by
  rw [find] at held
  cases found : tree.locate path with
  | error error =>
    rw [found] at held
    cases held
  | ok place =>
    rw [found] at held
    cases node : tree.node? place with
    | none =>
      simp only [node] at held
      cases held
    | some inside =>
      simp only [node] at held
      exact ⟨place, rfl, by rw [← Except.ok.inj held, node]⟩

/-- What is read is a file that the path finds. -/
theorem find_of_read {path : String} {content : List UInt8}
    (held : tree.read path = .ok content) : tree.find path = .ok (.file content) := by
  rw [read] at held
  split at held
  · rename_i same
    rw [same, Except.ok.inj held]
  · cases held
  · cases held

/-- A file is read from the place that a path leads to. -/
theorem read_of_locate {path : String} {content : List UInt8}
    (found : tree.locate path = .ok place) (held : tree.node? place = some (.file content)) :
    tree.find path = .ok (.file content) ∧ tree.read path = .ok content := by
  have met : tree.find path = .ok (.file content) := by
    rw [find, found]
    simp only [held]
  exact ⟨met, by rw [read, met]⟩

end FileTree

end Octet
