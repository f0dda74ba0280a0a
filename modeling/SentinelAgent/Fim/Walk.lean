import Mathlib.Data.List.Infix

/- Which paths the exclusion patterns leave out: the matcher that the baseline and the
   watcher share. -/
namespace SentinelAgent.Fim

/- The names of a path from the root of the file system. Before them a Windows path has the
   names its verbatim form starts with, such as `?` and the drive. -/
abbrev Path := List String

def below (names : List String) : List Char := names.flatMap fun name => '/' :: name.toList

def pathText (path : Path) : List Char := if path = [] then ['/'] else below path

/- Lower case as Unicode has it. What a letter becomes may depend on its neighbours (the final
   sigma), but never on those beyond a separator. -/
structure LowerCase where
  lower : List Char → List Char
  empty : lower [] = []
  separator : ∀ a b, lower (a ++ '/' :: b) = lower a ++ '/' :: lower b

/- Lower case of texts of ASCII letters. -/
def LowerCase.ascii : LowerCase where
  lower := List.map Char.toLower
  empty := rfl
  separator _ _ := List.map_append

def normalized (u : LowerCase) (text : List Char) : List Char :=
  (u.lower text).map fun c => if c = '\\' then '/' else c

def components (text : List Char) : List (List Char) := (text.splitOn '/').filter (· ≠ [])

/- Whether the names in `wanted` stand in a row among the components; with `needsChild`, at
   least one more component must follow them. -/
def hasComponentRun (all : List (List Char)) (wanted : List Char) (needsChild : Bool) : Bool :=
  let wanted := components wanted
  let searchable := if needsChild then all.dropLast else all
  wanted ≠ [] && decide (wanted <:+: searchable)

def matchesPattern (u : LowerCase) (text : List Char) (isDir : Bool) (pattern : String) : Bool :=
  match normalized u pattern.toList with
  | '*' :: suffix => suffix.isSuffixOf text
  | pattern =>
    if "/**".toList.isSuffixOf pattern then
      hasComponentRun (components text) (pattern.take (pattern.length - 3)) (!isDir)
    else hasComponentRun (components text) pattern false

def matchesIgnorePattern (u : LowerCase) (path : Path) (patterns : List String) (isDir : Bool) :
    Bool :=
  patterns.any (matchesPattern u (normalized u (pathText path)) isDir)

section Ignored
variable (u : LowerCase) (path : Path) (patterns : List String)

def isIgnoredPath : Bool := matchesIgnorePattern u path patterns false

def isIgnoredDir : Bool := matchesIgnorePattern u path patterns true

end Ignored

section Components
variable (u : LowerCase)

/- What a name counts for: one component, unless it has backslashes. -/
def nameComponents (name : String) : List (List Char) := components (normalized u name.toList)

theorem normalized_separator (a b : List Char) :
    normalized u (a ++ '/' :: b) = normalized u a ++ '/' :: normalized u b := by
  simp only [normalized, u.separator, List.map_append, List.map_cons]
  rfl

theorem components_separator (a b : List Char) :
    components (a ++ '/' :: b) = components a ++ components b := by
  rw [components, List.splitOn_append_cons_self, List.filter_append]
  rfl

theorem components_below (text : List Char) (names : List String) :
    components (normalized u (text ++ below names)) =
      components (normalized u text) ++ names.flatMap (nameComponents u) := by
  induction names generalizing text with
  | nil => simp [below]
  | cons name names ih =>
    have next : text ++ below (name :: names) = (text ++ '/' :: name.toList) ++ below names := by
      simp [below]
    rw [next, ih, normalized_separator, components_separator, List.flatMap_cons, nameComponents,
      List.append_assoc]

theorem components_path (path : Path) :
    components (normalized u (pathText path)) = path.flatMap (nameComponents u) := by
  have nothing : normalized u [] = [] := by
    rw [normalized, u.empty]
    rfl
  by_cases root : path = []
  · rw [root]
    have text : pathText [] = [] ++ '/' :: [] := rfl
    rw [text, normalized_separator, nothing]
    rfl
  · have all := components_below u [] path
    rw [List.nil_append, nothing] at all
    rw [pathText, if_neg root, all]
    rfl

end Components

section Pruning
variable {u : LowerCase} {patterns : List String}

/- A pattern that starts with a star and matches the text of the path. -/
def starred (u : LowerCase) (path : Path) (patterns : List String) : Bool :=
  patterns.any fun pattern =>
    match normalized u pattern.toList with
    | '*' :: suffix => suffix.isSuffixOf (normalized u (pathText path))
    | _ => false

theorem run_below {all more : List (List Char)} {wanted : List Char}
    (found : hasComponentRun all wanted false = true) (longer : more ≠ []) (needsChild : Bool) :
    hasComponentRun (all ++ more) wanted needsChild = true := by
  simp only [hasComponentRun, Bool.and_eq_true, decide_eq_true_eq] at found ⊢
  refine ⟨found.1, ?_⟩
  cases needsChild with
  | false => exact found.2.trans (List.prefix_append all more).isInfix
  | true =>
    rw [if_pos rfl, List.dropLast_append_of_ne_nil longer]
    exact found.2.trans (List.prefix_append all more.dropLast).isInfix

/- What lies in an ignored directory is ignored, unless the directory is for its text alone. -/
theorem ignored_below {dir rest : Path} (ignored : isIgnoredDir u dir patterns = true)
    (plain : starred u dir patterns = false) (named : rest.flatMap (nameComponents u) ≠ []) :
    isIgnoredPath u (dir ++ rest) patterns = true := by
  obtain ⟨pattern, listed, found⟩ := List.any_eq_true.mp ignored
  refine List.any_eq_true.mpr ⟨pattern, listed, ?_⟩
  have unstarred := List.any_eq_false.mp plain pattern listed
  unfold matchesPattern at found ⊢
  rw [components_path] at found ⊢
  rw [List.flatMap_append]
  split at found
  · rename_i suffix star
    rw [star] at unstarred
    exact absurd found unstarred
  · rename_i other
    split at found
    · rename_i directory
      rw [if_pos directory]
      exact run_below found named true
    · rename_i directory
      rw [if_neg directory]
      exact run_below found named false

end Pruning

/-! What a scan meets below the watched paths: the files of a directory tree, without what
   the exclusion patterns prune and not deeper than a limit. -/

/- What a path holds. Links, devices and directories that cannot be listed are `other`. -/
inductive Node where
  | file
  | dir (entries : List (String × Node))
  | other

/- That node stands at that path below the first one. -/
def Node.Holds : Node → List String → Node → Prop
  | node, [], found => node = found
  | .dir entries, name :: rest, found => ∃ entry ∈ entries, entry.1 = name ∧ entry.2.Holds rest found
  | _, _ :: _, _ => False

/- A watched path, resolved, and what is there, if anything is. -/
abbrev Root := Path × Option Node

section Walk
variable (u : LowerCase) (patterns : List String)

/- The files from a node on, with so many levels left below it. -/
def walkNode : Nat → Path → Node → List Path
  | _, path, .file => if isIgnoredPath u path patterns then [] else [path]
  | 0, _, .dir _ => []
  | levels + 1, path, .dir entries =>
    if isIgnoredDir u path patterns then []
    else entries.flatMap fun entry => walkNode levels (path ++ [entry.1]) entry.2
  | _, _, .other => []

def walkRoot (depth : Nat) (root : Root) : List Path :=
  match root.2 with
  | none => []
  | some node => walkNode u patterns depth root.1 node

/- The files met from all roots, in order; one that two roots lead to is met twice. -/
def walked (depth : Nat) (roots : List Root) : List Path :=
  roots.flatMap (walkRoot u patterns depth)

end Walk

/- None of the directories from a path down to what is below it is ignored. -/
def Open (u : LowerCase) (patterns : List String) (path rest : Path) : Prop :=
  ∀ above below, rest = above ++ below → below ≠ [] →
    isIgnoredDir u (path ++ above) patterns = false

section Members
variable {u : LowerCase} {patterns : List String}

theorem open_cons {path rest : Path} {name : String} :
    Open u patterns path (name :: rest) ↔
      isIgnoredDir u path patterns = false ∧ Open u patterns (path ++ [name]) rest := by
  constructor
  · intro all
    constructor
    · have first := all [] (name :: rest) rfl (List.cons_ne_nil name rest)
      rwa [List.append_nil] at first
    · intro above below split_rest more
      have next := all (name :: above) below (by rw [split_rest]; rfl) more
      rwa [List.append_cons] at next
  · intro ⟨first, next⟩ above below split_rest more
    cases above with
    | nil => rwa [List.append_nil]
    | cons other above =>
      obtain ⟨rfl, rest_eq⟩ := List.cons.inj split_rest
      rw [List.append_cons]
      exact next above below rest_eq more

theorem open_nil {path : Path} : Open u patterns path [] := by
  intro above below split_rest more
  exact absurd (List.append_eq_nil_iff.mp split_rest.symm).2 more

/- What the walk reaches from a node on: not too deep, in directories that are not ignored,
   and not ignored itself. -/
structure Reached (u : LowerCase) (patterns : List String) (levels : Nat) (path : Path)
    (node : Node) (rest : List String) : Prop where
  there : node.Holds rest .file
  near : rest.length ≤ levels
  opened : Open u patterns path rest
  kept : isIgnoredPath u (path ++ rest) patterns = false

theorem reached_nil {levels : Nat} {path : Path} {node : Node} :
    Reached u patterns levels path node [] ↔
      node = .file ∧ isIgnoredPath u path patterns = false := by
  constructor
  · intro reached
    have kept := reached.kept
    rw [List.append_nil] at kept
    cases node with
    | file => exact ⟨rfl, kept⟩
    | dir entries => cases reached.there
    | other => cases reached.there
  · intro ⟨file, kept⟩
    rw [file]
    exact ⟨rfl, Nat.zero_le levels, open_nil, by rwa [List.append_nil]⟩

theorem reached_cons {levels : Nat} {path : Path} {node : Node} {name : String}
    {rest : List String} :
    Reached u patterns (levels + 1) path node (name :: rest) ↔
      isIgnoredDir u path patterns = false ∧ ∃ entries, node = .dir entries ∧
        ∃ entry ∈ entries, entry.1 = name ∧
          Reached u patterns levels (path ++ [name]) entry.2 rest := by
  constructor
  · intro reached
    obtain ⟨first, opened⟩ := open_cons.mp reached.opened
    have kept := reached.kept
    rw [List.append_cons] at kept
    cases node with
    | file => cases reached.there
    | other => cases reached.there
    | dir entries =>
      obtain ⟨entry, member, same, there⟩ := reached.there
      exact ⟨first, entries, rfl, entry, member, same, there, Nat.le_of_succ_le_succ reached.near,
        opened, kept⟩
  · intro ⟨first, entries, directory, entry, member, same, reached⟩
    have kept := reached.kept
    rw [← List.append_cons] at kept
    rw [directory]
    exact ⟨⟨entry, member, same, reached.there⟩, Nat.succ_le_succ reached.near,
      open_cons.mpr ⟨first, reached.opened⟩, kept⟩

theorem mem_walkNode_file {levels : Nat} {path : Path} {file : Path} :
    file ∈ walkNode u patterns levels path .file ↔
      file = path ∧ isIgnoredPath u path patterns = false := by
  have met : walkNode u patterns levels path .file =
      if isIgnoredPath u path patterns then [] else [path] := by
    cases levels with
    | zero => rfl
    | succ levels => rfl
  rw [met]
  cases isIgnoredPath u path patterns with
  | true => simp
  | false => simp

/- The walk meets exactly the files it reaches. -/
theorem mem_walkNode {levels : Nat} {path : Path} {node : Node} {file : Path} :
    file ∈ walkNode u patterns levels path node ↔
      ∃ rest, file = path ++ rest ∧ Reached u patterns levels path node rest := by
  induction levels generalizing path node with
  | zero =>
    have root_only : (∃ rest, file = path ++ rest ∧ Reached u patterns 0 path node rest) ↔
        file = path ∧ Reached u patterns 0 path node [] := by
      constructor
      · intro ⟨rest, same, reached⟩
        cases List.length_eq_zero_iff.mp (Nat.le_zero.mp reached.near)
        exact ⟨same.trans (List.append_nil path), reached⟩
      · intro ⟨same, reached⟩
        exact ⟨[], same.trans (List.append_nil path).symm, reached⟩
    rw [root_only, reached_nil]
    cases node with
    | file => simp only [mem_walkNode_file, true_and]
    | dir entries => simp [walkNode]
    | other => simp [walkNode]
  | succ levels ih =>
    have by_rest : (∃ rest, file = path ++ rest ∧ Reached u patterns (levels + 1) path node rest) ↔
        (file = path ∧ Reached u patterns (levels + 1) path node []) ∨
          ∃ name rest, file = path ++ name :: rest ∧
            Reached u patterns (levels + 1) path node (name :: rest) := by
      constructor
      · intro ⟨rest, same, reached⟩
        cases rest with
        | nil => exact Or.inl ⟨same.trans (List.append_nil path), reached⟩
        | cons name rest => exact Or.inr ⟨name, rest, same, reached⟩
      · rintro (⟨same, reached⟩ | ⟨name, rest, same, reached⟩)
        · exact ⟨[], same.trans (List.append_nil path).symm, reached⟩
        · exact ⟨name :: rest, same, reached⟩
    rw [by_rest]
    simp only [reached_nil, reached_cons]
    cases node with
    | file => simp [mem_walkNode_file]
    | other => simp [walkNode]
    | dir entries =>
      rw [walkNode]
      cases isIgnoredDir u path patterns with
      | true => simp
      | false =>
        simp only [Bool.false_eq_true, if_false, List.mem_flatMap, ih, reduceCtorEq, false_and,
          and_false, false_or, true_and, Node.dir.injEq]
        constructor
        · intro ⟨entry, member, rest, same, reached⟩
          rw [← List.append_cons] at same
          exact ⟨entry.1, rest, same, entries, rfl, entry, member, rfl, reached⟩
        · intro ⟨name, rest, same, others, directory, entry, member, named, reached⟩
          rw [List.append_cons] at same
          rw [← named] at same reached
          rw [← directory] at member
          exact ⟨entry, member, rest, same, reached⟩

theorem mem_walked {depth : Nat} {roots : List Root} {file : Path} :
    file ∈ walked u patterns depth roots ↔
      ∃ path node rest, (path, some node) ∈ roots ∧ file = path ++ rest ∧
        Reached u patterns depth path node rest := by
  simp only [walked, List.mem_flatMap, Prod.exists]
  constructor
  · intro ⟨path, node, listed, met⟩
    cases node with
    | none => cases met
    | some node =>
      obtain ⟨rest, same, reached⟩ := mem_walkNode.mp met
      exact ⟨path, node, rest, listed, same, reached⟩
  · intro ⟨path, node, rest, listed, same, reached⟩
    exact ⟨path, some node, listed, mem_walkNode.mpr ⟨rest, same, reached⟩⟩

end Members
end SentinelAgent.Fim
