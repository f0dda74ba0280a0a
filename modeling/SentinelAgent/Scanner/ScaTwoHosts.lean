import SentinelAgent.Scanner.Sca
import Mathlib.Data.List.Forall2

/-!
Whether what could not be read decides a check: two systems, of which the second answers what the
first did, and anything where the first gave an error.
-/
namespace SentinelAgent.Sca
open Text

variable {M : Matching} (fromUtf8Lossy : List UInt8 → String)

section Search
variable {A B : Type} {ask : String → Except Unavailable A} {hit : String → A → Bool} {verb : String}
  {paths : List String} {unknown : Option String} {readAny : Bool}

/- A path that has what is looked for. -/
def Found (ask : String → Except Unavailable A) (hit : String → A → Bool) (paths : List String) :
    Prop :=
  ∃ path ∈ paths, ∃ a, ask path = .ok a ∧ hit path a = true

theorem search_eq_true : search ask hit verb paths unknown readAny = .true ↔
    Found ask hit paths := by
  induction paths generalizing unknown readAny with
  | nil =>
    unfold search
    constructor
    · intro found
      split at found
      · split at found
        · cases found
        · cases found
      · cases found
    · rintro ⟨path, member, _⟩
      cases member
  | cons path paths ih =>
    unfold search
    cases answer : ask path with
    | ok a =>
      by_cases here : hit path a = true
      · simp only [here, if_true, true_iff]
        exact ⟨path, List.mem_cons_self .., a, answer, here⟩
      · dsimp only
        rw [if_neg here, ih]
        simp [Found, answer, here]
    | error reason =>
      cases reason with
      | missing => simp [ih, Found, answer]
      | other text => simp [ih, Found, answer]

/- Without what is looked for the answer is no, unless nothing could be read and something could
   not. -/
theorem search_eq_false : search ask hit verb paths unknown readAny = .false ↔
    ¬ Found ask hit paths ∧ (readAny = true ∨ (∃ path ∈ paths, (ask path).isOk = true) ∨
      (unknown = none ∧ paths = [])) := by
  induction paths generalizing unknown readAny with
  | nil =>
    unfold search
    cases unknown with
    | none => simp [Found]
    | some reason => simp [Found]
  | cons path paths ih =>
    unfold search
    cases answer : ask path with
    | ok a =>
      by_cases here : hit path a = true
      · simp [here, Found, answer]
      · simp [here, ih, Found, answer, Except.isOk, Except.toBool]
    | error reason =>
      cases reason with
      | missing =>
        simp only [ih, Found]
        simp [answer, Except.isOk, Except.toBool]
      | other text => simp [ih, Found, answer, Except.isOk, Except.toBool]

end Search

/-! What a target asks, and of what it passes over that it could not be read. -/

/- That something does not exist is an answer. -/
def answered {A : Type} : Except Unavailable A → Bool
  | .error (.other _) => false
  | _ => true

/- The second answer is the first one, unless that was an error. -/
def Keeps {A : Type} (first second : Except Unavailable A) : Prop :=
  answered first = true → second = first

def kindOf (s : System) (path : String) : Except Unavailable FileKind :=
  match s.metadata path with
  | .ok kind => .ok kind
  | .error fault => .error (ioUnavailable fault)

/- A directory is listed again with the entries that could be read. -/
def KeepsListing : Except Fault (List (Except Fault String)) →
    Except Fault (List (Except Fault String)) → Prop
  | .ok entries, second => ∃ others, second = .ok others ∧
      List.Forall₂ (fun entry other => ∀ name, entry = .ok name → other = .ok name) entries others
  | .error fault, second => ioUnavailable fault = .missing →
      ∃ other, second = .error other ∧ ioUnavailable other = .missing

namespace Target

def existencePaths : Target M → List String
  | file paths none => paths
  | directory paths none _ => paths
  | _ => []

def listedPaths : Target M → List String
  | directory paths (some _) _ => paths
  | _ => []

/- Files whose content is read, of a directory those within the limit. -/
def readPaths (s : System) : Target M → List String
  | file paths (some _) => paths
  | directory paths (some names) (some _) => paths.flatMap fun path =>
      match s.listDirectory path with
      | .ok entries => (considered names entries).map (entryPath path)
      | .error _ => []
  | _ => []

end Target

structure Answers (target : Target M) (s t : System) : Prop where
  kinds : ∀ path ∈ target.existencePaths, Keeps (kindOf s path) (kindOf t path)
  listings : ∀ path ∈ target.listedPaths, KeepsListing (s.readDir path) (t.readDir path)
  contents : ∀ path ∈ target.readPaths s,
    Keeps (s.readFile fromUtf8Lossy path) (t.readFile fromUtf8Lossy path)

/- The second system answers as the first one what the rules ask of it, and anything where the
   first gives an error or is not asked. -/
structure Extends (rules : List (Rule M)) (s t : System) : Prop where
  platform : t.windows = s.windows
  runs : ∀ command output, s.runWithTimeout fromUtf8Lossy command = .ok output →
    t.runWithTimeout fromUtf8Lossy command = .ok output
  answers : ∀ rule ∈ rules, Answers fromUtf8Lossy rule.target s t

/- Something that could not be read is taken for something that is not there. -/
def PassesOver (s : System) : Target M → Prop
  | .file paths none => (∀ path ∈ paths, s.isKind .file path = false) ∧
      ∃ path ∈ paths, answered (kindOf s path) = false
  | .directory paths none _ => (∀ path ∈ paths, s.isKind .directory path = false) ∧
      ∃ path ∈ paths, answered (kindOf s path) = false
  | .file paths (some content) =>
      ¬ Found (s.readFile fromUtf8Lossy) (fun _ text => (content.find text).isSome) paths ∧
      (∃ path ∈ paths, (s.readFile fromUtf8Lossy path).isOk = true) ∧
      ∃ path ∈ paths, answered (s.readFile fromUtf8Lossy path) = false
  | .directory paths (some names) content =>
      (∃ path ∈ paths, ∃ entries, s.readDir path = .ok entries ∧
        ∃ entry ∈ entries, System.entryName entry = none) ∨
      (¬ Found s.listDirectory (entryHit (s.host fromUtf8Lossy) names content) paths ∧
        (((∃ path ∈ paths, (s.listDirectory path).isOk = true) ∧
            ∃ path ∈ paths, answered (s.listDirectory path) = false) ∨
          ∃ path ∈ (Target.directory paths (some names) content).readPaths s,
            answered (s.readFile fromUtf8Lossy path) = false))
  | .process _ => (s.runWithTimeout fromUtf8Lossy s.processCommand).isOk = false
  | .command _ _ => False
  | .registry key none _ => s.windows = true ∧
      (s.runWithTimeout fromUtf8Lossy ["reg", "query", key]).isOk = false
  | .registry key (some _) _ => s.windows = true ∧
      s.runWithTimeout fromUtf8Lossy ["reg", "query", key] = .error .missing

section Targets
variable {fromUtf8Lossy} {s t : System} {value : Bool}

@[simp] theorem from_eq_true : Truth.from value = .true ↔ value = true := by
  cases value with
  | true => simp [Truth.from]
  | false => simp [Truth.from]

@[simp] theorem from_eq_false : Truth.from value = .false ↔ value = false := by
  cases value with
  | true => simp [Truth.from]
  | false => simp [Truth.from]

theorem from_injective {other : Bool} (same : Truth.from value = Truth.from other) :
    value = other := by
  cases other with
  | true => exact from_eq_true.mp same
  | false => exact from_eq_false.mp same

theorem isKind_of_kindOf {kind : FileKind} {path : String} (same : kindOf t path = kindOf s path) :
    t.isKind kind path = s.isKind kind path := by
  have by_kind : ∀ u : System, u.isKind kind path =
      match kindOf u path with
      | .ok found => found == kind
      | .error _ => false := by
    intro u
    unfold System.isKind kindOf
    cases u.metadata path with
    | ok found => rfl
    | error fault => rfl
  rw [by_kind, by_kind, same]

/- Existence, of a file or of a directory. -/
theorem existence_keeps {kind : FileKind} {paths : List String}
    (kinds : ∀ path ∈ paths, Keeps (kindOf s path) (kindOf t path))
    (clear : ¬ ((∀ path ∈ paths, s.isKind kind path = false) ∧
      ∃ path ∈ paths, answered (kindOf s path) = false))
    (decided : paths.any (s.isKind kind) = value) : paths.any (t.isKind kind) = value := by
  cases value with
  | true =>
    obtain ⟨path, member, there⟩ := List.any_eq_true.mp decided
    have read : answered (kindOf s path) = true := by
      unfold System.isKind at there
      unfold kindOf
      cases found : s.metadata path with
      | ok kind => rfl
      | error fault =>
        rw [found] at there
        cases there
    refine List.any_eq_true.mpr ⟨path, member, ?_⟩
    rw [isKind_of_kindOf (kinds path member read)]
    exact there
  | false =>
    have absent : ∀ path ∈ paths, s.isKind kind path = false := by
      simpa using List.any_eq_false.mp decided
    refine List.any_eq_false.mpr fun path member => ?_
    have read : answered (kindOf s path) = true := by
      by_contra unread
      exact clear ⟨absent, path, member, by simpa using unread⟩
    rw [isKind_of_kindOf (kinds path member read), absent path member]
    decide

/- A search whose answers are kept: what is found is still found, and nothing is found where
   nothing was, when no error was passed over. -/
theorem search_keeps {A : Type} {ask again : String → Except Unavailable A}
    {hit hit' : String → A → Bool} {verb : String} {paths : List String}
    (finds : Found ask hit paths → Found again hit' paths)
    (misses : ¬ Found ask hit paths → (∃ path ∈ paths, (ask path).isOk = true) →
      ¬ Found again hit' paths ∧ ∃ path ∈ paths, (again path).isOk = true)
    (decided : search ask hit verb paths none false = Truth.from value) :
    search again hit' verb paths none false = Truth.from value := by
  cases value with
  | true => exact search_eq_true.mpr (finds (search_eq_true.mp decided))
  | false =>
    refine search_eq_false.mpr ?_
    obtain ⟨missing, nothing | some_read | empty⟩ := search_eq_false.mp decided
    · cases nothing
    · obtain ⟨still_missing, still_read⟩ := misses missing some_read
      exact ⟨still_missing, Or.inr (Or.inl still_read)⟩
    · refine ⟨?_, Or.inr (Or.inr empty)⟩
      rintro ⟨path, member, _⟩
      rw [empty.2] at member
      cases member

theorem answered_of_ok {A : Type} {answer : Except Unavailable A} {a : A} (read : answer = .ok a) :
    answered answer = true := by
  rw [read]
  rfl

theorem files_keep {paths : List String} {content : Content M}
    (keeps : ∀ path ∈ paths,
      Keeps (s.readFile fromUtf8Lossy path) (t.readFile fromUtf8Lossy path))
    (clear : ¬ PassesOver fromUtf8Lossy s (.file paths (some content)))
    (decided : evaluateFiles (s.host fromUtf8Lossy) paths content = Truth.from value) :
    evaluateFiles (t.host fromUtf8Lossy) paths content = Truth.from value := by
  refine search_keeps ?_ ?_ decided
  · rintro ⟨path, member, text, read, hit⟩
    exact ⟨path, member, text, (keeps path member (answered_of_ok read)).trans read, hit⟩
  · intro missing some_read
    have all_answered : ∀ path ∈ paths, t.readFile fromUtf8Lossy path =
        s.readFile fromUtf8Lossy path := by
      intro path member
      refine keeps path member ?_
      by_contra unread
      exact clear ⟨missing, some_read, path, member, by simpa using unread⟩
    constructor
    · rintro ⟨path, member, text, read, hit⟩
      exact missing ⟨path, member, text, (all_answered path member).symm.trans read, hit⟩
    · obtain ⟨path, member, read⟩ := some_read
      exact ⟨path, member, (congrArg Except.isOk (all_answered path member)).trans read⟩

theorem readable_eq {entries others : List (Except Fault String)}
    (readable : ∀ entry ∈ entries, System.entryName entry ≠ none)
    (kept : List.Forall₂ (fun entry other => ∀ name, entry = .ok name → other = .ok name) entries
      others) : others = entries := by
  induction kept with
  | nil => rfl
  | @cons entry other entries others same _ ih =>
    have here := readable entry (List.mem_cons_self ..)
    cases entry with
    | error fault => exact absurd rfl here
    | ok name =>
      rw [same name rfl, ih fun next member => readable next (List.mem_cons_of_mem _ member)]

/- A listing that is answered, and of whose entries none is left out, is the same again. -/
theorem listing_keeps {path : String} (kept : KeepsListing (s.readDir path) (t.readDir path))
    (readable : ∀ entries, s.readDir path = .ok entries →
      ∀ entry ∈ entries, System.entryName entry ≠ none) :
    Keeps (s.listDirectory path) (t.listDirectory path) := by
  intro read
  unfold System.listDirectory at read ⊢
  cases listing : s.readDir path with
  | ok entries =>
    rw [listing] at kept
    obtain ⟨others, again, same⟩ := kept
    rw [again, readable_eq (readable entries listing) same]
  | error fault =>
    rw [listing] at kept read
    cases fault_is : ioUnavailable fault with
    | missing =>
      obtain ⟨other, again, missing⟩ := kept fault_is
      simp only [again, missing, fault_is]
    | other reason =>
      simp only [fault_is] at read
      cases read

theorem mem_readPaths {paths : List String} {names content : Content M} {path name : String}
    {entries : List String} (member : path ∈ paths) (listed : s.listDirectory path = .ok entries)
    (named : name ∈ considered names entries) :
    entryPath path name ∈ (Target.directory paths (some names) (some content)).readPaths s := by
  refine List.mem_flatMap.mpr ⟨path, member, ?_⟩
  rw [listed]
  exact List.mem_map.mpr ⟨name, named, rfl⟩

/- An entry that hits hits again when what was read of it is kept. -/
theorem entryHit_keeps {names : Content M} {content : Option (Content M)} {path : String}
    {entries : List String}
    (keeps : ∀ name ∈ considered names entries, content ≠ none →
      Keeps (s.readFile fromUtf8Lossy (entryPath path name))
        (t.readFile fromUtf8Lossy (entryPath path name)))
    (hit : entryHit (s.host fromUtf8Lossy) names content path entries = true) :
    entryHit (t.host fromUtf8Lossy) names content path entries = true := by
  obtain ⟨name, named, found⟩ := List.any_eq_true.mp hit
  refine List.any_eq_true.mpr ⟨name, named, ?_⟩
  cases content with
  | none => rfl
  | some content =>
    dsimp only [System.host] at found ⊢
    cases read : s.readFile fromUtf8Lossy (entryPath path name) with
    | error reason =>
      rw [read] at found
      cases found
    | ok text =>
      rw [read] at found
      rw [keeps name named (Option.some_ne_none content) (answered_of_ok read), read]
      exact found

theorem directories_keep {paths : List String} {names : Content M} {content : Option (Content M)}
    (listings : ∀ path ∈ paths, KeepsListing (s.readDir path) (t.readDir path))
    (contents : ∀ path ∈ (Target.directory paths (some names) content).readPaths s,
      Keeps (s.readFile fromUtf8Lossy path) (t.readFile fromUtf8Lossy path))
    (clear : ¬ PassesOver fromUtf8Lossy s (.directory paths (some names) content))
    (decided : evaluateDirectories (s.host fromUtf8Lossy) paths names content = Truth.from value) :
    evaluateDirectories (t.host fromUtf8Lossy) paths names content = Truth.from value := by
  have listed : ∀ path ∈ paths, Keeps (s.listDirectory path) (t.listDirectory path) := by
    refine fun path member => listing_keeps (listings path member) ?_
    intro entries read entry in_entries unread
    exact clear (Or.inl ⟨path, member, entries, read, entry, in_entries, unread⟩)
  have asked : ∀ path ∈ paths, ∀ entries, s.listDirectory path = .ok entries →
      ∀ name ∈ considered names entries, content ≠ none →
        entryPath path name ∈ (Target.directory paths (some names) content).readPaths s := by
    intro path member entries read name named some_content
    obtain ⟨content, rfl⟩ := Option.ne_none_iff_exists'.mp some_content
    exact mem_readPaths member read named
  refine search_keeps ?_ ?_ decided
  · rintro ⟨path, member, entries, read, hit⟩
    refine ⟨path, member, entries, (listed path member (answered_of_ok read)).trans read, ?_⟩
    refine entryHit_keeps (fun name named some_content => ?_) hit
    exact contents _ (asked path member entries read name named some_content)
  · intro missing some_read
    have all_listed : ∀ path ∈ paths, t.listDirectory path = s.listDirectory path := by
      intro path member
      refine listed path member ?_
      by_contra unread
      exact clear (Or.inr ⟨missing, Or.inl ⟨some_read, path, member, by simpa using unread⟩⟩)
    have all_read : ∀ path ∈ (Target.directory paths (some names) content).readPaths s,
        t.readFile fromUtf8Lossy path = s.readFile fromUtf8Lossy path := by
      intro path member
      refine contents path member ?_
      by_contra unread
      exact clear (Or.inr ⟨missing, Or.inr ⟨path, member, by simpa using unread⟩⟩)
    constructor
    · rintro ⟨path, member, entries, read, hit⟩
      have read_before : s.listDirectory path = .ok entries :=
        (all_listed path member).symm.trans read
      refine missing ⟨path, member, entries, read_before, ?_⟩
      refine entryHit_keeps (fun name named some_content => ?_) hit
      rintro -
      exact (all_read _ (asked path member entries read_before name named some_content)).symm
    · obtain ⟨path, member, read⟩ := some_read
      exact ⟨path, member, (congrArg Except.isOk (all_listed path member)).trans read⟩

section Programs
variable (platform : t.windows = s.windows)
  (runs : ∀ command output, s.runWithTimeout fromUtf8Lossy command = .ok output →
    t.runWithTimeout fromUtf8Lossy command = .ok output)
include platform runs

theorem processes_keep (answers : (s.runWithTimeout fromUtf8Lossy s.processCommand).isOk = true) :
    t.processes fromUtf8Lossy = s.processes fromUtf8Lossy := by
  have command : t.processCommand = s.processCommand := by
    unfold System.processCommand
    rw [platform]
  unfold System.processes
  cases read : s.runWithTimeout fromUtf8Lossy s.processCommand with
  | error reason =>
    rw [read] at answers
    cases answers
  | ok output => rw [command, runs _ _ read, platform]

omit platform in
theorem command_keeps {command : List String} {content : Option (Content M)}
    (decided : evaluateCommand (s.host fromUtf8Lossy) command content = Truth.from value) :
    evaluateCommand (t.host fromUtf8Lossy) command content = Truth.from value := by
  unfold evaluateCommand System.host at decided ⊢
  dsimp only at decided ⊢
  cases read : s.runWithTimeout fromUtf8Lossy command with
  | ok output =>
    rw [read] at decided
    rw [runs _ _ read]
    exact decided
  | error reason =>
    rw [read] at decided
    cases reason with
    | missing => cases value with
      | true => cases decided
      | false => cases decided
    | other text => cases value with
      | true => cases decided
      | false => cases decided

/- The registry is read by a program: what it prints is kept, and that it fails is no answer. -/
theorem registryValues_keep {key : String} (windows : s.windows = true) {output : String}
    (read : s.runWithTimeout fromUtf8Lossy ["reg", "query", key] = .ok output) :
    t.registryValues fromUtf8Lossy key = s.registryValues fromUtf8Lossy key := by
  unfold System.registryValues
  rw [platform, windows, read, runs _ _ read]

theorem registry_keeps {key : String} {entry : Option String} {content : Option (Content M)}
    (clear : ¬ PassesOver fromUtf8Lossy s (.registry key entry content))
    (decided : evaluateRegistry (s.host fromUtf8Lossy) key entry content = Truth.from value) :
    evaluateRegistry (t.host fromUtf8Lossy) key entry content = Truth.from value := by
  have unknown_not (reason : String) : Truth.unknown reason ≠ Truth.from value := by
    cases value with
    | true => exact fun same => Truth.noConfusion same
    | false => exact fun same => Truth.noConfusion same
  cases windows : s.windows with
  | false =>
    cases entry with
    | none => simp [evaluateRegistry, System.host, System.registryKeyExists, windows,
        System.noRegistry, unknown_not] at decided
    | some name => simp [evaluateRegistry, System.host, System.registryValues, windows,
        System.noRegistry, unknown_not] at decided
  | true =>
    cases read : s.runWithTimeout fromUtf8Lossy ["reg", "query", key] with
    | ok output =>
      have values := registryValues_keep platform runs windows read
      have exist : t.registryKeyExists fromUtf8Lossy key =
          s.registryKeyExists fromUtf8Lossy key := by
        rw [System.registryKeyExists, System.registryKeyExists, platform, values]
      simp only [evaluateRegistry, System.host] at decided ⊢
      rw [exist, values]
      exact decided
    | error reason =>
      cases entry with
      | none =>
        refine absurd ⟨windows, ?_⟩ clear
        rw [read]
        rfl
      | some name =>
        cases reason with
        | missing => exact absurd ⟨windows, read⟩ clear
        | other text => simp [evaluateRegistry, System.host, System.registryValues, windows, read,
            unknown_not] at decided

end Programs

/- A rule that passes over nothing and has an answer keeps it. -/
theorem target_keeps {rules : List (Rule M)} (more : Extends fromUtf8Lossy rules s t)
    {rule : Rule M} (member : rule ∈ rules) (clear : ¬ PassesOver fromUtf8Lossy s rule.target)
    (decided : evaluateTarget (s.host fromUtf8Lossy) rule.target = Truth.from value) :
    evaluateTarget (t.host fromUtf8Lossy) rule.target = Truth.from value := by
  obtain ⟨kinds, listings, contents⟩ := more.answers rule member
  cases target : rule.target with
  | file paths content =>
    rw [target] at kinds contents clear decided
    cases content with
    | none =>
      exact congrArg Truth.from (existence_keeps kinds clear (from_injective decided))
    | some content => exact files_keep contents clear decided
  | directory paths names content =>
    rw [target] at kinds listings contents clear decided
    cases names with
    | none =>
      exact congrArg Truth.from (existence_keeps kinds clear (from_injective decided))
    | some names => exact directories_keep listings contents clear decided
  | process pattern =>
    rw [target] at clear decided
    have processes := processes_keep more.platform more.runs (by simpa [PassesOver] using clear)
    simp only [evaluateTarget, System.host] at decided ⊢
    rw [processes]
    exact decided
  | command command content =>
    rw [target] at decided
    exact command_keeps more.runs decided
  | registry key entry content =>
    rw [target] at clear decided
    exact registry_keeps more.platform more.runs clear decided

theorem rule_keeps {rules : List (Rule M)} (more : Extends fromUtf8Lossy rules s t)
    {rule : Rule M} (member : rule ∈ rules) (clear : ¬ PassesOver fromUtf8Lossy s rule.target)
    (decided : rule.evaluate (s.host fromUtf8Lossy) = Truth.from value) :
    rule.evaluate (t.host fromUtf8Lossy) = Truth.from value := by
  have inverted (truth : Truth) (other : Bool) : truth.inverted = Truth.from other ↔
      truth = Truth.from !other := by
    cases truth with
    | true => cases other with
      | true => simp [Truth.inverted, Truth.from]
      | false => simp [Truth.inverted, Truth.from]
    | false => cases other with
      | true => simp [Truth.inverted, Truth.from]
      | false => simp [Truth.inverted, Truth.from]
    | unknown reason => cases other with
      | true => simp [Truth.inverted, Truth.from]
      | false => simp [Truth.inverted, Truth.from]
  unfold Rule.evaluate at decided ⊢
  cases negated : rule.negated with
  | true =>
    rw [negated, if_pos rfl, inverted] at decided
    rw [if_pos rfl, inverted]
    exact target_keeps more member clear decided
  | false =>
    rw [negated, if_neg Bool.false_ne_true] at decided
    rw [if_neg Bool.false_ne_true]
    exact target_keeps more member clear decided

end Targets

/-! The rules of a check together. -/

/- The value of a rule that decides a check by itself. -/
def deciding : Condition → Bool
  | .all => false
  | .any => true
  | .none => true

/- What it decides, and what the check comes to when every rule has the other value. -/
def decidedBy : Condition → Outcome
  | .all => .failed
  | .any => .passed
  | .none => .failed

def undecidedBy : Condition → Outcome
  | .all => .passed
  | .any => .failed
  | .none => .passed

section Combine
variable {condition : Condition} {truths : List Truth}

theorem combine_eq (condition : Condition) (truths : List Truth) : combine condition truths =
    if Truth.from (deciding condition) ∈ truths then decidedBy condition
    else match truths.findSome? reasonOf with
      | some reason => .notApplicable reason
      | none => undecidedBy condition := by
  by_cases here : Truth.from (deciding condition) ∈ truths
  · have found : truths.contains (Truth.from (deciding condition)) = true := by simpa using here
    rw [if_pos here]
    unfold combine
    cases condition with
    | all => rw [show truths.contains Truth.false = true from found]; rfl
    | any => rw [show truths.contains Truth.true = true from found]; rfl
    | none => rw [show truths.contains Truth.true = true from found]; rfl
  · have absent : truths.contains (Truth.from (deciding condition)) = false := by simpa using here
    rw [if_neg here]
    unfold combine
    cases truths.findSome? reasonOf with
    | none =>
      cases condition with
      | all => rw [show truths.contains Truth.false = false from absent]; rfl
      | any => rw [show truths.contains Truth.true = false from absent]; rfl
      | none => rw [show truths.contains Truth.true = false from absent]; rfl
    | some reason =>
      cases condition with
      | all => rw [show truths.contains Truth.false = false from absent]; rfl
      | any => rw [show truths.contains Truth.true = false from absent]; rfl
      | none => rw [show truths.contains Truth.true = false from absent]; rfl

theorem undecided_ne_decided (condition : Condition) :
    undecidedBy condition ≠ decidedBy condition := by
  cases condition with
  | all => decide
  | any => decide
  | none => decide

theorem combine_eq_decided : combine condition truths = decidedBy condition ↔
    Truth.from (deciding condition) ∈ truths := by
  rw [combine_eq]
  by_cases here : Truth.from (deciding condition) ∈ truths
  · simp [here]
  · rw [if_neg here]
    refine iff_of_false ?_ here
    split
    · cases condition with
      | all => exact fun same => Outcome.noConfusion same
      | any => exact fun same => Outcome.noConfusion same
      | none => exact fun same => Outcome.noConfusion same
    · exact undecided_ne_decided condition

theorem reasonOf_eq_none {truth : Truth} (value : Bool) : reasonOf truth = none ↔
    truth = Truth.from value ∨ truth = Truth.from !value := by
  cases truth with
  | true => cases value with
    | true => simp [reasonOf, Truth.from]
    | false => simp [reasonOf, Truth.from]
  | false => cases value with
    | true => simp [reasonOf, Truth.from]
    | false => simp [reasonOf, Truth.from]
  | unknown reason => cases value with
    | true => simp [reasonOf, Truth.from]
    | false => simp [reasonOf, Truth.from]

theorem combine_eq_undecided : combine condition truths = undecidedBy condition ↔
    ∀ truth ∈ truths, truth = Truth.from !(deciding condition) := by
  have distinct : Truth.from (deciding condition) ≠ Truth.from !(deciding condition) := by
    intro same
    have flipped := from_injective same
    cases value : deciding condition with
    | true => simp [value] at flipped
    | false => simp [value] at flipped
  rw [combine_eq]
  constructor
  · intro outcome truth member
    split at outcome
    · exact absurd outcome (undecided_ne_decided condition).symm
    · rename_i absent
      split at outcome
      · cases condition with
        | all => cases outcome
        | any => cases outcome
        | none => cases outcome
      · rename_i none_unknown
        have no_reason := List.findSome?_eq_none_iff.mp none_unknown truth member
        obtain here | other := (reasonOf_eq_none (deciding condition)).mp no_reason
        · exact absurd (here ▸ member) absent
        · exact other
  · intro all
    have absent : Truth.from (deciding condition) ∉ truths := fun member =>
      distinct (all _ member)
    have none_unknown : truths.findSome? reasonOf = none := by
      refine List.findSome?_eq_none_iff.mpr fun truth member => ?_
      exact (reasonOf_eq_none _).mpr (Or.inr (all truth member))
    rw [if_neg absent, none_unknown]

/- The rules without an answer, all of one value. -/
def fill (value : Bool) (truth : Truth) : Truth :=
  if reasonOf truth = none then truth else Truth.from value

theorem combine_notApplicable {reason : String}
    (outcome : combine condition truths = .notApplicable reason) :
    Truth.from (deciding condition) ∉ truths ∧ ∃ truth ∈ truths, reasonOf truth = some reason := by
  have absent : Truth.from (deciding condition) ∉ truths := by
    intro member
    rw [combine_eq_decided.mpr member] at outcome
    cases condition with
    | all => cases outcome
    | any => cases outcome
    | none => cases outcome
  rw [combine_eq, if_neg absent] at outcome
  split at outcome
  · rename_i other found
    cases outcome
    exact ⟨absent, List.exists_of_findSome?_eq_some found⟩
  · cases condition with
    | all => cases outcome
    | any => cases outcome
    | none => cases outcome

/- Without an answer the check is left open by the rules that have one: with the others all of one
   value it would come out one way, and the other way with the other value. -/
theorem combine_open {reason : String} (outcome : combine condition truths = .notApplicable reason) :
    combine condition (truths.map (fill (deciding condition))) = decidedBy condition ∧
      combine condition (truths.map (fill !(deciding condition))) = undecidedBy condition := by
  obtain ⟨absent, unanswered, member, unknown⟩ := combine_notApplicable outcome
  rw [combine_eq_decided, combine_eq_undecided]
  constructor
  · refine List.mem_map.mpr ⟨unanswered, member, ?_⟩
    rw [fill, unknown, if_neg (Option.some_ne_none reason)]
  · intro filled filled_member
    obtain ⟨truth, in_truths, rfl⟩ := List.mem_map.mp filled_member
    unfold fill
    split
    · rename_i answer
      obtain here | other := (reasonOf_eq_none (deciding condition)).mp answer
      · exact absurd (here ▸ in_truths) absent
      · exact other
    · rfl

end Combine

def outcomeOn (condition : Condition) (rules : List (Rule M)) (s : System) : Outcome :=
  (evaluate condition rules (s.host fromUtf8Lossy)).1

/- An outcome is the one of every system that answers what this one does. -/
def Settled (condition : Condition) (rules : List (Rule M)) (s : System) : Prop :=
  ∀ t, Extends fromUtf8Lossy rules s t →
    outcomeOn fromUtf8Lossy condition rules s = .passed ∨
      outcomeOn fromUtf8Lossy condition rules s = .failed →
    outcomeOn fromUtf8Lossy condition rules t = outcomeOn fromUtf8Lossy condition rules s

/- The check has no outcome only when the rules with an answer decide none. -/
def OpenOnly (condition : Condition) (rules : List (Rule M)) (s : System) : Prop :=
  ∀ reason, outcomeOn fromUtf8Lossy condition rules s = .notApplicable reason →
    let truths := rules.map fun rule => rule.evaluate (s.host fromUtf8Lossy)
    combine condition (truths.map (fill (deciding condition))) = decidedBy condition ∧
      combine condition (truths.map (fill !(deciding condition))) = undecidedBy condition

/- No rule passes over what could not be read, or one that does not decides the check. -/
def Clear (condition : Condition) (rules : List (Rule M)) (s : System) : Prop :=
  (∀ rule ∈ rules, ¬ PassesOver fromUtf8Lossy s rule.target) ∨
    ∃ rule ∈ rules, ¬ PassesOver fromUtf8Lossy s rule.target ∧
      rule.evaluate (s.host fromUtf8Lossy) = Truth.from (deciding condition)

section Examples

/- Literal terms only. -/
def literals : Matching where
  Regex := Empty
  Number := Empty
  isMatch := fun _ _ => false
  captured := fun _ _ => none
  parse := fun _ => none
  holds := fun _ _ _ => false

/- The text of bytes below 128. -/
def ascii (bytes : List UInt8) : String := String.ofList (bytes.map fun byte => Char.ofNat byte.toNat)

def bytesOf (text : String) : List UInt8 := text.toList.map fun c => UInt8.ofNat c.toNat

def denied : Fault := .other "permission denied"

def lineOf (line : String) : Content literals := ⟨[(false, .equals line)]⟩

def systemWith (contents : String → Except Fault (List UInt8)) (execute : List String → Ran) :
    System where
  windows := false
  metadata := fun _ => .ok .file
  contents := contents
  readDir := fun _ => .ok [.ok "job"]
  execute := execute

def notRun : List String → Ran := fun _ => .notStarted denied

/- `not p:telnetd`. -/
def noTelnet : Rule literals := ⟨"not p:telnetd", true, .process (.equals "telnetd")⟩

/- `not f:/a,/b -> root`. -/
def noRoot : Rule literals := ⟨"not f:/a,/b -> root", true, .file ["/a", "/b"] (some (lineOf "root"))⟩

/- `not d:/cron -> job -> root`. -/
def noJob : Rule literals :=
  ⟨"not d:/cron -> job -> root", true, .directory ["/cron"] (some (lineOf "job")) (some (lineOf "root"))⟩

def unreadable : System :=
  systemWith (fun path => if path = "/a" then .ok (bytesOf "user") else .error denied) notRun

def readable : System :=
  systemWith (fun path => .ok (bytesOf (if path = "/a" then "user" else "root")))
    (fun _ => .finished (bytesOf "telnetd") [])

theorem nothing_runs (command : List String) (output : String) :
    unreadable.runWithTimeout ascii command ≠ .ok output := by
  unfold System.runWithTimeout
  split
  · exact fun same => by cases same
  · exact fun same => by cases same

theorem readable_extends {rule : Rule literals}
    (answers : Answers ascii rule.target unreadable readable) :
    Extends ascii [rule] unreadable readable where
  platform := rfl
  runs := fun command output read => absurd read (nothing_runs command output)
  answers := fun other member => by
    rw [List.mem_singleton.mp member]
    exact answers

end Examples

end SentinelAgent.Sca
