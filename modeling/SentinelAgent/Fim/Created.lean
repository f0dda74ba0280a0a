import SentinelAgent.Fim.Scanner
import SentinelAgent.Fim.Replay
import SentinelAgent.Fim.SameFiles

/- A file reported as created, against what the earlier scan would have held: the scan over the
   disk as it was, with the file there already. -/
namespace SentinelAgent.Fim

/- A tree with a file put at that place below its first node: somewhere in its directory, the
   directories that are missing made, in place of what else stood in the way. -/
inductive Placed : Option Node → List String → Node → Prop where
  | here (old : Option Node) : Placed old [] .file
  | made {old : Option Node} {name : String} {rest : List String} {new : Node}
      (blocked : ∀ entries, old ≠ some (.dir entries)) (inner : Placed none rest new) :
      Placed old (name :: rest) (.dir [(name, new)])
  | added {before after : List (String × Node)} {name : String} {rest : List String} {new : Node}
      (fresh : ∀ entry ∈ before ++ after, entry.1 ≠ name) (inner : Placed none rest new) :
      Placed (some (.dir (before ++ after))) (name :: rest) (.dir (before ++ (name, new) :: after))
  | inside {before after : List (String × Node)} {name : String} {rest : List String}
      {old new : Node} (inner : Placed (some old) rest new) :
      Placed (some (.dir (before ++ (name, old) :: after))) (name :: rest)
        (.dir (before ++ (name, new) :: after))

/- A reading that finds a regular file. -/
def Stat.isFile : Stat → Bool
  | .found _ .failed => false
  | .found metadata _ => metadata.isFile
  | _ => false

/- The disk with the file there. -/
structure HasFile (scope : List Path) (file : Path) (disk other : Disk) : Prop where
  resolve : other.resolve = disk.resolve
  placed : ∀ root ∈ scope, ∀ rest, file = root ++ rest →
    ∃ node, other.tree root = some node ∧ Placed (disk.tree root) rest node
  elsewhere : ∀ root ∈ scope, ¬ root <+: file → other.tree root = disk.tree root
  read : ∀ path, path ≠ file → other.read path = disk.read path
  found : (other.read file).stat.isFile = true

/- Held after the earlier scan, wherever in the listings the file had been. -/
def Held (host : Host) (policy : FimPolicy) (disk : Disk) (m : BaselineManager) (file : Path) :
    Prop :=
  ∀ other, HasFile (disk.scope policy) file disk other →
    ((scan host policy other m).manager.entries.lookup file).isSome = true

def ReportedCreated (alerts : List FimAlert) (file : Path) : Prop :=
  ∃ alert ∈ alerts, alert.change = .created ∧ alert.path = file

/- The scan meets the file while the baseline still has room. -/
def MetWithRoom (host : Host) (policy : FimPolicy) (disk : Disk) (m : BaselineManager)
    (file : Path) : Prop :=
  ∃ before after, disk.files host policy = before ++ file :: after ∧ file ∉ before ∧
    (walkFiles host disk.read m before).manager.entries.size < maxBaselineFiles

/- A regular file without an entry, met with room. -/
structure TakenIn (host : Host) (policy : FimPolicy) (disk : Disk) (m : BaselineManager)
    (file : Path) : Prop where
  unrecorded : m.entries.lookup file = none
  found : (disk.read file).stat.isFile = true
  met : MetWithRoom host policy disk m file

/- Below a watched path, not too deep, through no ignored directory. -/
def InReach (host : Host) (policy : FimPolicy) (scope : List Path) (file : Path) : Prop :=
  ∃ root ∈ scope, ∃ rest, file = root ++ rest ∧ rest.length ≤ policy.depth ∧
    Open host.letters policy.ignorePatterns root rest

/- The walk has room left when it comes to the file, wherever that had been. -/
def RoomFor (host : Host) (policy : FimPolicy) (disk : Disk) (m : BaselineManager)
    (file : Path) : Prop :=
  ∀ other, HasFile (disk.scope policy) file disk other → MetWithRoom host policy other m file

section Placed
variable {old : Option Node} {new : Node} {rest : List String}

theorem placed_holds (placed : Placed old rest new) : new.Holds rest .file := by
  induction placed with
  | here old => rfl
  | made blocked inner ih => exact ⟨_, List.mem_singleton_self _, rfl, ih⟩
  | added fresh inner ih =>
    exact ⟨_, List.mem_append_right _ List.mem_cons_self, rfl, ih⟩
  | inside inner ih =>
    exact ⟨_, List.mem_append_right _ List.mem_cons_self, rfl, ih⟩

theorem exists_placed (old : Option Node) (rest : List String) : ∃ new, Placed old rest new := by
  induction rest generalizing old with
  | nil => exact ⟨.file, .here old⟩
  | cons name rest ih =>
    by_cases directory : ∃ entries, old = some (.dir entries)
    · obtain ⟨entries, rfl⟩ := directory
      by_cases listed : ∃ entry ∈ entries, entry.1 = name
      · obtain ⟨⟨_, inner⟩, member, rfl⟩ := listed
        obtain ⟨before, after, rfl⟩ := List.append_of_mem member
        obtain ⟨new, placed⟩ := ih (some inner)
        exact ⟨_, .inside placed⟩
      · obtain ⟨new, placed⟩ := ih none
        have fresh : ∀ entry ∈ entries ++ [], entry.1 ≠ name := by
          intro entry member same
          rw [List.append_nil] at member
          exact listed ⟨entry, member, same⟩
        have added := Placed.added fresh placed
        rw [List.append_nil] at added
        exact ⟨_, added⟩
    · obtain ⟨new, placed⟩ := ih none
      exact ⟨_, .made (fun entries same => directory ⟨entries, same⟩) placed⟩

end Placed

/- The file could have been there. -/
theorem exists_hasFile (scope : List Path) (file : Path) (disk : Disk) :
    ∃ other, HasFile scope file disk other := by
  classical
  have node : ∀ root : Path, ∃ tree : Option Node,
      (∀ rest, file = root ++ rest → ∃ node, tree = some node ∧ Placed (disk.tree root) rest node) ∧
        (¬ root <+: file → tree = disk.tree root) := by
    intro root
    by_cases within : root <+: file
    · obtain ⟨rest, same⟩ := within
      obtain ⟨new, placed⟩ := exists_placed (disk.tree root) rest
      refine ⟨some new, ?_, fun outside => absurd ⟨rest, same⟩ outside⟩
      intro other its
      rw [List.append_cancel_left (its.symm.trans same.symm)]
      exact ⟨new, rfl, placed⟩
    · refine ⟨disk.tree root, ?_, fun _ => rfl⟩
      intro rest same
      exact absurd ⟨rest, same.symm⟩ within
  choose tree within outside using node
  refine ⟨{ disk with
    tree := tree
    read := fun path => if path = file then emptyFile else disk.read path }, ?_⟩
  refine ⟨rfl, fun root _ => within root, fun root _ => outside root, ?_, ?_⟩
  · intro path differs
    exact if_neg differs
  · simp [emptyFile, Stat.isFile]

section Walk
variable {host : Host} {read : Path → Reading} {file : Path}

/- Whether a change is the file's creation. -/
def CreatedIn (changes : List Observation) (file : Path) : Prop :=
  ∃ new, .created new ∈ changes ∧ new.path = file

/- Nothing happened to the file between the two. -/
structure Untouched (file : Path) (s s' : Scanning) : Prop where
  entry : s'.manager.entries.lookup file = s.manager.entries.lookup file
  created : CreatedIn s'.report.changes file ↔ CreatedIn s.report.changes file

theorem untouched_refl (s : Scanning) : Untouched file s s := ⟨rfl, Iff.rfl⟩

theorem untouched_trans {s s' s'' : Scanning} (first : Untouched file s s')
    (second : Untouched file s' s'') : Untouched file s s'' :=
  ⟨second.entry.trans first.entry, second.created.trans first.created⟩

theorem isFile_iff (host : Host) (keepText : Bool) (now : Int) (path : Path) {stat : Stat} :
    stat.isFile = true ↔ ∃ new text, readState host keepText now path stat = .present new text := by
  cases stat with
  | gone => simp [Stat.isFile, readState]
  | failed => simp [Stat.isFile, readState]
  | found metadata contents =>
    cases contents with
    | bytes b =>
      cases file : metadata.isFile with
      | true => simp [Stat.isFile, readState, file]
      | false => simp [Stat.isFile, readState, file]
    | denied =>
      cases file : metadata.isFile with
      | true => simp [Stat.isFile, readState, file]
      | false => simp [Stat.isFile, readState, file]
    | failed =>
      cases file : metadata.isFile with
      | true => simp [Stat.isFile, readState, file]
      | false => simp [Stat.isFile, readState, file]

theorem present_path {keepText : Bool} {now : Int} {path : Path} {stat : Stat} {new : FimBaseline}
    {text : Option Bytes} (present : readState host keepText now path stat = .present new text) :
    new.path = path := by
  unfold readState at present
  split at present
  · cases present
  · cases present
  · split at present
    · cases present
    · split at present
      · cases present
      · cases present
        rfl
      · cases present
        rfl

/- A reading is a creation when it finds a regular file that has no entry. -/
theorem record_created {entries : Entries} {key : Path} {reading : Reading} {keepText : Bool}
    {new : FimBaseline} :
    (record entries key (readState host keepText reading.now key reading.stat)).2 = .created new →
      new.path = key ∧ entries.lookup key = none ∧ reading.stat.isFile = true := by
  intro created
  cases state : readState host keepText reading.now key reading.stat with
  | unreadable =>
    rw [state] at created
    cases created
  | missing =>
    rw [state] at created
    simp only [record] at created
    split at created
    · cases created
    · cases created
  | present found text =>
    rw [state] at created
    simp only [record] at created
    split at created
    · rename_i absent
      cases created
      exact ⟨present_path state, absent, (isFile_iff host keepText reading.now key).mpr ⟨_, _, state⟩⟩
    · split at created
      · cases created
      · cases created

theorem createdIn_append {changes : List Observation} {observation : Observation} {file : Path} :
    CreatedIn (changes ++ if observation.isChange = true then [observation] else []) file ↔
      CreatedIn changes file ∨ ∃ new, observation = .created new ∧ new.path = file := by
  constructor
  · intro ⟨new, member, its⟩
    rcases List.mem_append.mp member with before | last
    · exact Or.inl ⟨new, before, its⟩
    · split at last
      · exact Or.inr ⟨new, (List.mem_singleton.mp last).symm, its⟩
      · cases last
  · rintro (⟨new, member, its⟩ | ⟨new, rfl, its⟩)
    · exact ⟨new, List.mem_append_left _ member, its⟩
    · exact ⟨new, List.mem_append_right _ List.mem_cons_self, its⟩

theorem observe_untouched {s : Scanning} {key : Path} {reading : Reading} (differs : file ≠ key) :
    Untouched file s (s.observe host key reading) := by
  refine ⟨record_other differs, ?_⟩
  simp only [Scanning.observe, createdIn_append, or_iff_left_iff_imp]
  intro ⟨new, created, its⟩
  exact absurd (its.symm.trans (record_created created).1) differs

theorem visit_untouched {s : Scanning} {path : Path} (apart : file ≠ path ∨ file ∈ s.visited) :
    Untouched file s (visit host read s path) := by
  unfold visit
  split
  · exact untouched_refl s
  · rename_i fresh
    have differs : file ≠ path := by
      rcases apart with differs | visited
      · exact differs
      · exact fun same => fresh (same ▸ visited)
    simp only
    split
    · exact ⟨rfl, Iff.rfl⟩
    · exact ⟨(observe_untouched differs).entry.trans rfl,
        (observe_untouched differs).created.trans Iff.rfl⟩

theorem mem_visited (files : List Path) (s : Scanning) :
    file ∈ (files.foldl (visit host read) s).visited ↔ file ∈ s.visited ∨ file ∈ files := by
  induction files generalizing s with
  | nil => simp
  | cons path files ih =>
    rw [List.foldl_cons, ih, visit_visited, List.mem_cons]
    split
    · rename_i there
      constructor
      · rintro (visited | later)
        · exact Or.inl visited
        · exact Or.inr (Or.inr later)
      · rintro (visited | rfl | later)
        · exact Or.inl visited
        · exact Or.inl there
        · exact Or.inr later
    · rw [List.mem_append, List.mem_singleton, or_assoc]

theorem visits_untouched (files : List Path) {s : Scanning}
    (apart : file ∉ files ∨ file ∈ s.visited) :
    Untouched file s (files.foldl (visit host read) s) := by
  induction files generalizing s with
  | nil => exact untouched_refl s
  | cons path files ih =>
    have first : Untouched file s (visit host read s path) := by
      apply visit_untouched
      rcases apart with absent | visited
      · exact Or.inl fun same => absent (same ▸ List.mem_cons_self)
      · exact Or.inr visited
    refine untouched_trans first (ih ?_)
    rcases apart with absent | visited
    · exact Or.inl fun later => absent (List.mem_cons_of_mem path later)
    · right
      rw [visit_visited]
      split
      · exact visited
      · exact List.mem_append_left _ visited

theorem record_present {entries : Entries} {key : Path} {new : FimBaseline} {text : Option Bytes} :
    (((record entries key (.present new text)).1.lookup key).isSome = true ↔
      (entries.lookup key).isSome = true ∨ entries.size < maxBaselineFiles) ∧
    ((∃ old, (record entries key (.present new text)).2 = .created old) ↔
      entries.lookup key = none) := by
  simp only [record]
  cases there : entries.lookup key with
  | none =>
    simp only
    by_cases room : entries.size < maxBaselineFiles
    · simp [room]
    · simp [room, there]
  | some old =>
    simp only
    split
    · split
      · simp
      · simp [there]
    · simp

/- What is no regular file is not created. -/
theorem visits_create_nothing (lost : (read file).stat.isFile = false) (files : List Path)
    {s : Scanning} :
    CreatedIn (files.foldl (visit host read) s).report.changes file ↔
      CreatedIn s.report.changes file := by
  induction files generalizing s with
  | nil => exact Iff.rfl
  | cons path files ih =>
    rw [List.foldl_cons, ih]
    by_cases here : file = path
    · rw [← here]
      unfold visit
      split
      · exact Iff.rfl
      · simp only
        split
        · exact Iff.rfl
        · simp only [Scanning.observe, createdIn_append, or_iff_left_iff_imp]
          intro ⟨new, created, _⟩
          rw [(record_created created).2.2] at lost
          cases lost
    · exact (visit_untouched (Or.inl here)).created

/- The first visit of a regular file. -/
theorem visit_here {s : Scanning} (fresh : file ∉ s.visited)
    (found : (read file).stat.isFile = true) :
    (((visit host read s file).manager.entries.lookup file).isSome = true ↔
      (s.manager.entries.lookup file).isSome = true ∨ s.manager.entries.size < maxBaselineFiles) ∧
    (CreatedIn (visit host read s file).report.changes file ↔
      CreatedIn s.report.changes file ∨
        (s.manager.entries.lookup file = none ∧ s.manager.entries.size < maxBaselineFiles)) := by
  obtain ⟨new, text, present⟩ :=
    (isFile_iff host s.manager.content.isSome (read file).now file).mp found
  obtain ⟨recorded, creation⟩ := @record_present s.manager.entries file new text
  rw [← present] at recorded creation
  unfold visit
  rw [if_neg fresh]
  simp only
  by_cases full : s.manager.entries.size ≥ maxBaselineFiles ∧ s.manager.entries.lookup file = none
  · rw [if_pos full]
    have no_room := Nat.not_lt.mpr full.1
    simp only [no_room, and_false, or_false, and_self]
  · rw [if_neg full]
    refine ⟨recorded, ?_⟩
    have room : s.manager.entries.lookup file = none →
        s.manager.entries.size < maxBaselineFiles :=
      fun absent => Nat.lt_of_not_le fun at_limit => full ⟨at_limit, absent⟩
    simp only [Scanning.observe, createdIn_append]
    apply or_congr_right
    constructor
    · intro ⟨old, created, _⟩
      have absent := creation.mp ⟨old, created⟩
      exact ⟨absent, room absent⟩
    · intro ⟨absent, _⟩
      obtain ⟨old, created⟩ := creation.mpr absent
      exact ⟨old, created, (record_created created).1⟩

theorem walk_unvisited {m : BaselineManager} {before : List Path} (fresh : file ∉ before) :
    file ∉ (walkFiles host read m before).visited := by
  intro visited
  rcases (mem_visited before (startScan m)).mp visited with nothing | listed
  · cases nothing
  · exact fresh listed

theorem walk_onward (m : BaselineManager) (before after : List Path) :
    walkFiles host read m (before ++ file :: after) =
      after.foldl (visit host read) (visit host read (walkFiles host read m before) file) := by
  simp only [walkFiles, List.foldl_append, List.foldl_cons]

/- What a walk does with a regular file it meets. -/
theorem walk_here {m : BaselineManager} {before after : List Path} (fresh : file ∉ before)
    (found : (read file).stat.isFile = true) :
    (((walkFiles host read m (before ++ file :: after)).manager.entries.lookup file).isSome = true ↔
      (m.entries.lookup file).isSome = true ∨
        (walkFiles host read m before).manager.entries.size < maxBaselineFiles) ∧
    (CreatedIn (walkFiles host read m (before ++ file :: after)).report.changes file ↔
      m.entries.lookup file = none ∧
        (walkFiles host read m before).manager.entries.size < maxBaselineFiles) := by
  have start : Untouched file (startScan m) (walkFiles host read m before) :=
    visits_untouched before (Or.inl fresh)
  have unvisited : file ∉ (walkFiles host read m before).visited := walk_unvisited fresh
  have visited : file ∈ (visit host read (walkFiles host read m before) file).visited := by
    rw [visit_visited, if_neg unvisited]
    exact List.mem_append_right _ List.mem_cons_self
  have rest : Untouched file (visit host read (walkFiles host read m before) file)
      (walkFiles host read m (before ++ file :: after)) := by
    rw [walk_onward]
    exact visits_untouched after (Or.inr visited)
  obtain ⟨entry, creation⟩ := visit_here unvisited found
  have nothing : ¬ CreatedIn (startScan m).report.changes file := fun ⟨_, member, _⟩ => nomatch member
  rw [rest.entry, entry, rest.created, creation, start.entry, start.created, or_iff_right nothing]
  exact ⟨Iff.rfl, Iff.rfl⟩

end Walk

section Revisit
variable {host : Host} {patterns : List String} {scope : List Path} {read : Path → Reading}
  {file : Path}

theorem revisit_untouched {s : Scanning} {path : Path} (differs : file ≠ path) :
    Untouched file s (revisit host patterns scope read s path) := by
  unfold revisit
  split
  · exact ⟨Finmap.lookup_erase_ne differs, Iff.rfl⟩
  · exact observe_untouched differs

theorem revisits_untouched (paths : List Path) {s : Scanning} (apart : file ∉ paths) :
    Untouched file s (paths.foldl (revisit host patterns scope read) s) := by
  induction paths generalizing s with
  | nil => exact untouched_refl s
  | cons path paths ih =>
    have first : Untouched file s (revisit host patterns scope read s path) :=
      revisit_untouched fun same => apart (same ▸ List.mem_cons_self)
    exact untouched_trans first (ih fun later => apart (List.mem_cons_of_mem path later))

/- An entry that is gone over again is not created by it. -/
theorem revisit_creates_nothing {s : Scanning}
    (recorded : (s.manager.entries.lookup file).isSome = true) :
    CreatedIn (revisit host patterns scope read s file).report.changes file ↔
      CreatedIn s.report.changes file := by
  unfold revisit
  split
  · exact Iff.rfl
  · simp only [Scanning.observe, createdIn_append, or_iff_left_iff_imp]
    intro ⟨new, created, _⟩
    rw [(record_created created).2.1] at recorded
    cases recorded

theorem revisits_create_nothing {paths : List Path} (distinct : paths.Nodup) {s : Scanning}
    (recorded : file ∈ paths → (s.manager.entries.lookup file).isSome = true) :
    CreatedIn (paths.foldl (revisit host patterns scope read) s).report.changes file ↔
      CreatedIn s.report.changes file := by
  by_cases listed : file ∈ paths
  · obtain ⟨before, after, rfl⟩ := List.append_of_mem listed
    obtain ⟨_, rest, apart⟩ := List.nodup_append.mp distinct
    have ahead : file ∉ before := fun member => apart file member file List.mem_cons_self rfl
    have behind : file ∉ after := (List.nodup_cons.mp rest).1
    have first : Untouched file s (before.foldl (revisit host patterns scope read) s) :=
      revisits_untouched before ahead
    rw [List.foldl_append, List.foldl_cons, (revisits_untouched after behind).created,
      revisit_creates_nothing (first.entry ▸ recorded listed), first.created]
  · exact (revisits_untouched paths listed).created

/- A regular file below a watched path and not ignored keeps its entry. -/
theorem revisits_keep (covered : (scope.any fun root => root.isPrefixOf file) = true)
    (kept : isIgnoredPath host.letters file patterns = false)
    (found : (read file).stat.isFile = true) (paths : List Path) {s : Scanning}
    (recorded : (s.manager.entries.lookup file).isSome = true) :
    ((paths.foldl (revisit host patterns scope read) s).manager.entries.lookup file).isSome =
      true := by
  induction paths generalizing s with
  | nil => exact recorded
  | cons path paths ih =>
    apply ih
    by_cases here : file = path
    · rw [← here, revisit, if_neg (by simp [covered, kept])]
      obtain ⟨new, text, present⟩ :=
        (isFile_iff host s.manager.content.isSome (read file).now file).mp found
      have stays := (@record_present s.manager.entries file new text).1.mpr (Or.inl recorded)
      rw [← present] at stays
      exact stays
    · rw [(revisit_untouched here).entry]
      exact recorded

end Revisit

section Scan
variable {host : Host} {policy : FimPolicy} {disk : Disk} {m : BaselineManager} {file : Path}

theorem ahead_unique {a : Path} {xs ys xs' ys' : List Path} (same : xs ++ a :: ys = xs' ++ a :: ys')
    (fresh : a ∉ xs) (fresh' : a ∉ xs') : xs = xs' := by
  induction xs generalizing xs' with
  | nil =>
    cases xs' with
    | nil => rfl
    | cons x xs' =>
      obtain ⟨rfl, _⟩ := List.cons.inj same
      exact absurd List.mem_cons_self fresh'
  | cons x xs ih =>
    cases xs' with
    | nil =>
      obtain ⟨rfl, _⟩ := List.cons.inj same
      exact absurd List.mem_cons_self fresh
    | cons x' xs' =>
      obtain ⟨rfl, rest⟩ := List.cons.inj same
      rw [ih rest (fun later => fresh (List.mem_cons_of_mem x later))
        (fun later => fresh' (List.mem_cons_of_mem x later))]

theorem met_here {before after : List Path} (met : disk.files host policy = before ++ file :: after)
    (fresh : file ∉ before) : MetWithRoom host policy disk m file ↔
      (walkFiles host disk.read m before).manager.entries.size < maxBaselineFiles := by
  constructor
  · intro ⟨other, rest, other_met, other_fresh, room⟩
    rw [← ahead_unique (other_met.symm.trans met) other_fresh fresh]
    exact room
  · intro room
    exact ⟨before, after, met, fresh, room⟩

theorem not_met (absent : file ∉ disk.files host policy) : ¬ MetWithRoom host policy disk m file := by
  intro ⟨before, after, met, _⟩
  rw [met] at absent
  exact absent (List.mem_append_right _ List.mem_cons_self)

/- Where the walk has come to when the entries it did not meet are gone over. -/
def walkOf (host : Host) (policy : FimPolicy) (disk : Disk) (m : BaselineManager) : Scanning :=
  walkFiles host disk.read m (disk.files host policy)

theorem visited_walk :
    file ∈ (walkOf host policy disk m).visited ↔ file ∈ disk.files host policy := by
  rw [walkOf, walkFiles, mem_visited]
  simp [startScan]

theorem mem_unvisited {order : List Path} {s : Scanning} (listed : file ∈ unvisited order s) :
    (s.manager.entries.lookup file).isSome = true ∧ file ∉ s.visited := by
  have kept := (List.mem_filter.mp listed).2
  rw [Bool.and_eq_true, Bool.not_eq_true', List.contains_eq_mem, decide_eq_false_iff_not] at kept
  exact kept

/- A regular file has an entry after a scan that covers it exactly when it had one before or
   was met with room. -/
theorem scan_holds
    (covered : ((disk.scope policy).any fun root => root.isPrefixOf file) = true)
    (kept : isIgnoredPath host.letters file policy.ignorePatterns = false)
    (found : (disk.read file).stat.isFile = true) :
    ((scan host policy disk m).manager.entries.lookup file).isSome = true ↔
      (m.entries.lookup file).isSome = true ∨ MetWithRoom host policy disk m file := by
  by_cases met : file ∈ disk.files host policy
  · have passed : Untouched file (walkOf host policy disk m) (scan host policy disk m) :=
      revisits_untouched _ fun listed => (mem_unvisited listed).2 (visited_walk.mpr met)
    obtain ⟨before, after, decomposed, fresh⟩ := List.eq_append_cons_of_mem met
    rw [passed.entry, met_here decomposed fresh, walkOf, decomposed]
    exact (walk_here fresh found).1
  · have walk : Untouched file (startScan m) (walkOf host policy disk m) :=
      visits_untouched _ (Or.inl met)
    rw [or_iff_left (not_met met)]
    constructor
    · intro held
      by_contra unrecorded
      have passed : Untouched file (walkOf host policy disk m) (scan host policy disk m) := by
        refine revisits_untouched _ fun listed => unrecorded ?_
        have recorded : ((walkOf host policy disk m).manager.entries.lookup file).isSome = true :=
          (mem_unvisited listed).1
        rwa [walk.entry] at recorded
      rw [passed.entry, walk.entry] at held
      exact unrecorded held
    · intro recorded
      have still : ((walkOf host policy disk m).manager.entries.lookup file).isSome = true := by
        rw [walk.entry]
        exact recorded
      exact revisits_keep covered kept found _ still

/- A scan finds a file created exactly when it takes it in. -/
theorem scan_creates :
    CreatedIn (scan host policy disk m).report.changes file ↔ TakenIn host policy disk m file := by
  have passed : CreatedIn (scan host policy disk m).report.changes file ↔
      CreatedIn (walkOf host policy disk m).report.changes file :=
    revisits_create_nothing (disk.distinct.filter _) fun listed => (mem_unvisited listed).1
  have nothing : ¬ CreatedIn (startScan m).report.changes file := fun ⟨_, member, _⟩ => nomatch member
  rw [passed]
  constructor
  · intro created
    by_cases met : file ∈ disk.files host policy
    · obtain ⟨before, after, decomposed, fresh⟩ := List.eq_append_cons_of_mem met
      cases found : (disk.read file).stat.isFile with
      | false =>
        rw [walkOf, walkFiles, visits_create_nothing found] at created
        exact absurd created nothing
      | true =>
        rw [walkOf, decomposed] at created
        obtain ⟨unrecorded, room⟩ := (walk_here fresh found).2.mp created
        exact ⟨unrecorded, found, before, after, decomposed, fresh, room⟩
    · have walk : Untouched file (startScan m) (walkOf host policy disk m) :=
        visits_untouched _ (Or.inl met)
      exact absurd (walk.created.mp created) nothing
  · intro ⟨unrecorded, found, before, after, decomposed, fresh, room⟩
    rw [walkOf, decomposed]
    exact (walk_here fresh found).2.mpr ⟨unrecorded, room⟩

theorem taken_in_kept (taken : TakenIn host policy disk m file) :
    isIgnoredPath host.letters file policy.ignorePatterns = false := by
  obtain ⟨before, after, met, _⟩ := taken.met
  apply @met_kept host policy disk file
  rw [met]
  exact List.mem_append_right _ List.mem_cons_self

/- With the file there, the walk meets it exactly when it is in reach. -/
theorem met_hasFile {other : Disk} (there : HasFile (disk.scope policy) file disk other)
    (kept : isIgnoredPath host.letters file policy.ignorePatterns = false) :
    file ∈ other.files host policy ↔ InReach host policy (disk.scope policy) file := by
  have same_scope : other.scope policy = disk.scope policy := by
    rw [Disk.scope, Disk.scope, there.resolve]
  rw [Disk.files, mem_walked, same_scope]
  constructor
  · intro ⟨path, node, rest, listed, its, reached⟩
    obtain ⟨root, watched, pair⟩ := List.mem_map.mp listed
    obtain ⟨same, _⟩ := Prod.mk.inj pair
    rw [← same] at its reached
    exact ⟨root, watched, rest, its, reached.near, reached.opened⟩
  · intro ⟨root, watched, rest, its, near, opened⟩
    obtain ⟨node, stands, placed⟩ := there.placed root watched rest its
    refine ⟨root, node, rest, ?_, its, placed_holds placed, near, opened, its ▸ kept⟩
    exact List.mem_map.mpr ⟨root, watched, by rw [stands]⟩

theorem isIgnoredPath_congr {patterns others : List String}
    (same : ∀ pattern, pattern ∈ patterns ↔ pattern ∈ others) :
    isIgnoredPath host.letters file patterns = isIgnoredPath host.letters file others := by
  rw [isIgnoredPath, isIgnoredPath, matchesIgnorePattern, matchesIgnorePattern, Bool.eq_iff_iff,
    List.any_eq_true, List.any_eq_true]
  constructor
  · intro ⟨pattern, listed, found⟩
    exact ⟨pattern, (same pattern).mp listed, found⟩
  · intro ⟨pattern, listed, found⟩
    exact ⟨pattern, (same pattern).mpr listed, found⟩

end Scan

section Report
variable {host : Host} {earlier later : FimPolicy} {disk next : Disk} {m : BaselineManager}
  {file : Path}

theorem reported_iff {sha256 : Path → Option String} {detection : FimDetection}
    {previous now : Coverage} {changes : List Observation} :
    ReportedCreated (scanAlerts sha256 detection (some previous) now changes) file ↔
      CreatedIn changes file ∧ previous.knew file now = true := by
  simp only [ReportedCreated, scanAlerts, List.mem_filterMap, List.mem_filter]
  constructor
  · intro ⟨alert, ⟨observation, ⟨member, told⟩, made⟩, kind, its⟩
    cases observation with
    | unchanged => cases made
    | created new =>
      cases made
      cases its
      exact ⟨⟨new, member, rfl⟩, told⟩
    | deleted old =>
      cases made
      cases kind
    | changed old new attributes =>
      cases made
      simp only [FimAlert.new] at kind
      split at kind
      · cases kind
      · cases kind
  · intro ⟨⟨new, member, its⟩, knew⟩
    have told : reportable previous now (.created new) = true := by
      rw [reportable, its]
      exact knew
    exact ⟨_, ⟨.created new, ⟨member, told⟩, rfl⟩, rfl, its⟩

/- A file the coverage speaks of, and that the later scan takes in, was covered. -/
theorem known_covered
    (knew : (Coverage.new disk.resolve earlier).knew file (Coverage.new next.resolve later) = true)
    (kept : isIgnoredPath host.letters file later.ignorePatterns = false) :
    ((disk.scope earlier).any fun root => root.isPrefixOf file) = true ∧
      isIgnoredPath host.letters file earlier.ignorePatterns = false := by
  obtain ⟨patterns, root, listed, within⟩ := knew_iff.mp knew
  refine ⟨List.any_eq_true.mpr ⟨root, mem_roots.mp listed, List.isPrefixOf_iff_prefix.mpr within⟩, ?_⟩
  rw [← kept]
  apply isIgnoredPath_congr
  intro pattern
  rw [← @mem_ignorePatterns disk.resolve earlier pattern, patterns, mem_ignorePatterns]

/- What the earlier scan would have held, of the files it covers. -/
theorem held_iff (covered : ((disk.scope earlier).any fun root => root.isPrefixOf file) = true)
    (kept : isIgnoredPath host.letters file earlier.ignorePatterns = false) :
    Held host earlier disk m file ↔ (m.entries.lookup file).isSome = true ∨
      (InReach host earlier (disk.scope earlier) file ∧ RoomFor host earlier disk m file) := by
  have each : ∀ other, HasFile (disk.scope earlier) file disk other →
      (((scan host earlier other m).manager.entries.lookup file).isSome = true ↔
        (m.entries.lookup file).isSome = true ∨ MetWithRoom host earlier other m file) := by
    intro other there
    refine scan_holds ?_ kept there.found
    rw [Disk.scope, there.resolve]
    exact covered
  constructor
  · intro held
    by_cases recorded : (m.entries.lookup file).isSome = true
    · exact Or.inl recorded
    · right
      have room : RoomFor host earlier disk m file := fun other there =>
        ((each other there).mp (held other there)).resolve_left recorded
      refine ⟨?_, room⟩
      obtain ⟨other, there⟩ := exists_hasFile (disk.scope earlier) file disk
      obtain ⟨before, after, met, _⟩ := room other there
      rw [← met_hasFile there kept, met]
      exact List.mem_append_right _ List.mem_cons_self
  · rintro (recorded | ⟨_, room⟩) other there
    · exact (each other there).mpr (Or.inl recorded)
    · exact (each other there).mpr (Or.inr (room other there))

/- The scan after a change of policy reports as created only what the earlier scan would have
   held, exactly when every file it takes in, of those the coverage speaks of, had an entry or
   was in reach of the earlier walk, and with room. -/
theorem created_means_created (host : Host) (sha256 : Path → Option String)
    (earlier later : FimPolicy) (disk next : Disk) (e : Memory) (m : BaselineManager)
    (first second : FimDetection) :
    (∀ file, ReportedCreated
        (Memory.scan host sha256 later next second
          { manager := m, coverage := (e.scan host sha256 earlier disk first).1.coverage }).2 file →
      Held host earlier disk e.manager file) ↔
    ∀ file, TakenIn host later next m file →
      (Coverage.new disk.resolve earlier).knew file (Coverage.new next.resolve later) = true →
        (e.manager.entries.lookup file).isSome = true ∨
          (InReach host earlier (disk.scope earlier) file ∧
            RoomFor host earlier disk e.manager file) := by
  simp only [Memory.scan, reported_iff, scan_creates]
  apply forall_congr'
  intro file
  rw [and_imp]
  apply imp_congr_right
  intro taken
  apply imp_congr_right
  intro knew
  obtain ⟨covered, kept⟩ := known_covered knew (taken_in_kept taken)
  exact held_iff covered kept

end Report

section Cases

def job : Path := ["etc", "cron.d", "job"]

/- The disk of the earlier scan holds the file, deeper than that scan goes. -/
theorem job_there : HasFile (smallDisk.scope (watchEtc false)) job smallDisk smallDisk := by
  refine ⟨rfl, ?_, fun _ _ _ => rfl, fun _ _ => rfl, rfl⟩
  intro root watched rest its
  have only : root = ["etc"] := List.mem_singleton.mp watched
  rw [only] at its ⊢
  obtain ⟨_, rfl⟩ : _ ∧ ["cron.d", "job"] = rest := List.cons.inj its
  have inner : Placed (some (.dir [("job", .file)])) ["job"] (.dir [("job", .file)]) :=
    @Placed.inside [] [] "job" [] .file .file (.here _)
  exact ⟨_, rfl, @Placed.inside [("hosts", .file)] [] "cron.d" ["job"] _ _ inner⟩

/- The earlier scan does not go below the first level, the later one does. -/
theorem unmet_file_created :
    ¬ ∀ file, ReportedCreated
        (Memory.scan unixHost (fun _ => none) (watchEtc true) smallDisk .rescan
          { manager := (scan unixHost (watchEtc false) smallDisk noBaseline).manager
            coverage := (Memory.scan unixHost (fun _ => none) (watchEtc false) smallDisk .rescan
              { manager := noBaseline, coverage := none }).1.coverage }).2 file →
      Held unixHost (watchEtc false) smallDisk noBaseline file := by
  intro all
  have held := all job (by unfold ReportedCreated; decide) smallDisk job_there
  revert held
  decide

end Cases
end SentinelAgent.Fim
