import SentinelAgent.Fim.ScanLaws

/- A change of policy while scans of the former one are still under way. Each scan reads the
   coverage there is, scans once it has the lock, and then records its own coverage. -/
namespace SentinelAgent.Fim
open Runs

/- The scans the former generation left, and the first one of the new generation. -/
inductive Task where
  | former (n : Nat)
  | first
  deriving DecidableEq

structure Policies where
  former : FimPolicy
  new : FimPolicy

def Policies.of (p : Policies) : Task → FimPolicy
  | .former _ => p.former
  | .first => p.new

/- How far a scan has come. The disk it read is kept for what is said of it here. -/
inductive Phase where
  | queued
  | begun (previous : Option Coverage) (now : Coverage)
  | scanned (previous : Option Coverage) (now : Coverage) (disk : Disk) (report : ScanReport)
  | finished (now : Coverage) (disk : Disk) (report : ScanReport)

def Phase.now : Phase → Option Coverage
  | .queued => none
  | .begun _ now => some now
  | .scanned _ now _ _ => some now
  | .finished now _ _ => some now

def Phase.ran : Phase → Option (Disk × ScanReport)
  | .scanned _ _ disk report => some (disk, report)
  | .finished _ disk report => some (disk, report)
  | _ => none

def Phase.isFinished : Phase → Bool
  | .finished _ _ _ => true
  | _ => false

structure Engine where
  memory : Memory
  phase : Task → Phase
  log : List Event
  alerts : List FimAlert

inductive Turn where
  | begin (task : Task) (resolve : Path → Path)
  | run (task : Task) (disk : Disk)
  | finish (task : Task)

section Turns
variable (host : Host) (sha256 : Path → Option String) (policies : Policies)
  (detection : Task → FimDetection)

def Engine.to (s : Engine) (task : Task) (phase : Phase) : Engine :=
  { s with phase := Function.update s.phase task phase }

@[simp] theorem Engine.to_self (s : Engine) (task : Task) (phase : Phase) :
    (s.to task phase).phase task = phase := by
  simp only [Engine.to, Function.update_self]

theorem Engine.to_other {s : Engine} {task other : Task} {phase : Phase} (differs : other ≠ task) :
    (s.to task phase).phase other = s.phase other := by
  simp only [Engine.to, Function.update_of_ne differs]

instance (policy : FimPolicy) (disk : Disk) (m : BaselineManager) :
    Decidable (disk.ListsKeys host policy m) :=
  decidable_of_iff (∀ path ∈ (walkOf host policy disk m).manager.entries.keys,
    disk.order.contains path = true) (by simp only [Disk.ListsKeys, List.contains_iff_mem])

def turn (s : Engine) : Turn → Engine
  | .begin task resolve =>
    match s.phase task with
    | .queued => s.to task (.begun s.memory.coverage (Coverage.new resolve (policies.of task)))
    | _ => s
  | .run task disk =>
    match s.phase task with
    | .begun previous now =>
      -- The map gives all its keys; another order is none it can give.
      if disk.ListsKeys host (policies.of task) s.memory.manager then
        let scanned := scan host (policies.of task) disk s.memory.manager
        { s.to task (.scanned previous now disk scanned.report) with
          memory := { s.memory with manager := scanned.manager }
          log := s.log ++ scanned.log }
      else s
    | _ => s
  | .finish task =>
    match s.phase task with
    | .scanned previous now disk report =>
      { s.to task (.finished now disk report) with
        memory := { s.memory with coverage := some now }
        alerts := s.alerts ++ scanAlerts sha256 (detection task) previous now report.changes }
    | _ => s

/- No scan of the former generation runs, or records its coverage, after the new one has. -/
def FormerFirst (s : Engine) : Turn → Prop
  | .run (.former _) _ => (s.phase .first).ran = none
  | .finish (.former _) => (s.phase .first).isFinished = false
  | _ => True

/- The baseline is that of the policy: of what it covers, and of every regular file met. -/
structure BaselineOf (policy : FimPolicy) (disk : Disk) (report : ScanReport)
    (m : BaselineManager) : Prop where
  within : ∀ file, (m.entries.lookup file).isSome = true →
    Covered host policy (disk.scope policy) file
  taken : report.truncated = false → ∀ file ∈ disk.files host policy,
    (disk.read file).stat.isFile = true → (m.entries.lookup file).isSome = true

/- A file the former policy watches, below a path both watch, where the scans of the former
   generation that ran resolved that path alike. -/
structure Shared (s : Engine) (file : Path) : Prop where
  root : ∃ watched ∈ policies.former.watchedPaths, watched ∈ policies.new.watchedPaths ∧
    ∃ resolved, resolved <+: file ∧ ∀ n disk report,
      (s.phase (.former n)).ran = some (disk, report) → disk.resolve watched = resolved
  kept : isIgnoredPath host.letters file policies.former.ignorePatterns = false

/- The alerts of a later scan of the new policy, over whatever the baseline is by then. -/
def laterAlerts (s : Engine) (later : FimDetection) (next : Disk) (m : BaselineManager) :
    List FimAlert :=
  (Memory.scan host sha256 policies.new next later
    { manager := m, coverage := s.memory.coverage }).2

/- The new policy has won. -/
structure Wins (s : Engine) (now : Coverage) (disk : Disk) (report : ScanReport) : Prop where
  coverage : s.memory.coverage = some now
  own : ∃ resolve, now = Coverage.new resolve policies.new
  baseline : BaselineOf host policies.new disk report s.memory.manager
  steady : ∀ file, Shared host policies s file → ¬ Retaken file s.log
  changes : ∀ later next m file, next.ListsKeys host policies.new m →
    Covered host policies.new (next.scope policies.new) file →
    (m.entries.lookup file).isSome = true →
    ∀ alert, intoAlert sha256 later (findsAt host m file (next.read file)) = some alert →
      alert ∈ laterAlerts host sha256 policies s later next m
  creations : ∀ later next m file, TakenIn host policies.new next m file →
    (∃ root ∈ now.roots, root <+: file) →
      ReportedCreated (laterAlerts host sha256 policies s later next m) file

end Turns

/- One scan's turns, with nothing between them, are one scan. -/
theorem turns_scan {host : Host} {sha256 : Path → Option String} {policies : Policies}
    {detection : Task → FimDetection} {s : Engine} {task : Task} {disk : Disk}
    (queued : s.phase task = .queued)
    (lists : disk.ListsKeys host (policies.of task) s.memory.manager) :
    let after := run (turn host sha256 policies detection) s
      [.begin task disk.resolve, .run task disk, .finish task]
    let scanned := s.memory.scan host sha256 (policies.of task) disk (detection task)
    after.memory = scanned.1 ∧ after.alerts = s.alerts ++ scanned.2 := by
  simp only [run_cons, run_nil, turn, queued, Engine.to, Function.update_self, if_pos lists,
    Memory.scan, and_self]

section Course
variable {host : Host} {sha256 : Path → Option String} {policies : Policies}
  {detection : Task → FimDetection} {s : Engine} {file : Path}

/- What holds on the way, before and after the new policy's scan. -/
structure OnCourse (host : Host) (policies : Policies) (s : Engine) : Prop where
  own : ∀ now, (s.phase .first).now = some now → ∃ resolve, now = Coverage.new resolve policies.new
  baseline : ∀ disk report, (s.phase .first).ran = some (disk, report) →
    BaselineOf host policies.new disk report s.memory.manager
  coverage : ∀ now disk report, s.phase .first = .finished now disk report →
    s.memory.coverage = some now
  undropped : (s.phase .first).ran = none → ∀ file, Shared host policies s file →
    .dropped file ∉ s.log
  steady : ∀ file, Shared host policies s file → ¬ Retaken file s.log

theorem shared_earlier {s' : Engine} (shared : Shared host policies s' file)
    (kept : ∀ n run, (s.phase (.former n)).ran = some run → (s'.phase (.former n)).ran = some run) :
    Shared host policies s file := by
  obtain ⟨⟨watched, by_former, by_new, resolved, within, alike⟩, unignored⟩ := shared
  exact ⟨⟨watched, by_former, by_new, resolved, within,
    fun n disk report ran => alike n disk report (kept n _ ran)⟩, unignored⟩

theorem shared_covered {n : Nat} {disk : Disk} {report : ScanReport}
    (shared : Shared host policies s file)
    (ran : (s.phase (.former n)).ran = some (disk, report)) :
    Covered host policies.former (disk.scope policies.former) file := by
  obtain ⟨⟨watched, by_former, _, resolved, within, alike⟩, unignored⟩ := shared
  refine ⟨⟨resolved, ?_, within⟩, unignored⟩
  exact List.mem_map.mpr ⟨watched, by_former, alike n disk report ran⟩

theorem scan_baseline {policy : FimPolicy} {disk : Disk} {m : BaselineManager}
    (lists : disk.ListsKeys host policy m) :
    BaselineOf host policy disk (scan host policy disk m).report (scan host policy disk m).manager :=
  ⟨fun _ recorded => scan_within lists recorded,
    fun whole _ met found => scan_takes whole met found⟩

/- A turn that runs no scan leaves it as it was who ran. -/
theorem ran_same {task : Task} {phase : Phase} (same : phase.ran = (s.phase task).ran)
    (other : Task) : ((s.to task phase).phase other).ran = (s.phase other).ran := by
  by_cases here : other = task
  · rw [here, Engine.to_self]
    exact same
  · rw [Engine.to_other here]

/- A turn of a task on its way: what it needs to stay on course. -/
theorem course_kept {s' : Engine} {task : Task} {phase : Phase} (course : OnCourse host policies s)
    (same : phase.ran = (s.phase task).ran) (phases : s'.phase = (s.to task phase).phase)
    (manager : s'.memory.manager = s.memory.manager) (log : s'.log = s.log)
    (own : task = .first → ∀ now, phase.now = some now →
      ∃ resolve, now = Coverage.new resolve policies.new)
    (coverage : ∀ now disk report, s'.phase .first = .finished now disk report →
      s'.memory.coverage = some now) : OnCourse host policies s' := by
  have ran : ∀ other, (s'.phase other).ran = (s.phase other).ran := by
    intro other
    rw [phases]
    exact ran_same same other
  have earlier : ∀ file, Shared host policies s' file → Shared host policies s file :=
    fun file shared => shared_earlier shared fun n run before => (ran _).trans before
  refine ⟨?_, ?_, coverage, ?_, ?_⟩
  · intro now its
    rw [phases] at its
    by_cases here : task = .first
    · rw [here, Engine.to_self] at its
      exact own here now its
    · rw [Engine.to_other fun same => here same.symm] at its
      exact course.own now its
  · intro disk report its
    rw [manager]
    exact course.baseline disk report ((ran _).symm.trans its)
  · intro its file shared
    rw [log]
    exact course.undropped ((ran _).symm.trans its) file (earlier file shared)
  · intro file shared
    rw [log]
    exact course.steady file (earlier file shared)

theorem begin_keeps {task : Task} {resolve : Path → Path} (course : OnCourse host policies s) :
    OnCourse host policies (turn host sha256 policies detection s (.begin task resolve)) := by
  cases phase : s.phase task with
  | begun previous now => simpa only [turn, phase] using course
  | scanned previous now disk report => simpa only [turn, phase] using course
  | finished now disk report => simpa only [turn, phase] using course
  | queued =>
    simp only [turn, phase]
    refine course_kept course (by rw [phase]; rfl) rfl rfl rfl ?_ ?_
    · intro here now its
      rw [here] at its
      exact ⟨resolve, (Option.some.inj its).symm⟩
    · intro now disk report its
      by_cases here : task = .first
      · rw [here, Engine.to_self] at its
        cases its
      · rw [Engine.to_other fun same => here same.symm] at its
        exact course.coverage now disk report its

theorem finish_keeps {task : Task} (course : OnCourse host policies s)
    (before : FormerFirst s (.finish task)) :
    OnCourse host policies (turn host sha256 policies detection s (.finish task)) := by
  cases phase : s.phase task with
  | queued => simpa only [turn, phase] using course
  | begun previous now => simpa only [turn, phase] using course
  | finished now disk report => simpa only [turn, phase] using course
  | scanned previous now disk report =>
    simp only [turn, phase]
    refine course_kept course (by rw [phase]; rfl) rfl rfl rfl ?_ ?_
    · intro here other its
      rw [here] at phase
      exact course.own other (by rw [phase]; exact its)
    · intro other disk report its
      cases task with
      | former n =>
        rw [Engine.to_other Task.noConfusion] at its
        rw [FormerFirst, its] at before
        cases before
      | first =>
        rw [Engine.to_self] at its
        cases its
        rfl

/- The turn in which a scan runs. -/
theorem course_run {s' : Engine} {task : Task} {disk : Disk} {previous : Option Coverage}
    {now : Coverage} (course : OnCourse host policies s) (unran : (s.phase .first).ran = none)
    (phase : s.phase task = .begun previous now)
    (lists : disk.ListsKeys host (policies.of task) s.memory.manager)
    (phases : s'.phase = (s.to task (.scanned previous now disk
      (scan host (policies.of task) disk s.memory.manager).report)).phase)
    (manager : s'.memory.manager = (scan host (policies.of task) disk s.memory.manager).manager)
    (log : s'.log = s.log ++ (scan host (policies.of task) disk s.memory.manager).log) :
    OnCourse host policies s' := by
  have earlier : ∀ file, Shared host policies s' file → Shared host policies s file := by
    intro file shared
    refine shared_earlier shared fun n run its => ?_
    have differs : Task.former n ≠ task := by
      intro same
      rw [same, phase] at its
      cases its
    rw [phases, Engine.to_other differs]
    exact its
  refine ⟨?_, ?_, ?_, ?_, ?_⟩
  · intro other its
    rw [phases] at its
    by_cases here : task = .first
    · rw [here, Engine.to_self] at its
      rw [here] at phase
      exact course.own other (by rw [phase]; exact its)
    · rw [Engine.to_other fun same => here same.symm] at its
      exact course.own other its
  · intro read report its
    rw [phases] at its
    by_cases here : task = .first
    · subst here
      rw [Engine.to_self] at its
      cases its
      rw [manager]
      exact scan_baseline lists
    · rw [Engine.to_other fun same => here same.symm, unran] at its
      cases its
  · intro other read report its
    rw [phases] at its
    by_cases here : task = .first
    · rw [here, Engine.to_self] at its
      cases its
    · rw [Engine.to_other fun same => here same.symm] at its
      rw [its] at unran
      cases unran
  · intro its file shared
    rw [log]
    intro dropped
    cases List.mem_append.mp dropped with
    | inl before => exact course.undropped unran file (earlier file shared) before
    | inr after =>
      cases task with
      | first =>
        rw [phases, Engine.to_self] at its
        cases its
      | former n =>
        refine scan_drops ?_ after
        exact shared_covered shared (by rw [phases, Engine.to_self]; rfl)
  · intro file shared retaken
    rw [log] at retaken
    exact scan_retakes (retaken_append (course.undropped unran file (earlier file shared)) retaken)

theorem run_turn_keeps {task : Task} {disk : Disk} (course : OnCourse host policies s)
    (before : FormerFirst s (.run task disk)) :
    OnCourse host policies (turn host sha256 policies detection s (.run task disk)) := by
  cases phase : s.phase task with
  | queued => simpa only [turn, phase] using course
  | scanned previous now disk report => simpa only [turn, phase] using course
  | finished now disk report => simpa only [turn, phase] using course
  | begun previous now =>
    by_cases lists : disk.ListsKeys host (policies.of task) s.memory.manager
    · have unran : (s.phase .first).ran = none := by
        cases task with
        | former n => exact before
        | first =>
          rw [phase]
          rfl
      simp only [turn, phase, if_pos lists]
      exact course_run course unran phase lists rfl rfl rfl
    · simpa only [turn, phase, if_neg lists] using course

theorem turn_keeps (s : Engine) (action : Turn) (course : OnCourse host policies s)
    (before : FormerFirst s action) :
    OnCourse host policies (turn host sha256 policies detection s action) := by
  cases action with
  | begin task resolve => exact begin_keeps course
  | run task disk => exact run_turn_keeps course before
  | finish task => exact finish_keeps course before

end Course

section Later
variable {host : Host} {sha256 : Path → Option String} {policies : Policies} {s : Engine}

theorem wins_of_course {now : Coverage} {disk : Disk} {report : ScanReport}
    (course : OnCourse host policies s) (finished : s.phase .first = .finished now disk report) :
    Wins host sha256 policies s now disk report := by
  have coverage := course.coverage now disk report finished
  obtain ⟨resolve, own⟩ := course.own now (by rw [finished]; rfl)
  refine ⟨coverage, ⟨resolve, own⟩, course.baseline disk report (by rw [finished]; rfl),
    course.steady, ?_, ?_⟩
  · intro later next m file lists covered recorded alert made
    exact changes_alerted (e := { manager := m, coverage := s.memory.coverage }) coverage lists
      covered recorded made
  · intro later next m file taken below
    refine creations_alerted (e := { manager := m, coverage := s.memory.coverage }) coverage taken
      (knew_iff.mpr ⟨?_, below⟩)
    rw [own]
    rfl

end Later

/- Whatever the scans of the former generation, in any order among themselves and with the
   first scan of the new one: if none of them runs, or records its coverage, after the new one
   has, then the new policy has won once its scan is finished. -/
theorem new_policy_wins (host : Host) (sha256 : Path → Option String) (policies : Policies)
    (detection : Task → FimDetection) (start : Engine) (queued : start.phase .first = .queued)
    (fresh : start.log = []) (turns : List Turn)
    (before : Along (turn host sha256 policies detection) FormerFirst start turns)
    (now : Coverage) (disk : Disk) (report : ScanReport)
    (finished : (run (turn host sha256 policies detection) start turns).phase .first =
      .finished now disk report) :
    Wins host sha256 policies (run (turn host sha256 policies detection) start turns) now disk
      report := by
  have begins : OnCourse host policies start := by
    refine ⟨?_, ?_, ?_, ?_, ?_⟩
    · intro now its
      rw [queued] at its
      cases its
    · intro disk report its
      rw [queued] at its
      cases its
    · intro now disk report its
      rw [queued] at its
      cases its
    · intro _ file _ dropped
      rw [fresh] at dropped
      cases dropped
    · intro file _ ⟨ahead, after, new, split_eq, _⟩
      rw [fresh] at split_eq
      cases ahead with
      | nil => cases split_eq
      | cons event ahead => cases split_eq
  exact wins_of_course (run_keeps turn_keeps begins before) finished

section Cases

def twoFolders : Disk where
  resolve path := path
  tree path :=
    if path = ["a"] then some (.dir [("x", .file)])
    else if path = ["b"] then some (.dir [("y", .file)])
    else none
  read _ := emptyFile
  order := [["a", "x"], ["b", "y"]]
  distinct := by decide

/- The former policy watches one folder, the new one both. -/
def widened : Policies where
  former := { watchedPaths := [["a"]], ignorePatterns := [], recursive := true }
  new := { watchedPaths := [["a"], ["b"]], ignorePatterns := [], recursive := true }

def watching : Engine where
  memory := (Memory.scan unixHost (fun _ => none) widened.former twoFolders .startup
    { manager := noBaseline, coverage := none }).1
  phase _ := .queued
  log := []
  alerts := []

def widen (turns : List Turn) : Engine :=
  run (turn unixHost (fun _ => none) widened fun _ => .rescan) watching turns

/- A scan of the former generation runs ahead of the new one. -/
def formerAhead : List Turn :=
  [.begin (.former 0) id, .begin .first id, .run (.former 0) twoFolders, .run .first twoFolders,
    .finish (.former 0), .finish .first]

theorem new_policy_wins_ahead : ∃ now disk report,
    Wins unixHost (fun _ => none) widened (widen formerAhead) now disk report :=
  ⟨_, _, _, new_policy_wins unixHost (fun _ => none) widened (fun _ => .rescan) watching rfl rfl
    formerAhead ⟨trivial, trivial, rfl, trivial, rfl, trivial, trivial⟩ _ _ _ rfl⟩

/- The same scan, kept from the lock until the new one is done. -/
def formerBehind : List Turn :=
  [.begin (.former 0) id, .begin .first id, .run .first twoFolders, .finish .first,
    .run (.former 0) twoFolders, .finish (.former 0)]

theorem former_policy_wins :
    ¬ ∀ now disk report, (widen formerBehind).phase .first = .finished now disk report →
      Wins unixHost (fun _ => none) widened (widen formerBehind) now disk report := by
  intro all
  have coverage := (all _ _ _ rfl).coverage
  revert coverage
  decide

end Cases
end SentinelAgent.Fim
