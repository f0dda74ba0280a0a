import SentinelAgent.Fim.Baseline
import Mathlib.Data.List.Lex
import Mathlib.Data.List.Sort
import Mathlib.Data.String.Basic

/- What is reported of the differences a scan finds. A file is reported as created only where
   the baseline already looked. -/
namespace SentinelAgent.Fim

inductive FimChangeType where
  | created | modified | deleted | renamed | permissionChanged
  deriving DecidableEq

inductive FimDetection where
  | realtime | startup | rescan
  deriving DecidableEq

structure FimOwner where
  uid : Nat
  gid : Nat
  deriving DecidableEq

structure FimAlert where
  path : Path
  change : FimChangeType
  detection : FimDetection
  oldHash : Option String
  newHash : Option String
  newSize : Option Nat
  newSha256 : Option String
  changedAttributes : List FimAttribute
  oldPermissions : Option Nat
  newPermissions : Option Nat
  oldOwner : Option FimOwner
  newOwner : Option FimOwner
  deriving DecidableEq

def FimAlert.new (path : Path) (change : FimChangeType) (detection : FimDetection) : FimAlert where
  path := path
  change := change
  detection := detection
  oldHash := none
  newHash := none
  newSize := none
  newSha256 := none
  changedAttributes := []
  oldPermissions := none
  newPermissions := none
  oldOwner := none
  newOwner := none

def knownHash (hash : String) : Option String := if hash = "" then none else some hash

def ownerOf (entry : FimBaseline) : Option FimOwner :=
  match entry.uid, entry.gid with
  | some uid, some gid => some { uid := uid, gid := gid }
  | _, _ => none

/- The alert of an observation. A new or rewritten file is read once more, for its SHA-256. -/
def intoAlert (sha256 : Path → Option String) (detection : FimDetection) :
    Observation → Option FimAlert
  | .unchanged => none
  | .created new =>
    some { FimAlert.new new.path .created detection with
      newSha256 := sha256 new.path
      newHash := knownHash new.hash
      newSize := some new.size }
  | .deleted old =>
    some { FimAlert.new old.path .deleted detection with oldHash := knownHash old.hash }
  | .changed old new attributes =>
    let content := attributes.contains .content
    let permissions := attributes.contains .permissions
    let ownership := attributes.contains .owner || attributes.contains .group
    let change := if content then .modified else .permissionChanged
    some { FimAlert.new new.path change detection with
      oldHash := knownHash old.hash
      newHash := knownHash new.hash
      newSize := some new.size
      newSha256 := if content then sha256 new.path else none
      oldPermissions := if permissions then some old.permissions else none
      newPermissions := if permissions then some new.permissions else none
      oldOwner := if ownership then ownerOf old else none
      newOwner := if ownership then ownerOf new else none
      changedAttributes := attributes }

/- Of equal elements next to each other the first is kept. -/
def dedup {α : Type} [DecidableEq α] : List α → List α
  | [] => []
  | [a] => [a]
  | a :: b :: rest => if a = b then dedup (b :: rest) else a :: dedup (b :: rest)

/- What a baseline was built from. -/
structure Coverage where
  roots : List Path
  ignorePatterns : List String
  deriving DecidableEq

def Coverage.new (resolve : Path → Path) (policy : FimPolicy) : Coverage where
  roots := dedup ((policy.watchedPaths.map resolve).insertionSort (· ≤ ·))
  ignorePatterns := dedup (policy.ignorePatterns.insertionSort (· ≤ ·))

/- Whether a baseline built from that would have held the path, as the source has it. -/
def Coverage.knew (previous : Coverage) (path : Path) (now : Coverage) : Bool :=
  previous.ignorePatterns = now.ignorePatterns &&
    previous.roots.any fun root => root.isPrefixOf path

def reportable (previous now : Coverage) : Observation → Bool
  | .created new => previous.knew new.path now
  | _ => true

/- The first baseline is taken in without a word. -/
def scanAlerts (sha256 : Path → Option String) (detection : FimDetection)
    (previous : Option Coverage) (now : Coverage) (changes : List Observation) : List FimAlert :=
  match previous with
  | none => []
  | some previous => (changes.filter (reportable previous now)).filterMap (intoAlert sha256 detection)

/- What the engine keeps in memory between scans. -/
structure Memory where
  manager : BaselineManager
  coverage : Option Coverage

def Memory.scan (host : Host) (sha256 : Path → Option String) (policy : FimPolicy) (disk : Disk)
    (detection : FimDetection) (e : Memory) : Memory × List FimAlert :=
  let now := Coverage.new disk.resolve policy
  let scanned := Fim.scan host policy disk e.manager
  ({ manager := scanned.manager, coverage := some now },
    scanAlerts sha256 detection e.coverage now scanned.report.changes)

section Coverage

theorem mem_dedup {α : Type} [DecidableEq α] {a : α} {list : List α} :
    a ∈ dedup list ↔ a ∈ list := by
  fun_induction dedup list with
  | case1 => rfl
  | case2 b => rfl
  | case3 b rest ih =>
    rw [ih]
    simp
  | case4 b c rest differs ih =>
    rw [List.mem_cons, List.mem_cons, ih]

variable {resolve : Path → Path} {policy : FimPolicy}

theorem mem_roots {root : Path} :
    root ∈ (Coverage.new resolve policy).roots ↔ root ∈ policy.watchedPaths.map resolve := by
  rw [Coverage.new, mem_dedup, List.mem_insertionSort]

theorem mem_ignorePatterns {pattern : String} :
    pattern ∈ (Coverage.new resolve policy).ignorePatterns ↔ pattern ∈ policy.ignorePatterns := by
  rw [Coverage.new, mem_dedup, List.mem_insertionSort]

theorem knew_iff {previous now : Coverage} {path : Path} :
    previous.knew path now = true ↔
      previous.ignorePatterns = now.ignorePatterns ∧ ∃ root ∈ previous.roots, root <+: path := by
  simp [Coverage.knew]

end Coverage
end SentinelAgent.Fim
