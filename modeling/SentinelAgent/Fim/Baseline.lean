import SentinelAgent.Fim.Walk
import SentinelAgent.Library.Maps

/- The baseline of the watched files: what reading a file against its entry finds, what is
   recorded of it, and the full scan. -/
namespace SentinelAgent.Fim
open Maps (Map)

def maxScanDepth : Nat := 32
def maxBaselineFiles : Nat := 100000
def streamingThreshold : Nat := 67108864
def maxFileBytes : Nat := 262144
def maxStoreBytes : Nat := 268435456

abbrev Bytes := List UInt8

structure FimBaseline where
  path : Path
  hash : String
  permissions : Nat
  size : Nat
  modifiedAt : Int
  capturedAt : Int
  uid : Option Nat
  gid : Option Nat
  deriving DecidableEq

inductive FimAttribute where
  | content | permissions | owner | group
  deriving DecidableEq

inductive Observation where
  | unchanged
  | created (new : FimBaseline)
  | deleted (old : FimBaseline)
  | changed (old new : FimBaseline) (attributes : List FimAttribute)
  deriving DecidableEq

def Observation.isChange : Observation → Bool
  | .unchanged => false
  | _ => true

/- What the system says of a path, its last component not followed. -/
structure Metadata where
  isFile : Bool
  len : Nat
  mode : Nat
  modified : Int
  uid : Nat
  gid : Nat
  deriving DecidableEq

inductive Contents where
  | bytes (b : Bytes)
  | denied
  | failed
  deriving DecidableEq

inductive Stat where
  | gone
  | failed
  | found (metadata : Metadata) (contents : Contents)
  deriving DecidableEq

/- The system the agent runs on, and what it takes from its libraries. -/
structure Host where
  unix : Bool
  letters : LowerCase
  blake3 : Bytes → String
  isUtf8 : Bytes → Bool

def privateNames : List String :=
  [".key", ".pem", ".pfx", ".p12", ".kdbx", "\\config\\sam", "\\config\\security",
    "\\config\\system", "\\config\\software", "ntds.dit"]

/- Whether a file is private by its name, where permission bits do not say so. -/
def isPrivateName (host : Host) (path : Path) : Bool :=
  let name := host.letters.lower ((pathText path).map fun c => if c = '/' then '\\' else c)
  privateNames.any fun hidden => decide (hidden.toList <:+: name)

/- Whether a copy of the contents may be kept. -/
def textToKeep (host : Host) (path : Path) (metadata : Metadata) (content : Bytes) :
    Option Bytes :=
  if content.length > maxFileBytes ∨ 0 ∈ content then none
  else if host.unix = true ∧ metadata.mode / 4 % 2 = 0 then none
  else if host.unix = false ∧ isPrivateName host path = true then none
  else if host.isUtf8 content then some content
  else none

inductive FileState where
  | present (new : FimBaseline) (text : Option Bytes)
  | missing
  | unreadable
  deriving DecidableEq

section Read
variable (host : Host)

/- An entry without a hash is that of a file the agent may not read. -/
def entryOf (path : Path) (metadata : Metadata) (hash : String) (now : Int) : FimBaseline where
  path := path
  hash := hash
  permissions := if host.unix then metadata.mode else 0
  size := metadata.len
  modifiedAt := metadata.modified
  capturedAt := now
  uid := if host.unix then some metadata.uid else none
  gid := if host.unix then some metadata.gid else none

def readState (keepText : Bool) (now : Int) (path : Path) (stat : Stat) : FileState :=
  match stat with
  | .gone => .missing
  | .failed => .unreadable
  | .found metadata contents =>
    if metadata.isFile = false then .missing
    else
      match contents with
      | .failed => .unreadable
      | .denied => .present (entryOf host path metadata "" now) none
      | .bytes b =>
        .present (entryOf host path metadata (host.blake3 b) now)
          (if keepText = true ∧ metadata.len ≤ streamingThreshold then
            textToKeep host path metadata b
          else none)

end Read

def contentDiffers (old new : FimBaseline) : Bool :=
  if old.hash = "" ∨ new.hash = "" then
    old.size ≠ new.size || old.modifiedAt ≠ new.modifiedAt
  else old.hash ≠ new.hash

def knownDiffers (old new : Option Nat) : Bool :=
  match old, new with
  | some old, some new => old ≠ new
  | _, _ => false

def changedAttributes (old new : FimBaseline) : List FimAttribute :=
  (if contentDiffers old new then [.content] else []) ++
    (if old.permissions ≠ new.permissions then [.permissions] else []) ++
    (if knownDiffers old.uid new.uid then [.owner] else []) ++
    if knownDiffers old.gid new.gid then [.group] else []

abbrev Entries := Map Path FimBaseline

/- What a reading does to the entries, and what it is reported as. -/
def record (entries : Entries) (key : Path) (state : FileState) : Entries × Observation :=
  match state with
  | .unreadable => (entries, .unchanged)
  | .missing =>
    match entries.lookup key with
    | some old => (entries.erase key, .deleted old)
    | none => (entries, .unchanged)
  | .present new _ =>
    match entries.lookup key with
    | none => (if entries.size < maxBaselineFiles then entries.insert key new else entries,
        .created new)
    | some old =>
      if changedAttributes old new = [] then
        (if old.modifiedAt ≠ new.modifiedAt then entries.insert key new else entries, .unchanged)
      else (entries.insert key new, .changed old new (changedAttributes old new))

/- The copies of the contents last seen. A copy is kept under a name derived from its path. -/
structure ContentStore where
  copies : Map Path Bytes
  used : Nat

/- How a write ends: as meant, or with an error, before or after the file was opened. -/
inductive Write where
  | done
  | failed (left : Option Bytes)
  deriving DecidableEq

/- What becomes of the changes one reading makes to the store. -/
structure Fate where
  write : Write
  removed : Bool
  deriving DecidableEq

def ContentStore.holds (s : ContentStore) (path : Path) : Bool := (s.copies.lookup path).isSome

def ContentStore.forget (s : ContentStore) (path : Path) (fate : Fate) : ContentStore :=
  match s.copies.lookup path with
  | none => s
  | some copy =>
    if fate.removed then { copies := s.copies.erase path, used := s.used - copy.length } else s

def ContentStore.remember (s : ContentStore) (path : Path) (text : Bytes) (fate : Fate) :
    ContentStore :=
  let before := ((s.copies.lookup path).map List.length).getD 0
  let used := s.used - before
  if used + text.length > maxStoreBytes then s.forget path fate
  else
    match fate.write with
    | .done => { copies := s.copies.insert path text, used := used + text.length }
    | .failed none => s
    | .failed (some left) => { s with copies := s.copies.insert path left }

/- What a reading does to the copies. The lines that differ are not part of the model. -/
def keepContent (s : ContentStore) (key : Path) (state : FileState) (observation : Observation)
    (fate : Fate) : ContentStore :=
  match observation, state with
  | .deleted _, _ => s.forget key fate
  | .changed _ _ _, .present _ (some text) => s.remember key text fate
  | .changed _ _ _, _ => s.forget key fate
  | .created _, .present _ (some text) => s.remember key text fate
  | .created _, _ => s
  | .unchanged, .present _ (some text) => if s.holds key then s else s.remember key text fate
  | .unchanged, _ => s

structure BaselineManager where
  entries : Entries
  content : Option ContentStore
  dirty : Bool

/- What one reading of a path finds, and the fate of what is written because of it. -/
structure Reading where
  stat : Stat
  now : Int
  fate : Fate
  deriving DecidableEq

section Manager
variable (host : Host)

def observeKey (m : BaselineManager) (key : Path) (reading : Reading) :
    BaselineManager × Observation :=
  let state := readState host m.content.isSome reading.now key reading.stat
  let recorded := record m.entries key state
  ({ entries := recorded.1
     content := m.content.map fun s => keepContent s key state recorded.2 reading.fate
     dirty := m.dirty || recorded.2.isChange || decide (recorded.1 ≠ m.entries) },
   recorded.2)

structure ScanReport where
  changes : List Observation
  files : Nat
  truncated : Bool

/- What is done with a path: it is read, or its entry is dropped without a word. -/
inductive Event where
  | observed (key : Path) (observation : Observation)
  | dropped (key : Path)
  deriving DecidableEq

def Event.read : Event → Option Path
  | .observed key _ => some key
  | .dropped _ => none

/- Where a scan has come to. What it did is kept for what is said of it here. -/
structure Scanning where
  manager : BaselineManager
  visited : List Path
  report : ScanReport
  log : List Event

def Scanning.reads (s : Scanning) : List Path := s.log.filterMap Event.read

def Scanning.observe (s : Scanning) (key : Path) (reading : Reading) : Scanning :=
  let observed := observeKey host s.manager key reading
  { s with
    manager := observed.1
    log := s.log ++ [.observed key observed.2]
    report := { s.report with
      changes := s.report.changes ++ if observed.2.isChange then [observed.2] else [] } }

/- One file the walk meets. -/
def visit (disk : Path → Reading) (s : Scanning) (path : Path) : Scanning :=
  if path ∈ s.visited then s
  else
    let s := { s with visited := s.visited ++ [path] }
    if s.manager.entries.size ≥ maxBaselineFiles ∧ s.manager.entries.lookup path = none then
      { s with report := { s.report with truncated := true } }
    else
      { s with report := { s.report with files := s.report.files + 1 } }.observe host path
        (disk path)

/- One entry the walk did not meet. -/
def revisit (patterns : List String) (scope : List Path) (disk : Path → Reading) (s : Scanning)
    (path : Path) : Scanning :=
  if (scope.any fun root => root.isPrefixOf path) = false ∨
      isIgnoredPath host.letters path patterns = true then
    { s with
      manager := { s.manager with
        entries := s.manager.entries.erase path
        dirty := s.manager.dirty || (s.manager.entries.lookup path).isSome }
      log := s.log ++ [.dropped path] }
  else s.observe host path (disk path)

def startScan (m : BaselineManager) : Scanning where
  manager := m
  visited := []
  report := { changes := [], files := 0, truncated := false }
  log := []

def walkFiles (disk : Path → Reading) (m : BaselineManager) (files : List Path) : Scanning :=
  files.foldl (visit host disk) (startScan m)

/- The map gives its keys in an order of its own. -/
def unvisited (order : List Path) (s : Scanning) : List Path :=
  order.filter fun path =>
    (s.manager.entries.lookup path).isSome && !s.visited.contains path

/- A scan of the files met, in that order. -/
def scanFiles (patterns : List String) (scope : List Path) (disk : Path → Reading)
    (order : List Path) (m : BaselineManager) (files : List Path) : Scanning :=
  let walked := walkFiles host disk m files
  (unvisited order walked).foldl (revisit host patterns scope disk) walked

structure FimPolicy where
  watchedPaths : List Path
  ignorePatterns : List String
  recursive : Bool
  deriving DecidableEq

/- The disk while one scan reads it: the watched paths resolved as far as they can be, what
   is below them, what each path reads as, and the order the map gives its keys in. -/
structure Disk where
  resolve : Path → Path
  tree : Path → Option Node
  read : Path → Reading
  order : List Path
  distinct : order.Nodup

def Disk.scope (disk : Disk) (policy : FimPolicy) : List Path :=
  policy.watchedPaths.map disk.resolve

def FimPolicy.depth (policy : FimPolicy) : Nat := if policy.recursive then maxScanDepth else 1

/- The files the walk meets. -/
def Disk.files (disk : Disk) (policy : FimPolicy) : List Path :=
  walked host.letters policy.ignorePatterns policy.depth
    ((disk.scope policy).map fun root => (root, disk.tree root))

def scan (policy : FimPolicy) (disk : Disk) (m : BaselineManager) : Scanning :=
  scanFiles host policy.ignorePatterns (disk.scope policy) disk.read disk.order m
    (disk.files host policy)

end Manager
/- A Unix host for texts of ASCII letters. -/
def unixHost : Host where
  unix := true
  letters := LowerCase.ascii
  blake3 b := String.ofList (b.map fun byte => Char.ofNat (byte.toNat + 1))
  isUtf8 b := b.all (· < 128)

def emptyFile : Reading where
  stat := .found ⟨true, 0, 420, 0, 0, 0⟩ (.bytes [])
  now := 0
  fate := ⟨.done, true⟩

def noBaseline : BaselineManager where
  entries := ∅
  content := none
  dirty := false

end SentinelAgent.Fim
