import Mathlib.Data.List.Basic
import SentinelAgent.Library.Maps
import SentinelAgent.Library.Runs

/-!
The key of the local database: the file it is kept in, and what a start of the agent does with it.
Paths are below the platform's data directory. A write takes its steps one after the other and may
fail or be cut short after any of them.
-/
namespace SentinelAgent.DatabaseKey

open Maps

inductive Platform where
  | unix | windows
  deriving DecidableEq

abbrev Bytes := List UInt8

abbrev Path := List String

def keyLength : Nat := 32

/- A key, from the system's random source. -/
abbrev Key := { bytes : Bytes // bytes.length = keyLength }

inductive StorageError where
  | keyManagement (text : String)
  | encryptionLost (text : String)
  deriving DecidableEq

def StorageError.toText : StorageError → String
  | .keyManagement text => s!"key management error: {text}"
  | .encryptionLost text => s!"encryption key lost or unreadable: {text}"

/- What the system's data protection gives back. -/
inductive Unprotected where
  | failed
  | null
  | plain (bytes : Bytes)

/- The machine: what it runs, and on Windows the data protection the file is written with. -/
structure Machine where
  platform : Platform
  protect : Key → Bytes
  unprotect : Bytes → Unprotected

/- A file that may hold the key: there but not readable, or with its bytes. -/
inductive KeyFile where
  | unreadable
  | holds (bytes : Bytes)
  deriving DecidableEq

/- The key files and their temporary ones, and the databases with the key each was made with. -/
structure Disk where
  files : Map Path KeyFile
  databases : Map Path Key

/-! Where the files are. -/

def keyFileName : Platform → String
  | .unix => ".sentinel-key"
  | .windows => "key.dpapi"

def dbFileName : String := "agent.db"

def getKeyPath (platform : Platform) : Path :=
  match platform with
  | .windows => ["data", keyFileName platform]
  | .unix => [keyFileName platform]

/- `path.with_extension("key.tmp")`; only on Unix. -/
def tmpPath (platform : Platform) : Path := [s!"{keyFileName platform}.key.tmp"]

/- The path of `DatabaseConfig::default`. -/
def defaultPath (platform : Platform) : Path :=
  match platform with
  | .windows => ["data", dbFileName]
  | .unix => [dbFileName]

/- Where a start looks for the database when it cannot load the key. -/
def checkedPath : Path := [dbFileName]

def display (path : Path) : String := String.intercalate "/" path

/-! Loading. -/

def sizedKey (bytes : Bytes) (refused : String) : Except StorageError Key :=
  if sized : bytes.length = keyLength then .ok ⟨bytes, sized⟩ else .error (.keyManagement refused)

/- `reason` is what the system says when it fails. A file that is not there is not loaded. -/
def loadKey (m : Machine) (reason : String) (file : KeyFile) : Except StorageError Key :=
  match file with
  | .unreadable =>
    .error (.keyManagement s!"Failed to read key file {display (getKeyPath m.platform)}: {reason}")
  | .holds data =>
    match m.platform with
    | .unix =>
      sizedKey data
        s!"Invalid key file size: expected {toString keyLength} bytes, got {toString data.length}"
    | .windows =>
      match m.unprotect data with
      | .failed => .error (.keyManagement s!"DPAPI decryption failed: {reason}")
      | .null => .error (.keyManagement "DPAPI decryption returned null pointer")
      | .plain bytes =>
        sizedKey bytes (s!"Invalid decrypted key size: expected {toString keyLength} bytes, " ++
          s!"got {toString bytes.length}")

/-! Storing. -/

def Disk.write (d : Disk) (path : Path) (bytes : Bytes) : Disk :=
  { d with files := d.files.insert path (.holds bytes) }

def Disk.rename (d : Disk) (source target : Path) : Disk :=
  match d.files.lookup source with
  | none => d
  | some file => { d with files := (d.files.erase source).insert target file }

/- The file with the first so many bytes. -/
def writePart (path : Path) (bytes : Bytes) (n : Nat) (d : Disk) : Disk := d.write path (bytes.take n)

/- On Unix a temporary file is written and renamed; on Windows the file is written in place. -/
def storeSteps (m : Machine) (key : Key) : List (Disk → Disk) :=
  match m.platform with
  | .unix =>
    (List.range (keyLength + 1)).map (writePart (tmpPath m.platform) key.val) ++
      [fun d : Disk => d.rename (tmpPath m.platform) (getKeyPath m.platform)]
  | .windows =>
    (List.range ((m.protect key).length + 1)).map
      (writePart (getKeyPath m.platform) (m.protect key))

/- How a write ends: as it should; with an error before a file is touched (no directory, nothing
   to write), or after so many steps but not all; or with the process, after so many steps. -/
inductive StoreEnd where
  | completes
  | refused (error : StorageError)
  | fails (after : Nat) (reason : String)
  | interrupted (after : Nat)

def stepped (steps : List (Disk → Disk)) (n : Nat) (d : Disk) : Disk :=
  (steps.take n).foldl (fun d step => step d) d

def storeError (m : Machine) (after : Nat) (reason : String) : StorageError :=
  let path := display (getKeyPath m.platform)
  let tmp := display (tmpPath m.platform)
  match m.platform with
  | .windows => .keyManagement s!"Failed to write key file {path}: {reason}"
  | .unix =>
    if after = 0 then .keyManagement s!"Failed to create temp key file {tmp}: {reason}"
    else if after ≤ keyLength then .keyManagement s!"Failed to write temp key file {tmp}: {reason}"
    else .keyManagement s!"Failed to rename key file {tmp} -> {path}: {reason}"

/- Nothing when the process ends. -/
def storeKey (m : Machine) (key : Key) (ending : StoreEnd) (d : Disk) :
    Disk × Option (Except StorageError Unit) :=
  let steps := storeSteps m key
  match ending with
  | .completes => (stepped steps steps.length d, some (.ok ()))
  | .refused error => (d, some (.error error))
  | .fails after reason =>
    let reached := min after (steps.length - 1)
    (stepped steps reached d, some (.error (storeError m reached reason)))
  | .interrupted after => (stepped steps after d, none)

/-! A start. -/

structure StartIO where
  newKey : Key
  store : StoreEnd
  reason : String
  /-- Whether the database is opened with the key, and created if it is missing. -/
  opens : Bool

def lost (e : StorageError) : StorageError :=
  .encryptionLost (s!"Database exists but key cannot be decrypted ({e.toText}). Manual recovery " ++
    "or backup required.")

/- `KeyManager::new`. -/
def newManager (m : Machine) (io : StartIO) (d : Disk) : Disk × Option (Except StorageError Key) :=
  match d.files.lookup (getKeyPath m.platform) with
  | some file =>
    match loadKey m io.reason file with
    | .ok key => (d, some (.ok key))
    | .error e =>
      if checkedPath ∈ d.databases then (d, some (.error (lost e)))
      else
        -- A failed store is only logged.
        match storeKey m io.newKey io.store d with
        | (stored, none) => (stored, none)
        | (stored, some _) => (stored, some (.ok io.newKey))
  | none =>
    match storeKey m io.newKey io.store d with
    | (stored, none) => (stored, none)
    | (stored, some (.ok ())) => (stored, some (.ok io.newKey))
    | (stored, some (.error e)) => (stored, some (.error e))

/- `Database::open` with the default configuration. -/
def Disk.openDatabase (m : Machine) (key : Key) (d : Disk) : Disk :=
  if defaultPath m.platform ∈ d.databases then d
  else { d with databases := d.databases.insert (defaultPath m.platform) key }

/-!
Whether the key of a database is kept over the starts of the agent. It is in the runs in which
no start writes the key file under a database, and none returns a key it could not store.
-/

open Maps

/-! What a write leaves. -/

def loads (m : Machine) (d : Disk) : Option Key :=
  (d.files.lookup (getKeyPath m.platform)).bind fun file => (loadKey m "" file).toOption

def StoreEnd.isError : StoreEnd → Bool
  | .refused _ | .fails _ _ => true
  | .completes | .interrupted _ => false

/- Whether the write comes as far as the key file. -/
def StoreEnd.touches (m : Machine) (key : Key) (ending : StoreEnd) : Bool :=
  match ending, m.platform with
  | .completes, _ => true
  | .refused _, _ | .fails _ _, .unix => false
  | .fails after _, .windows => decide (after ≠ 0)
  | .interrupted after, .unix => decide ((storeSteps m key).length ≤ after)
  | .interrupted after, .windows => decide (after ≠ 0)

theorem sizedKey_toOption (bytes : Bytes) (refused other : String) :
    (sizedKey bytes refused).toOption = (sizedKey bytes other).toOption := by
  unfold sizedKey
  split <;> rfl

/-- What is loaded does not depend on what the system says of a failure. -/
theorem loadKey_toOption (m : Machine) (reason : String) (file : KeyFile) :
    (loadKey m reason file).toOption = (loadKey m "" file).toOption := by
  cases file with
  | unreadable => rfl
  | holds data =>
    unfold loadKey
    cases m.platform with
    | unix => exact sizedKey_toOption _ _ _
    | windows =>
      dsimp only
      cases m.unprotect data <;> rfl

theorem tmpPath_ne (platform : Platform) : getKeyPath platform ≠ tmpPath platform := by
  cases platform <;> decide

theorem writes_databases (path : Path) (bytes : Bytes) (ns : List Nat) (d : Disk) :
    ((ns.map (writePart path bytes)).foldl (fun d step => step d) d).databases = d.databases := by
  induction ns generalizing d with
  | nil => rfl
  | cons n ns ih => exact ih _

theorem writes_other {path other : Path} (differs : other ≠ path) (bytes : Bytes) (ns : List Nat)
    (d : Disk) :
    ((ns.map (writePart path bytes)).foldl (fun d step => step d) d).files.lookup other =
      d.files.lookup other := by
  induction ns generalizing d with
  | nil => rfl
  | cons n ns ih =>
    refine (ih _).trans ?_
    exact (lookup_insert_eq _ _ _ _).trans (if_neg differs)

theorem writes_all (path : Path) (bytes : Bytes) (k : Nat) (d : Disk) :
    (((List.range (k + 1)).map (writePart path bytes)).foldl
      (fun d step => step d) d).files.lookup path = some (.holds (bytes.take k)) := by
  rw [List.range_succ, List.map_append, List.foldl_append]
  exact (lookup_insert_eq _ _ _ _).trans (if_pos rfl)

theorem rename_databases (d : Disk) (source target : Path) :
    (d.rename source target).databases = d.databases := by
  unfold Disk.rename
  split <;> rfl

theorem rename_found {d : Disk} {source : Path} {file : KeyFile}
    (found : d.files.lookup source = some file) (target : Path) :
    (d.rename source target).files.lookup target = some file := by
  unfold Disk.rename
  rw [found]
  exact (lookup_insert_eq _ _ _ _).trans (if_pos rfl)

theorem stepped_databases (m : Machine) (key : Key) (n : Nat) (d : Disk) :
    (stepped (storeSteps m key) n d).databases = d.databases := by
  unfold stepped storeSteps
  cases m.platform with
  | windows =>
    rw [← List.map_take]
    exact writes_databases _ _ _ d
  | unix =>
    rw [List.take_append, List.foldl_append, ← List.map_take]
    refine Eq.trans ?_ (writes_databases (tmpPath .unix) key.val
      ((List.range (keyLength + 1)).take n) d)
    cases n - ((List.range (keyLength + 1)).map (writePart (tmpPath .unix) key.val)).length with
    | zero => rfl
    | succ more =>
      rw [List.take_succ_cons, List.take_nil, List.foldl_cons, List.foldl_nil]
      exact rename_databases _ _ _

theorem storeSteps_ne_nil (m : Machine) (key : Key) : 0 < (storeSteps m key).length := by
  unfold storeSteps
  cases m.platform with
  | unix => simp
  | windows => simp

/-- Short of the key file, a write leaves it as it was. -/
theorem stepped_short {m : Machine} (unix : m.platform = .unix) (key : Key) {n : Nat}
    (short : n < (storeSteps m key).length) (d : Disk) :
    (stepped (storeSteps m key) n d).files.lookup (getKeyPath m.platform) =
      d.files.lookup (getKeyPath m.platform) := by
  unfold stepped storeSteps at *
  rw [unix] at short ⊢
  dsimp only at short ⊢
  rw [List.length_append, List.length_singleton, List.length_map] at short
  rw [List.take_append_of_le_length (by rw [List.length_map]; omega), ← List.map_take]
  exact writes_other (tmpPath_ne .unix) _ _ d

/-- A write that completes leaves the key. -/
theorem stepped_all {m : Machine} (recovers : ∀ key, m.unprotect (m.protect key) = .plain key.val)
    (key : Key) (d : Disk) :
    loads m (stepped (storeSteps m key) (storeSteps m key).length d) = some key := by
  unfold loads stepped
  rw [List.take_length]
  cases platform : m.platform with
  | unix =>
    have held : (((storeSteps m key).foldl (fun d step => step d) d).files.lookup
        (getKeyPath .unix)) = some (.holds key.val) := by
      have written := writes_all (tmpPath .unix) key.val keyLength d
      unfold storeSteps
      rw [platform]
      dsimp only
      rw [List.foldl_append, List.foldl_cons, List.foldl_nil]
      rw [List.take_of_length_le (Nat.le_of_eq key.property)] at written
      exact rename_found written (getKeyPath .unix)
    rw [held, Option.bind_some, loadKey, platform]
    simp only [sizedKey, key.property, dif_pos]
    rfl
  | windows =>
    have held : (((storeSteps m key).foldl (fun d step => step d) d).files.lookup
        (getKeyPath .windows)) = some (.holds (m.protect key)) := by
      have written := writes_all (getKeyPath .windows) (m.protect key) (m.protect key).length d
      rw [List.take_length] at written
      unfold storeSteps
      rw [platform]
      exact written
    rw [held, Option.bind_some, loadKey, platform]
    simp only [recovers, sizedKey, key.property, dif_pos]
    rfl

theorem storeKey_databases (m : Machine) (key : Key) (ending : StoreEnd) (d : Disk) :
    (storeKey m key ending d).1.databases = d.databases := by
  cases ending with
  | refused error => rfl
  | completes | fails _ _ | interrupted _ => exact stepped_databases m key _ d

theorem storeKey_untouched {m : Machine} {key : Key} {ending : StoreEnd}
    (untouched : ending.touches m key = false) (d : Disk) :
    (storeKey m key ending d).1.files.lookup (getKeyPath m.platform) =
      d.files.lookup (getKeyPath m.platform) := by
  have some_step := storeSteps_ne_nil m key
  cases ending with
  | completes => cases untouched
  | refused error => rfl
  | fails after reason =>
    cases platform : m.platform with
    | unix =>
      rw [← platform]
      exact stepped_short platform key (by omega) d
    | windows =>
      unfold StoreEnd.touches at untouched
      rw [platform] at untouched
      have none_done : after = 0 := by simpa using untouched
      rw [none_done, storeKey, Nat.zero_min]
      rfl
  | interrupted after =>
    cases platform : m.platform with
    | unix =>
      unfold StoreEnd.touches at untouched
      rw [platform] at untouched
      rw [← platform]
      exact stepped_short platform key (Nat.lt_of_not_le (of_decide_eq_false untouched)) d
    | windows =>
      unfold StoreEnd.touches at untouched
      rw [platform] at untouched
      have none_done : after = 0 := by simpa using untouched
      rw [none_done]
      rfl

/- What a start can come to. -/
inductive Started (m : Machine) (io : StartIO) (d : Disk) : Prop where
  | loaded (key : Key) (held : loads m d = some key)
      (out : newManager m io d = (d, some (.ok key)))
  | refused (e : StorageError) (held : loads m d = none)
      (out : newManager m io d = (d, some (.error e)))
  | written (held : loads m d = none)
      (unnoticed : ¬ (getKeyPath m.platform ∈ d.files ∧ checkedPath ∈ d.databases))
      (stored : (newManager m io d).1 = (storeKey m io.newKey io.store d).1)
      (returned : ∀ key, (newManager m io d).2 = some (.ok key) → key = io.newKey ∧
        (io.store = .completes ∨
          (io.store.isError = true ∧ getKeyPath m.platform ∈ d.files)))

theorem started_cases (m : Machine) (io : StartIO) (d : Disk) : Started m io d := by
  cases present : d.files.lookup (getKeyPath m.platform) with
  | none =>
    have held : loads m d = none := by rw [loads, present]; rfl
    have absent : getKeyPath m.platform ∉ d.files := by
      rw [mem_iff_lookup, present]
      rintro ⟨_, held⟩
      cases held
    refine .written held (fun both => absent both.1) ?_ ?_
    · unfold newManager
      rw [present]
      dsimp only
      split <;> simp_all
    · intro key out
      unfold newManager at out
      rw [present] at out
      cases ending : io.store with
      | completes =>
        rw [ending] at out
        exact ⟨(Except.ok.inj (Option.some.inj out)).symm, Or.inl rfl⟩
      | refused _ | fails _ _ | interrupted _ =>
        rw [ending] at out
        cases out
  | some file =>
    cases load : loadKey m io.reason file with
    | ok key =>
      refine .loaded key ?_ ?_
      · rw [loads, present, Option.bind_some, ← loadKey_toOption m io.reason, load]
        rfl
      · unfold newManager
        rw [present]
        simp only [load]
    | error e =>
      have held : loads m d = none := by
        rw [loads, present, Option.bind_some, ← loadKey_toOption m io.reason, load]
        rfl
      by_cases checked : checkedPath ∈ d.databases
      · refine .refused (lost e) held ?_
        unfold newManager
        rw [present]
        simp only [load, if_pos checked]
      · refine .written held (fun both => checked both.2) ?_ ?_
        · unfold newManager
          rw [present]
          simp only [load, if_neg checked]
          split <;> simp_all
        · intro key out
          unfold newManager at out
          rw [present] at out
          simp only [load, if_neg checked] at out
          have there : getKeyPath m.platform ∈ d.files := mem_iff_lookup.mpr ⟨file, present⟩
          cases ending : io.store with
          | completes =>
            rw [ending] at out
            exact ⟨(Except.ok.inj (Option.some.inj out)).symm, Or.inl rfl⟩
          | refused _ | fails _ _ =>
            rw [ending] at out
            exact ⟨(Except.ok.inj (Option.some.inj out)).symm, Or.inr ⟨rfl, there⟩⟩
          | interrupted _ =>
            rw [ending] at out
            cases out

/-! Runs. -/

/- The disk, and the key returned last if nothing else has changed the key file since. -/
structure Host where
  disk : Disk
  returned : Option Key

inductive Act where
  | start (io : StartIO)
  | keyFile (file : Option KeyFile)
  | removeDatabase (path : Path)

/- Something else leaves the key file absent, not loadable, or with the database's key. -/
def Disk.withKeyFile (m : Machine) (file : Option KeyFile) (d : Disk) : Disk :=
  match file with
  | none => { d with files := d.files.erase (getKeyPath m.platform) }
  | some file => { d with files := d.files.insert (getKeyPath m.platform) file }

def Disk.right (m : Machine) (d : Disk) : Bool :=
  match d.databases.lookup (defaultPath m.platform), loads m d with
  | some key, some other => decide (other = key)
  | _, _ => true

def Host.step (m : Machine) (s : Host) : Act → Host
  | .start io =>
    match newManager m io s.disk with
    | (d, some (.ok key)) =>
      { disk := if io.opens then d.openDatabase m key else d, returned := some key }
    | (d, _) => { s with disk := d }
  | .keyFile file =>
    if (s.disk.withKeyFile m file).right m then
      { disk := s.disk.withKeyFile m file, returned := none }
    else s
  | .removeDatabase path => { s with disk.databases := s.disk.databases.erase path }

/- What is asked of a start. -/
structure Keeps (m : Machine) (io : StartIO) (s : Host) : Prop where
  database : ∀ key, s.disk.databases.lookup (defaultPath m.platform) = some key →
    (newManager m io s.disk).2 = some (.ok key) ∨
      ((∀ other, (newManager m io s.disk).2 ≠ some (.ok other)) ∧
        (newManager m io s.disk).1.files.lookup (getKeyPath m.platform) =
          s.disk.files.lookup (getKeyPath m.platform))
  again : ∀ key, s.returned = some key → (newManager m io s.disk).2 = some (.ok key)

def KeyKept (m : Machine) (s : Host) : Act → Prop
  | .start io => Keeps m io s
  | _ => True

/- The key is loaded, or its loss is noticed; or it is written where there is no database, and
   returned only if it was. -/
def WellStarted (m : Machine) (s : Host) : Act → Prop
  | .start io =>
    (loads m s.disk).isSome = true ∨
    (getKeyPath m.platform ∈ s.disk.files ∧ checkedPath ∈ s.disk.databases) ∨
    ((defaultPath m.platform ∉ s.disk.databases ∨ io.store.touches m io.newKey = false) ∧
      (getKeyPath m.platform ∉ s.disk.files ∨ io.store.isError = false))
  | _ => True

instance (m : Machine) (s : Host) (act : Act) : Decidable (WellStarted m s act) :=
  match act with
  | .start _ => inferInstanceAs (Decidable (_ ∨ _ ∨ _))
  | .keyFile _ => inferInstanceAs (Decidable True)
  | .removeDatabase _ => inferInstanceAs (Decidable True)

/- What the starts rest on: a key file that loads has the key of the database, and the key
   returned last. -/
structure InPlace (m : Machine) (s : Host) : Prop where
  database : ∀ key, s.disk.databases.lookup (defaultPath m.platform) = some key →
    ∀ other, loads m s.disk = some other → other = key
  again : ∀ key, s.returned = some key → loads m s.disk = some key

section Step

variable {m : Machine} {s : Host} {io : StartIO}

theorem loads_eq {d e : Disk} (same : d.files.lookup (getKeyPath m.platform) =
    e.files.lookup (getKeyPath m.platform)) : loads m d = loads m e := by
  rw [loads, loads, same]

theorem openDatabase_files (key : Key) (d : Disk) : (d.openDatabase m key).files = d.files := by
  unfold Disk.openDatabase
  split <;> rfl

theorem loads_openDatabase (key : Key) (d : Disk) : loads m (d.openDatabase m key) = loads m d :=
  loads_eq (by rw [openDatabase_files])

theorem lookup_openDatabase {key other : Key} {d : Disk}
    (held : (d.openDatabase m key).databases.lookup (defaultPath m.platform) = some other) :
    other = key ∨ d.databases.lookup (defaultPath m.platform) = some other := by
  unfold Disk.openDatabase at held
  split at held
  · exact Or.inr held
  · rw [lookup_insert_eq, if_pos rfl] at held
    exact Or.inl (Option.some.inj held).symm

/-- A key returned that the file now holds is in place. -/
theorem inPlace_returned {d : Disk} {key : Key} (held : loads m d = some key)
    (same : ∀ other, d.databases.lookup (defaultPath m.platform) = some other → other = key) :
    InPlace m { disk := if io.opens then d.openDatabase m key else d, returned := some key } where
  database other found another loaded := by
    have its : another = key := by
      split at loaded
      · rw [loads_openDatabase, held] at loaded
        exact (Option.some.inj loaded).symm
      · rw [held] at loaded
        exact (Option.some.inj loaded).symm
    rw [its]
    split at found
    · rcases lookup_openDatabase found with made | before
      · exact made.symm
      · exact (same other before).symm
    · exact (same other found).symm
  again other found := by
    cases found
    split
    · rwa [loads_openDatabase]
    · exact held

/-- A start that meets the condition keeps the key, and leaves things in place. -/
theorem start_keeps (recovers : ∀ key, m.unprotect (m.protect key) = .plain key.val)
    (inPlace : InPlace m s) (well : WellStarted m s (.start io)) :
    Keeps m io s ∧ InPlace m (s.step m (.start io)) := by
  cases started_cases m io s.disk with
  | loaded key held out =>
    refine ⟨⟨fun other found => Or.inl ?_, fun other found => ?_⟩, ?_⟩
    · rw [out, inPlace.database other found key held]
    · have loaded := inPlace.again other found
      rw [held] at loaded
      rw [out, Option.some.inj loaded]
    · rw [Host.step, out]
      exact inPlace_returned held fun other found => (inPlace.database other found key held).symm
  | refused e held out =>
    refine ⟨⟨fun other _ => Or.inr ⟨fun another returned => ?_, by rw [out]⟩,
      fun other found => ?_⟩, ?_⟩
    · rw [out] at returned
      cases returned
    · have loaded := inPlace.again other found
      rw [held] at loaded
      cases loaded
    · rw [Host.step, out]
      exact inPlace
  | written held unnoticed stored returned =>
    have nothing : s.returned = none := by
      by_contra some_key
      obtain ⟨key, found⟩ := Option.ne_none_iff_exists'.mp some_key
      have loaded := inPlace.again key found
      rw [held] at loaded
      cases loaded
    obtain loaded | ⟨there, noticed⟩ | ⟨untouched, no_error⟩ := well
    · rw [held] at loaded
      cases loaded
    · exact absurd ⟨there, noticed⟩ unnoticed
    -- A key returned has been stored, and so where there was no database.
    have completes : ∀ key, (newManager m io s.disk).2 = some (.ok key) →
        key = io.newKey ∧ io.store = .completes := by
      intro key out
      obtain ⟨its, stored_it | ⟨error, there⟩⟩ := returned key out
      · exact ⟨its, stored_it⟩
      · rcases no_error with absent | not_error
        · exact absurd there absent
        · rw [error] at not_error
          cases not_error
    have leaves : ∀ key, s.disk.databases.lookup (defaultPath m.platform) = some key →
        io.store.touches m io.newKey = false := by
      intro key found
      rcases untouched with absent | short
      · exact absurd (mem_iff_lookup.mpr ⟨key, found⟩) absent
      · exact short
    refine ⟨⟨fun key found => Or.inr ⟨fun other out => ?_, ?_⟩, fun key found => ?_⟩, ?_⟩
    · have touched := leaves key found
      rw [(completes other out).2] at touched
      cases touched
    · rw [stored]
      exact storeKey_untouched (leaves key found) s.disk
    · rw [nothing] at found
      cases found
    · have databases : (newManager m io s.disk).1.databases = s.disk.databases := by
        rw [stored, storeKey_databases]
      rw [Host.step]
      split
      · rename_i d key out
        have its := completes key (congrArg Prod.snd out)
        have its_disk : d = (storeKey m io.newKey io.store s.disk).1 := by rw [← stored, out]
        refine inPlace_returned ?_ fun other found => ?_
        · rw [its_disk, its.1, its.2]
          exact stepped_all recovers io.newKey s.disk
        · rw [out] at databases
          rw [show d.databases = s.disk.databases from databases] at found
          have touched := leaves other found
          rw [its.2] at touched
          cases touched
      · rename_i d result _ out
        have its_disk : d = (storeKey m io.newKey io.store s.disk).1 := by rw [← stored, out]
        constructor
        · intro key found other loaded
          rw [out] at databases
          rw [show d.databases = s.disk.databases from databases] at found
          rw [its_disk, loads_eq (storeKey_untouched (leaves key found) s.disk), held] at loaded
          cases loaded
        · intro key found
          rw [nothing] at found
          cases found

theorem keyFile_inPlace (inPlace : InPlace m s) (file : Option KeyFile) :
    InPlace m (s.step m (.keyFile file)) := by
  rw [Host.step]
  split
  · rename_i right
    constructor
    · intro key found other loaded
      have there : (s.disk.withKeyFile m file).databases.lookup (defaultPath m.platform) =
          some key := found
      rw [Disk.right, there, loaded] at right
      exact of_decide_eq_true right
    · intro key found
      cases found
  · exact inPlace

theorem removeDatabase_inPlace (inPlace : InPlace m s) (path : Path) :
    InPlace m (s.step m (.removeDatabase path)) where
  database key found other loaded := by
    rw [Host.step, lookup_erase_eq] at found
    split at found
    · cases found
    · exact inPlace.database key found other loaded
  again key found := inPlace.again key found

end Step

/-- In a run in which no start writes the key file under a database and none returns a key it
    could not store, the key of the database is never lost or replaced by a start. -/
theorem key_kept {m : Machine} {s : Host} {acts : List Act}
    (recovers : ∀ key, m.unprotect (m.protect key) = .plain key.val)
    (new : defaultPath m.platform ∉ s.disk.databases) (first : s.returned = none)
    (well : Runs.Along (Host.step m) (WellStarted m) s acts) :
    Runs.Along (Host.step m) (KeyKept m) s acts := by
  have start : InPlace m s := by
    constructor
    · intro key found
      exact absurd (mem_iff_lookup.mpr ⟨key, found⟩) new
    · intro key found
      rw [first] at found
      cases found
  refine Runs.along_imp (I := InPlace m) (fun s act inPlace well => ?_)
    (fun s act inPlace well => ?_) start well
  · cases act with
    | start io => exact (start_keeps recovers inPlace well).1
    | keyFile _ | removeDatabase _ => trivial
  · cases act with
    | start io => exact (start_keeps recovers inPlace well).2
    | keyFile file => exact keyFile_inPlace inPlace file
    | removeDatabase path => exact removeDatabase_inPlace inPlace path

/-! A machine. -/

def oneKey (byte : UInt8) : Key := ⟨List.replicate keyLength byte, List.length_replicate⟩

/- A data protection that marks what it protects. -/
def marking (platform : Platform) : Machine where
  platform := platform
  protect key := 1 :: key.val
  unprotect
    | 1 :: bytes => .plain bytes
    | _ => .failed

def newHost : Host where
  disk := { files := ∅, databases := ∅ }
  returned := none

def startWith (byte : UInt8) : Act :=
  .start { newKey := oneKey byte, store := .completes, reason := "", opens := true }

/- A first start, a restart, and one that finds the key file cut short. -/
theorem key_kept_restarts :
    Runs.Along (Host.step (marking .unix)) (KeyKept (marking .unix)) newHost
      [startWith 1, startWith 2, .keyFile (some (.holds [1])), startWith 3] := by
  have recovers : ∀ key, (marking .unix).unprotect ((marking .unix).protect key) =
      .plain key.val := fun _ => rfl
  exact key_kept recovers Finmap.notMem_empty rfl (by decide)

/-- A key file that is gone is written again with another key, under the database. -/
theorem key_replaced :
    ¬ ∀ (m : Machine) (s : Host) (acts : List Act),
      (∀ key, m.unprotect (m.protect key) = .plain key.val) →
      defaultPath m.platform ∉ s.disk.databases → s.returned = none →
        Runs.Along (Host.step m) (KeyKept m) s acts := by
  intro claimed
  obtain ⟨_, _, kept, _⟩ := claimed (marking .unix) newHost
    [startWith 1, .keyFile none, startWith 2] (fun _ => rfl) Finmap.notMem_empty rfl
  have out : (newManager (marking .unix) ⟨oneKey 2, .completes, "", true⟩
      ((newHost.step (marking .unix) (startWith 1)).step (marking .unix) (.keyFile none)).disk).2 =
        some (.ok (oneKey 2)) := by rfl
  rcases kept.database (oneKey 1) (by decide) with same | ⟨never, _⟩
  · rw [out] at same
    exact absurd (Except.ok.inj (Option.some.inj same)) (by decide)
  · exact never (oneKey 2) out

end SentinelAgent.DatabaseKey
