import SentinelAgent.Library.Maps

/-!
The decoy folders: deployed into the directories of users, watched, and judged on the state they
are found in. The manifest is in memory while the agent runs, and on disk for its next start. What
an agent does between two of its writes is one step; other programs change the folders between
any two steps. A content is given by its BLAKE3. Times are in nanoseconds.
-/
namespace SentinelAgent.Canary

open Maps

/- The names of `DECOYS`. Their contents, which differ from folder to folder, are in `Setup`. -/
def decoys : List String :=
  ["budget-previsionnel.xlsx", "contrat-signe.pdf", "notes-reunion.docx", "photo-identite.jpg"]

def osMetadataFiles : List String := [".DS_Store", ".localized", "desktop.ini", "Thumbs.db"]

/- A folder, by the directory it is in and its name there. -/
structure Path where
  parent : String
  name : String
  deriving DecidableEq

structure CanaryTarget where
  directory : String
  owner : Option (Nat × Nat)
  deriving DecidableEq

structure DecoyFile where
  name : String
  hash : String
  deriving DecidableEq

structure DecoyFolder where
  path : Path
  files : List DecoyFile
  deployedAt : Nat
  tripped : Bool
  deriving DecidableEq

/-! What is on the disk. -/

/- A file with its content, whether or not it can be read, or something that is not a file. -/
inductive Entry where
  | file (content : String) (readable : Bool)
  | other
  deriving DecidableEq

structure Dir where
  entries : Map String Entry
  searchable : Bool
  listable : Bool

inductive CanaryTamper where
  | encrypted | removed
  deriving DecidableEq

structure CanaryIncident where
  folder : Path
  tamper : CanaryTamper
  modified : List String
  missing : List String
  unknown : Finset String
  detectedAt : Nat
  whileStopped : Bool
  deriving DecidableEq

inductive Look where
  | intact | modified | missing
  deriving DecidableEq

def look (dir : Option Dir) (file : DecoyFile) : Look :=
  match dir with
  | none => .missing
  | some d =>
    if d.searchable then
      match d.entries.lookup file.name with
      | some (.file content readable) =>
        if readable && decide (content = file.hash) then .intact else .modified
      | _ => .missing
    else .missing

def DecoyFolder.knows (folder : DecoyFolder) (name : String) : Bool :=
  decide (name ∈ folder.files.map DecoyFile.name) || decide (name ∈ osMetadataFiles) ||
    ['.', '_'].isPrefixOf name.toList

/- The files that appeared in the folder. -/
def DecoyFolder.appeared (folder : DecoyFolder) (dir : Option Dir) : Finset String :=
  match dir with
  | none => ∅
  | some d => if d.listable then d.entries.keys.filter fun name => folder.knows name = false else ∅

def DecoyFolder.found (folder : DecoyFolder) (dir : Option Dir) (what : Look) : List String :=
  (folder.files.filter fun file => decide (look dir file = what)).map DecoyFile.name

def verdict (modified missing : List String) (unknown : Finset String) : Option CanaryTamper :=
  if modified ≠ [] ∨ missing ≠ [] ∧ unknown ≠ ∅ then some .encrypted
  else if missing ≠ [] then some .removed
  else none

def judge (now : Nat) (folder : DecoyFolder) (dir : Option Dir) : Option CanaryIncident :=
  let modified := folder.found dir .modified
  let missing := folder.found dir .missing
  let unknown := folder.appeared dir
  (verdict modified missing unknown).map fun tamper =>
    { folder := folder.path
      tamper := tamper
      modified := modified
      missing := missing
      unknown := unknown
      detectedAt := now
      whileStopped := false }

/- What is not in the code of the manager: the content of a decoy by the name of its folder and
   its own, and how many incidents wait for the receiver. -/
structure Setup where
  content : String → String → String
  queue : Nat

def createFolder (u : Setup) (target : CanaryTarget) (name : String) (now : Nat) :
    DecoyFolder where
  path := { parent := target.directory, name := name }
  files := decoys.map fun file => { name := file, hash := u.content name file }
  deployedAt := now
  tripped := false

/- What `write_folder` leaves. -/
def DecoyFolder.written (folder : DecoyFolder) : Dir where
  entries := insertAll DecoyFile.name (fun file => .file file.hash true) folder.files ∅
  searchable := true
  listable := true

/- An incident, with the folder it is about as it was deployed and as it was found. -/
structure Made where
  folder : DecoyFolder
  seen : Option Dir
  incident : CanaryIncident

/- `check` on the manifest: the first folder at the path that was not reported is. -/
def trip (path : Path) : List DecoyFolder → List DecoyFolder
  | [] => []
  | f :: folders =>
    if f.tripped = false ∧ f.path = path then { f with tripped := true } :: folders
    else f :: trip path folders

/- `deploy` under way: its targets, the manifest so far and the report so far. -/
structure Deploying where
  targets : List CanaryTarget
  manifest : List DecoyFolder
  incidents : List Made
  skipped : List String

/- The watch: the report's targets that were skipped, the folders that were active when it
   began, and the manifest. -/
structure Watching where
  targets : List CanaryTarget
  skipped : List String
  folders : List Path
  manifest : List DecoyFolder

inductive Phase where
  | stopped
  -- `deploy`
  | judging (left : List DecoyFolder) (d : Deploying)
  | creating (left : List CanaryTarget) (d : Deploying)
  | saving (d : Deploying)
  | returning (d : Deploying)
  -- `watch`, and `check` in it: marked in memory, then saved, then sent
  | watching (w : Watching)
  | marked (made : Made) (w : Watching)
  | sending (made : Made) (w : Watching)

/- Beside the state of the agent and of the disk: what was deployed where; the decoys that were
   changed or renamed in place, and not put back; the folders changed since they were last
   looked at; and the incidents handed over or returned. -/
structure State where
  disk : Map Path Dir
  saved : List DecoyFolder
  channel : List Made
  phase : Phase
  deployed : Map Path (List DecoyFile)
  harmed : List (Path × String)
  changed : List Path
  reported : List Made

def active (manifest : List DecoyFolder) : List Path :=
  (manifest.filter fun f => !f.tripped).map DecoyFolder.path

def State.lookedAt (s : State) (path : Path) : State :=
  { s with changed := s.changed.filter fun p => decide (p ≠ path) }

/-! The agent. -/

/- Whether a step of the agent works out. -/
inductive Event where
  | ok (name : String)
  | fails

/- The manifest is read again, and judged. -/
def State.started (s : State) (targets : List CanaryTarget) : State :=
  { s with
    phase := .judging s.saved { targets := targets, manifest := [], incidents := [], skipped := [] }
    changed := [] }

def State.judgeNext (s : State) (now : Nat) (f : DecoyFolder) (left : List DecoyFolder)
    (d : Deploying) : State :=
  if f.tripped then { s with phase := .judging left d }
  else
    let dir := s.disk.lookup f.path
    match judge now f dir with
    | none => { s.lookedAt f.path with phase := .judging left { d with manifest := d.manifest ++ [f] } }
    | some incident =>
      if incident.tamper = .encrypted then
        let made : Made :=
          { folder := f, seen := dir, incident := { incident with whileStopped := true } }
        { s.lookedAt f.path with phase := .judging left { d with incidents := d.incidents ++ [made] } }
      else { s.lookedAt f.path with phase := .judging left d }

def covered (manifest : List DecoyFolder) (target : CanaryTarget) : Bool :=
  manifest.any fun f => decide (f.path.parent = target.directory)

def State.createNext (u : Setup) (s : State) (now : Nat) (event : Event) (target : CanaryTarget)
    (left : List CanaryTarget) (d : Deploying) : State :=
  if covered d.manifest target then { s with phase := .creating left d }
  else
    let skip := { s with phase := .creating left { d with skipped := d.skipped ++ [target.directory] } }
    match event with
    | .ok name =>
      let folder := createFolder u target name now
      if folder.path ∈ s.disk then skip
      else
        { s with
          phase := .creating left { d with manifest := d.manifest ++ [folder] }
          disk := s.disk.insert folder.path folder.written
          deployed := s.deployed.insert folder.path folder.files }
    | .fails => skip

/- `save`: the manifest on the disk is replaced as a whole, or stays. -/
def State.save (s : State) (event : Event) (manifest : List DecoyFolder) : State :=
  match event with
  | .ok _ => { s with saved := manifest }
  | .fails => s

def State.go (u : Setup) (s : State) (event : Event) (now : Nat) : State :=
  match s.phase with
  | .stopped | .watching _ => s
  | .judging [] d => { s with phase := .creating d.targets d }
  | .judging (f :: left) d => s.judgeNext now f left d
  | .creating [] d => { s with phase := .saving d }
  | .creating (target :: left) d => s.createNext u now event target left d
  | .saving d => { s.save event d.manifest with phase := .returning d }
  | .returning d =>
    { s with
      phase := .watching
        { targets := d.targets
          skipped := d.skipped
          folders := active d.manifest
          manifest := d.manifest }
      reported := s.reported ++ d.incidents }
  | .marked made w => { s.save event w.manifest with phase := .sending made w }
  | .sending made w =>
    { s with
      phase := .watching w
      channel := if s.channel.length < u.queue then s.channel ++ [made] else s.channel }

/- One of the folders watched is looked at, after an event or by the period. -/
def State.check (s : State) (path : Path) (now : Nat) : State :=
  match s.phase with
  | .watching w =>
    if path ∈ w.folders then
      match w.manifest.find? fun f => !f.tripped && decide (f.path = path) with
      | none => s.lookedAt path
      | some f =>
        let dir := s.disk.lookup f.path
        match judge now f dir with
        | none => s.lookedAt path
        | some incident =>
          { s.lookedAt path with
            phase := .marked { folder := f, seen := dir, incident := incident }
              { w with manifest := trip path w.manifest } }
    else s
  | _ => s

/-! Other programs. -/

inductive Change where
  -- a file written, replaced, or its permissions changed
  | put (name : String) (entry : Entry)
  | remove (name : String)
  | rename (name newName : String)
  | permit (searchable listable : Bool)
  | removeFolder

def Change.apply (c : Change) (dir : Option Dir) : Option Dir :=
  match c, dir with
  | .put name entry, some d => some { d with entries := d.entries.insert name entry }
  | .put name entry, none =>
    some { entries := (∅ : Map String Entry).insert name entry, searchable := true, listable := true }
  | .remove name, some d => some { d with entries := d.entries.erase name }
  | .rename name newName, some d =>
    match d.entries.lookup name with
    | some entry => some { d with entries := (d.entries.erase name).insert newName entry }
    | none => some d
  | .permit searchable listable, some d =>
    some { d with searchable := searchable, listable := listable }
  | .removeFolder, _ => none
  | _, none => none

def decoy (files : List DecoyFile) (name : String) : Option DecoyFile :=
  files.find? fun file => decide (file.name = name)

def putBack (path : Path) (name : String) (harmed : List (Path × String)) : List (Path × String) :=
  harmed.filter fun h => decide (h ≠ (path, name))

/- What a file under a name makes of the decoy of that name. -/
def harmPut (path : Path) (files : List DecoyFile) (name : String) (entry : Entry)
    (harmed : List (Path × String)) : List (Path × String) :=
  match decoy files name, entry with
  | some file, .file content _ =>
    if content = file.hash then putBack path name harmed else (path, name) :: harmed
  | _, _ => harmed

/- The decoys that are changed or renamed in place, and not put back, after a change. -/
def Change.harms (c : Change) (path : Path) (files : List DecoyFile) (dir : Option Dir)
    (harmed : List (Path × String)) : List (Path × String) :=
  match c with
  | .put name entry => harmPut path files name entry harmed
  | .rename name newName =>
    match dir.bind fun d => d.entries.lookup name with
    | some entry =>
      harmPut path files newName entry
        (if (decoy files name).isSome ∧ name ≠ newName then (path, name) :: harmed else harmed)
    | none => harmed
  | .remove _ | .permit _ _ | .removeFolder => harmed

def State.harmedBy (s : State) (path : Path) (c : Change) : List (Path × String) :=
  match s.deployed.lookup path with
  | some files => c.harms path files (s.disk.lookup path) s.harmed
  | none => s.harmed

def State.change (s : State) (path : Path) (c : Change) : State :=
  { s with
    disk := match c.apply (s.disk.lookup path) with
      | some d => s.disk.insert path d
      | none => s.disk.erase path
    harmed := s.harmedBy path c
    changed := path :: s.changed }

inductive Act where
  | start (targets : List CanaryTarget)
  | go (event : Event) (now : Nat)
  | check (path : Path) (now : Nat)
  -- a stop or a crash: what is in memory or in the channel is lost
  | stop
  | receive
  | change (path : Path) (c : Change)

def State.step (u : Setup) (s : State) : Act → State
  | .start targets =>
    match s.phase with
    | .stopped => s.started targets
    | _ => s
  | .go event now => s.go u event now
  | .check path now => s.check path now
  | .stop => { s with phase := .stopped, channel := [] }
  | .receive =>
    match s.channel with
    | [] => s
    | made :: rest => { s with channel := rest, reported := s.reported ++ [made] }
  | .change path c => s.change path c

def State.start (disk : Map Path Dir) : State where
  disk := disk
  saved := []
  channel := []
  phase := .stopped
  deployed := ∅
  harmed := []
  changed := []
  reported := []

end SentinelAgent.Canary
