import SentinelAgent.Fim.Baseline
import SentinelAgent.Library.Runs

/- What is reported of one path over a history of readings and scans: replayed, the changes
   lead from the state first recorded to the state recorded last. -/
namespace SentinelAgent.Fim
open Maps (Map)
open Runs

/- One state of a file, as the baseline tells states apart: the size and the modification
   time stand for contents that cannot be read. -/
def Same (a b : FimBaseline) : Prop :=
  a.hash = b.hash ∧ a.permissions = b.permissions ∧ a.uid = b.uid ∧ a.gid = b.gid ∧
    (a.hash = "" → a.size = b.size ∧ a.modifiedAt = b.modifiedAt)

/- The same, but that an owner one of the two does not know does not count. -/
def Agrees (known recorded : FimBaseline) : Prop :=
  known.hash = recorded.hash ∧ known.permissions = recorded.permissions ∧
    knownDiffers known.uid recorded.uid = false ∧ knownDiffers known.gid recorded.gid = false ∧
    (known.hash = "" → known.size = recorded.size ∧ known.modifiedAt = recorded.modifiedAt)

instance (a b : FimBaseline) : Decidable (Same a b) := inferInstanceAs (Decidable (_ ∧ _))

instance (a b : FimBaseline) : Decidable (Agrees a b) := inferInstanceAs (Decidable (_ ∧ _))

/- What is known of a file after a report, if the report fits what was known before it. -/
def replayStep (known : Option FimBaseline) : Observation → Option (Option FimBaseline)
  | .unchanged => some known
  | .created new => if known = none then some (some new) else none
  | .deleted old =>
    match known with
    | some k => if Agrees k old then some none else none
    | none => none
  | .changed old new _ =>
    match known with
    | some k => if Agrees k old ∧ ¬ Same k new then some (some new) else none
    | none => none

/- An entry dropped with its watched path is known no longer. -/
def replayEvent (key : Path) (known : Option FimBaseline) :
    Event → Option (Option FimBaseline)
  | .observed path observation => if path = key then replayStep known observation else some known
  | .dropped path => if path = key then some none else some known

def replay (key : Path) (known : Option FimBaseline) (log : List Event) :
    Option (Option FimBaseline) :=
  log.foldlM (replayEvent key) known

def AgreesWith (known recorded : Option FimBaseline) : Prop :=
  match known, recorded with
  | none, none => True
  | some known, some recorded => Agrees known recorded
  | _, _ => False

inductive Op where
  | observe (key : Path) (reading : Reading)
  | scan (policy : FimPolicy) (disk : Disk)

structure Watch where
  manager : BaselineManager
  log : List Event

def step (host : Host) (s : Watch) : Op → Watch
  | .observe key reading =>
    let observed := observeKey host s.manager key reading
    { manager := observed.1, log := s.log ++ [.observed key observed.2] }
  | .scan policy disk =>
    let scanned := scan host policy disk s.manager
    { manager := scanned.manager, log := s.log ++ scanned.log }

/- Whether a reading finds a file that has no entry. -/
def unrecorded (host : Host) (m : BaselineManager) (key : Path) (reading : Reading) : Bool :=
  match readState host m.content.isSome reading.now key reading.stat with
  | .present _ _ => (m.entries.lookup key).isNone
  | _ => false

/- A file without an entry is read by itself only while the baseline has room for it. -/
def HasRoom (host : Host) (s : Watch) : Op → Prop
  | .observe key reading => unrecorded host s.manager key reading = true →
      s.manager.entries.size < maxBaselineFiles
  | .scan _ _ => True

section Step
variable {host : Host} {entries : Entries} {key other : Path}

/- What is known of an owner, beside what is recorded: the readings of a host know all owners
   or none. -/
def OwnerTracked (host : Host) (known recorded : Option Nat) : Prop :=
  known = recorded ∨ (host.unix = true ∧ known = none) ∨ (host.unix = false ∧ recorded = none)

structure Tracked (host : Host) (known recorded : FimBaseline) : Prop where
  hash : known.hash = recorded.hash
  permissions : known.permissions = recorded.permissions
  uid : OwnerTracked host known.uid recorded.uid
  gid : OwnerTracked host known.gid recorded.gid
  unread : known.hash = "" → known.size = recorded.size ∧ known.modifiedAt = recorded.modifiedAt

def TrackedWith (host : Host) (known recorded : Option FimBaseline) : Prop :=
  match known, recorded with
  | none, none => True
  | some known, some recorded => Tracked host known recorded
  | _, _ => False

theorem owner_agrees {known recorded : Option Nat} (tracked : OwnerTracked host known recorded) :
    knownDiffers known recorded = false := by
  obtain same | ⟨_, unknown⟩ | ⟨_, unknown⟩ := tracked
  · rw [same]
    cases recorded with
    | none => rfl
    | some owner => simp [knownDiffers]
  · rw [unknown]
    rfl
  · rw [unknown]
    cases known with
    | none => rfl
    | some owner => rfl

theorem agrees_of_tracked {known recorded : FimBaseline} (tracked : Tracked host known recorded) :
    Agrees known recorded :=
  ⟨tracked.hash, tracked.permissions, owner_agrees tracked.uid, owner_agrees tracked.gid,
    tracked.unread⟩

theorem agreesWith_of_tracked {known recorded : Option FimBaseline}
    (tracked : TrackedWith host known recorded) : AgreesWith known recorded := by
  cases known with
  | none =>
    cases recorded with
    | none => trivial
    | some recorded => exact tracked.elim
  | some known =>
    cases recorded with
    | none => exact tracked.elim
    | some recorded => exact agrees_of_tracked tracked

theorem tracked_refl (entry : FimBaseline) : Tracked host entry entry :=
  ⟨rfl, rfl, Or.inl rfl, Or.inl rfl, fun _ => ⟨rfl, rfl⟩⟩

/- What a reading says of an owner: all of them are known, or none. -/
def OwnerRead (host : Host) (owner : Option Nat) : Prop :=
  if host.unix = true then owner ≠ none else owner = none

theorem owners_read {keepText : Bool} {now : Int} {stat : Stat} {new : FimBaseline}
    {text : Option Bytes} (read : readState host keepText now key stat = .present new text) :
    OwnerRead host new.uid ∧ OwnerRead host new.gid := by
  have entry : ∃ metadata hash, new = entryOf host key metadata hash now := by
    unfold readState at read
    split at read
    · cases read
    · cases read
    · split at read
      · cases read
      · split at read
        · cases read
        · cases read
          exact ⟨_, _, rfl⟩
        · cases read
          exact ⟨_, _, rfl⟩
  obtain ⟨metadata, hash, same⟩ := entry
  rw [same, entryOf, OwnerRead, OwnerRead]
  cases host.unix with
  | true => simp
  | false => simp

theorem knownDiffers_false {a b : Option Nat} :
    knownDiffers a b = false ↔ a = none ∨ b = none ∨ a = b := by
  cases a with
  | none => simp [knownDiffers]
  | some a =>
    cases b with
    | none => simp [knownDiffers]
    | some b => simp [knownDiffers]

theorem owner_refreshed {known recorded new : Option Nat}
    (tracked : OwnerTracked host known recorded) (same : knownDiffers recorded new = false)
    (read : OwnerRead host new) : OwnerTracked host known new := by
  unfold OwnerRead at read
  split at read
  · rename_i unix
    obtain same_known | ⟨_, unknown⟩ | ⟨windows, _⟩ := tracked
    · rcases knownDiffers_false.mp same with none_recorded | none_new | same_new
      · exact Or.inr (Or.inl ⟨unix, same_known.trans none_recorded⟩)
      · exact absurd none_new read
      · exact Or.inl (same_known.trans same_new)
    · exact Or.inr (Or.inl ⟨unix, unknown⟩)
    · rw [unix] at windows
      cases windows
  · rename_i windows
    exact Or.inr (Or.inr ⟨Bool.eq_false_iff.mpr windows, read⟩)

/- A known owner that differs from the recorded one is not the one known. -/
theorem owner_changed {known recorded new : Option Nat}
    (tracked : OwnerTracked host known recorded) (differs : knownDiffers recorded new = true) :
    known ≠ new := by
  intro same
  have agrees := owner_agrees tracked
  rw [← same] at differs
  rcases knownDiffers_false.mp agrees with unknown | unknown | equal
  · rw [unknown] at differs
    cases recorded with
    | none => cases differs
    | some owner => cases differs
  · rw [unknown] at differs
    cases differs
  · rw [equal] at differs
    cases recorded with
    | none => cases differs
    | some owner => simp [knownDiffers] at differs

theorem changedAttributes_eq_nil {old new : FimBaseline} :
    changedAttributes old new = [] ↔ contentDiffers old new = false ∧
      old.permissions = new.permissions ∧ knownDiffers old.uid new.uid = false ∧
        knownDiffers old.gid new.gid = false := by
  simp only [changedAttributes, List.append_eq_nil_iff, and_assoc]
  simp

/- A file that is as recorded, but for a later modification time. -/
theorem tracked_refreshed {known old new : FimBaseline} (tracked : Tracked host known old)
    (same : changedAttributes old new = []) (touched : old.modifiedAt ≠ new.modifiedAt)
    (uid : OwnerRead host new.uid) (gid : OwnerRead host new.gid) : Tracked host known new := by
  obtain ⟨content, permissions, same_uid, same_gid⟩ := changedAttributes_eq_nil.mp same
  unfold contentDiffers at content
  split at content
  · simp [touched] at content
  · rename_i read
    have hash : old.hash = new.hash := by simpa using content
    rw [not_or] at read
    refine ⟨tracked.hash.trans hash, tracked.permissions.trans permissions,
      owner_refreshed tracked.uid same_uid uid, owner_refreshed tracked.gid same_gid gid, ?_⟩
    intro unread
    exact absurd (tracked.hash.symm.trans unread) read.1

/- A change leads to a state that was not known already. -/
theorem change_is_new {known old new : FimBaseline} (tracked : Tracked host known old)
    (changed : changedAttributes old new ≠ []) : ¬ Same known new := by
  intro ⟨hash, permissions, uid, gid, unread⟩
  apply changed
  refine changedAttributes_eq_nil.mpr ⟨?_, tracked.permissions.symm.trans permissions, ?_, ?_⟩
  · have same_hash : old.hash = new.hash := tracked.hash.symm.trans hash
    unfold contentDiffers
    split
    · rename_i either
      have empty : known.hash = "" := by
        rcases either with old_empty | new_empty
        · exact tracked.hash.trans old_empty
        · exact hash.trans new_empty
      obtain ⟨size, modified⟩ := unread empty
      obtain ⟨old_size, old_modified⟩ := tracked.unread empty
      simp [← old_size, ← old_modified, size, modified]
    · simp [same_hash]
  · by_contra differs
    exact owner_changed tracked.uid (Bool.not_eq_false _ |>.mp differs) uid
  · by_contra differs
    exact owner_changed tracked.gid (Bool.not_eq_false _ |>.mp differs) gid

theorem record_other {state : FileState} (differs : other ≠ key) :
    (record entries key state).1.lookup other = entries.lookup other := by
  unfold record
  cases state with
  | unreadable => rfl
  | missing =>
    cases entries.lookup key with
    | none => rfl
    | some old => exact Finmap.lookup_erase_ne differs
  | present new text =>
    cases entries.lookup key with
    | none =>
      simp only
      split
      · exact Finmap.lookup_insert_of_ne _ differs
      · rfl
    | some old =>
      simp only
      split
      · split
        · exact Finmap.lookup_insert_of_ne _ differs
        · rfl
      · exact Finmap.lookup_insert_of_ne _ differs

theorem trackedWith_some {known : Option FimBaseline} {recorded : FimBaseline} :
    TrackedWith host known (some recorded) ↔ ∃ k, known = some k ∧ Tracked host k recorded := by
  cases known with
  | none => simp [TrackedWith]
  | some k => simp [TrackedWith]

theorem trackedWith_none {known : Option FimBaseline} :
    TrackedWith host known none ↔ known = none := by
  cases known with
  | none => simp [TrackedWith]
  | some k => simp [TrackedWith]

/- A reading and its report keep what is known of the file in step with its entry. -/
theorem record_tracked {known : Option FimBaseline} {state : FileState}
    (tracked : TrackedWith host known (entries.lookup key))
    (owners : ∀ new text, state = .present new text → OwnerRead host new.uid ∧ OwnerRead host new.gid)
    (room : ∀ new text, state = .present new text → entries.lookup key = none →
      entries.size < maxBaselineFiles) :
    ∃ next, replayStep known (record entries key state).2 = some next ∧
      TrackedWith host next ((record entries key state).1.lookup key) := by
  cases state with
  | unreadable => exact ⟨known, rfl, tracked⟩
  | missing =>
    cases there : entries.lookup key with
    | none =>
      rw [there] at tracked
      simp only [record, there]
      exact ⟨known, rfl, tracked⟩
    | some old =>
      rw [there] at tracked
      obtain ⟨k, rfl, same⟩ := trackedWith_some.mp tracked
      simp only [record, there, replayStep, Finmap.lookup_erase]
      exact ⟨none, if_pos (agrees_of_tracked same), trivial⟩
  | present new text =>
    obtain ⟨uid, gid⟩ := owners new text rfl
    cases there : entries.lookup key with
    | none =>
      have space := room new text rfl there
      rw [there] at tracked
      simp only [record, there, replayStep, if_pos space, Finmap.lookup_insert]
      exact ⟨some new, if_pos (trackedWith_none.mp tracked), tracked_refl new⟩
    | some old =>
      rw [there] at tracked
      obtain ⟨k, rfl, same⟩ := trackedWith_some.mp tracked
      simp only [record, there]
      by_cases unchanged : changedAttributes old new = []
      · simp only [if_pos unchanged, replayStep]
        refine ⟨some k, rfl, ?_⟩
        by_cases touched : old.modifiedAt ≠ new.modifiedAt
        · rw [if_pos touched, Finmap.lookup_insert]
          exact tracked_refreshed same unchanged touched uid gid
        · rw [if_neg touched, there]
          exact same
      · simp only [if_neg unchanged, replayStep, Finmap.lookup_insert]
        exact ⟨some new, if_pos ⟨agrees_of_tracked same, change_is_new same unchanged⟩,
          tracked_refl new⟩

end Step

/- What has been reported of the path leads to what is recorded of it. -/
def Followed (host : Host) (key : Path) (known : Option FimBaseline) (m : BaselineManager)
    (log : List Event) : Prop :=
  ∃ next, replay key known log = some next ∧ TrackedWith host next (m.entries.lookup key)

section Follow
variable {host : Host} {key : Path} {known : Option FimBaseline} {m : BaselineManager}
  {log : List Event}

theorem replay_append (more : List Event) :
    replay key known (log ++ more) = (replay key known log).bind fun next => replay key next more :=
  List.foldlM_append

theorem present_unrecorded {path : Path} {reading : Reading} {new : FimBaseline}
    {text : Option Bytes}
    (present : readState host m.content.isSome reading.now path reading.stat = .present new text)
    (absent : m.entries.lookup path = none) : unrecorded host m path reading = true := by
  rw [unrecorded, present, absent]
  rfl

theorem followed_observe {path : Path} {reading : Reading}
    (followed : Followed host key known m log)
    (room : unrecorded host m path reading = true → m.entries.size < maxBaselineFiles) :
    Followed host key known (observeKey host m path reading).1
      (log ++ [.observed path (observeKey host m path reading).2]) := by
  obtain ⟨next, accepted, tracked⟩ := followed
  by_cases here : path = key
  · rw [← here] at tracked
    obtain ⟨last, fits, in_step⟩ := record_tracked tracked
      (fun new text present => owners_read present)
      (fun new text present absent => room (present_unrecorded present absent))
    refine ⟨last, ?_, here ▸ in_step⟩
    rw [replay_append, accepted, Option.bind_some]
    simp only [replay, List.foldlM_cons, List.foldlM_nil, replayEvent, if_pos here]
    exact (congrArg (fun o => o.bind fun next => some next) fits)
  · refine ⟨next, ?_, ?_⟩
    · rw [replay_append, accepted]
      simp [replay, replayEvent, here]
    · exact (record_other fun same => here same.symm).symm ▸ tracked

theorem followed_drop (path : Path) (followed : Followed host key known m log) (dirty : Bool) :
    Followed host key known { m with entries := m.entries.erase path, dirty := dirty }
      (log ++ [.dropped path]) := by
  obtain ⟨next, accepted, tracked⟩ := followed
  by_cases here : path = key
  · refine ⟨none, ?_, ?_⟩
    · rw [replay_append, accepted]
      simp [replay, replayEvent, here]
    · rw [here, Finmap.lookup_erase]
      trivial
  · refine ⟨next, ?_, ?_⟩
    · rw [replay_append, accepted]
      simp [replay, replayEvent, here]
    · rw [Finmap.lookup_erase_ne fun same => here same.symm]
      exact tracked

end Follow

section Scan
variable {host : Host} {key : Path} {known : Option FimBaseline} {before : List Event}
  {patterns : List String} {scope : List Path} {read : Path → Reading}

theorem followed_visit {s : Scanning} (path : Path)
    (followed : Followed host key known s.manager (before ++ s.log)) :
    Followed host key known (visit host read s path).manager
      (before ++ (visit host read s path).log) := by
  unfold visit
  split
  · exact followed
  · simp only
    split
    · exact followed
    · rename_i room
      have space : unrecorded host s.manager path (read path) = true →
          s.manager.entries.size < maxBaselineFiles := by
        intro fresh
        by_contra full
        apply room
        refine ⟨Nat.le_of_not_lt full, ?_⟩
        unfold unrecorded at fresh
        split at fresh
        · exact Option.isNone_iff_eq_none.mp fresh
        · cases fresh
      have next := followed_observe followed space
      rwa [List.append_assoc] at next

theorem followed_revisit {s : Scanning} (path : Path)
    (recorded : (s.manager.entries.lookup path).isSome = true)
    (followed : Followed host key known s.manager (before ++ s.log)) :
    Followed host key known (revisit host patterns scope read s path).manager
      (before ++ (revisit host patterns scope read s path).log) := by
  unfold revisit
  split
  · have next := followed_drop path followed
      (s.manager.dirty || (s.manager.entries.lookup path).isSome)
    rwa [List.append_assoc] at next
  · have space : unrecorded host s.manager path (read path) = true →
        s.manager.entries.size < maxBaselineFiles := by
      intro fresh
      unfold unrecorded at fresh
      split at fresh
      · rw [Option.isNone_iff_eq_none.mp fresh] at recorded
        cases recorded
      · cases fresh
    have next := followed_observe followed space
    rwa [List.append_assoc] at next

theorem revisit_other {s : Scanning} {path other : Path} (differs : other ≠ path) :
    (revisit host patterns scope read s path).manager.entries.lookup other =
      s.manager.entries.lookup other := by
  unfold revisit
  split
  · exact Finmap.lookup_erase_ne differs
  · exact record_other differs

theorem followed_revisits {paths : List Path} (distinct : paths.Nodup) {s : Scanning}
    (recorded : ∀ path ∈ paths, (s.manager.entries.lookup path).isSome = true)
    (followed : Followed host key known s.manager (before ++ s.log)) :
    Followed host key known (paths.foldl (revisit host patterns scope read) s).manager
      (before ++ (paths.foldl (revisit host patterns scope read) s).log) := by
  induction paths generalizing s with
  | nil => exact followed
  | cons path paths ih =>
    obtain ⟨absent, distinct⟩ := List.nodup_cons.mp distinct
    apply ih distinct
    · intro other member
      have differs : other ≠ path := fun same => absent (same ▸ member)
      rw [revisit_other differs]
      exact recorded other (List.mem_cons_of_mem path member)
    · exact followed_revisit path (recorded path List.mem_cons_self) followed

theorem followed_visits (files : List Path) {s : Scanning}
    (followed : Followed host key known s.manager (before ++ s.log)) :
    Followed host key known (files.foldl (visit host read) s).manager
      (before ++ (files.foldl (visit host read) s).log) := by
  induction files generalizing s with
  | nil => exact followed
  | cons file files ih => exact ih (followed_visit file followed)

theorem followed_scan {policy : FimPolicy} {disk : Disk} {m : BaselineManager}
    (followed : Followed host key known m before) :
    Followed host key known (scan host policy disk m).manager
      (before ++ (scan host policy disk m).log) := by
  apply followed_revisits
  · exact disk.distinct.filter _
  · intro path member
    have kept := (List.mem_filter.mp member).2
    rw [Bool.and_eq_true] at kept
    exact kept.1
  · apply followed_visits
    rw [startScan, List.append_nil]
    exact followed

end Scan

/- One operation, taken where a file without an entry has room. -/
theorem followed_step {host : Host} {key : Path} {known : Option FimBaseline} (s : Watch) (op : Op)
    (followed : Followed host key known s.manager s.log) (room : HasRoom host s op) :
    Followed host key known (step host s op).manager (step host s op).log := by
  cases op with
  | observe path reading => exact followed_observe followed room
  | scan policy disk => exact followed_scan followed

/- The changes reported of a path, replayed from its first entry, are consistent and lead to
   the entry it has at last. -/
theorem changes_replayed (host : Host) (m : BaselineManager) (ops : List Op)
    (room : Along (step host) (HasRoom host) { manager := m, log := [] } ops) (key : Path) :
    ∃ known, replay key (m.entries.lookup key)
        (run (step host) { manager := m, log := [] } ops).log = some known ∧
      AgreesWith known
        ((run (step host) { manager := m, log := [] } ops).manager.entries.lookup key) := by
  have start : Followed host key (m.entries.lookup key) m [] := by
    refine ⟨m.entries.lookup key, rfl, ?_⟩
    cases m.entries.lookup key with
    | none => trivial
    | some entry => exact tracked_refl entry
  obtain ⟨known, accepted, tracked⟩ := run_keeps
    (I := fun s => Followed host key (m.entries.lookup key) s.manager s.log)
    followed_step start room
  exact ⟨known, accepted, agreesWith_of_tracked tracked⟩

section Cases

instance (host : Host) (s : Watch) (op : Op) : Decidable (HasRoom host s op) :=
  match op with
  | .observe _ _ => inferInstanceAs (Decidable (_ → _))
  | .scan _ _ => isTrue trivial

def readTwice (key : Path) : List Op := [.observe key emptyFile, .observe key emptyFile]

theorem changes_replayed_hosts :
    ∃ known, replay ["etc", "hosts"] (noBaseline.entries.lookup ["etc", "hosts"])
        (run (step unixHost) { manager := noBaseline, log := [] }
          (readTwice ["etc", "hosts"])).log = some known ∧
      AgreesWith known ((run (step unixHost) { manager := noBaseline, log := [] }
        (readTwice ["etc", "hosts"])).manager.entries.lookup ["etc", "hosts"]) :=
  changes_replayed unixHost noBaseline (readTwice ["etc", "hosts"]) (by decide) ["etc", "hosts"]

def repeated (n : Nat) : Path := List.replicate n "d"

theorem repeated_injective : Function.Injective repeated := by
  intro a b same
  have lengths := congrArg List.length same
  simpa [repeated] using lengths

def repeatedEntry (n : Nat) : (_ : Path) × FimBaseline :=
  ⟨repeated n, entryOf unixHost (repeated n) ⟨true, 0, 420, 0, 0, 0⟩ "" 0⟩

/- So many files. -/
def filled (files : Nat) : Entries where
  entries := (Multiset.range files).map repeatedEntry
  nodupKeys := by
    refine Multiset.nodup_keys.mp ?_
    rw [Multiset.keys, Multiset.map_map]
    exact (Multiset.nodup_range files).map repeated_injective

theorem filled_keys (files : Nat) :
    (filled files).entries.keys = (Multiset.range files).map repeated := by
  rw [Multiset.keys, filled, Multiset.map_map]
  rfl

theorem filled_size (files : Nat) : (filled files).size = files := by
  have card : (filled files).size = Multiset.card (filled files).entries.keys := rfl
  rw [card, filled_keys, Multiset.card_map, Multiset.card_range]

theorem new_unrecorded (files : Nat) : (filled files).lookup ["new"] = none := by
  refine Finmap.lookup_eq_none.mpr fun there => ?_
  rw [Finmap.mem_def, filled_keys] at there
  obtain ⟨n, _, same⟩ := Multiset.mem_map.mp there
  have names : "new" ∈ repeated n := by
    rw [same]
    exact List.mem_cons_self
  have name := List.eq_of_mem_replicate names
  revert name
  decide

def fullBaseline : BaselineManager where
  entries := filled maxBaselineFiles
  content := none
  dirty := false

theorem observe_full {m : BaselineManager} {key : Path} (full : maxBaselineFiles ≤ m.entries.size)
    (absent : m.entries.lookup key = none) : ∃ new,
      observeKey unixHost m key emptyFile =
        ({ entries := m.entries
           content := m.content.map fun s => keepContent s key
            (readState unixHost m.content.isSome 0 key emptyFile.stat) (.created new) ⟨.done, true⟩
           dirty := true }, .created new) := by
  have present : ∃ new text, readState unixHost m.content.isSome 0 key emptyFile.stat =
      .present new text := ⟨_, _, rfl⟩
  obtain ⟨new, text, read⟩ := present
  have recorded : record m.entries key (.present new text) = (m.entries, .created new) := by
    simp only [record, absent, if_neg (Nat.not_lt_of_le full)]
  refine ⟨new, ?_⟩
  have now : emptyFile.now = 0 := rfl
  have fate : emptyFile.fate = ⟨.done, true⟩ := rfl
  simp only [observeKey, now, fate, read, recorded, Observation.isChange, Bool.or_true,
    Bool.true_or]

/- A full baseline reports a file it has no entry for as created each time it is read. -/
theorem created_again {m : BaselineManager} {key : Path} (full : maxBaselineFiles ≤ m.entries.size)
    (absent : m.entries.lookup key = none) : ∃ first second,
      (run (step unixHost) { manager := m, log := [] } (readTwice key)).log =
        [.observed key (.created first), .observed key (.created second)] := by
  obtain ⟨first, once⟩ := observe_full full absent
  obtain ⟨second, again⟩ := observe_full (m := (observeKey unixHost m key emptyFile).1)
    (by rw [once]; exact full) (by rw [once]; exact absent)
  refine ⟨first, second, ?_⟩
  simp only [readTwice, run_cons, run_nil, step]
  rw [again, once]
  rfl

theorem created_twice :
    ¬ ∃ known, replay ["new"] (fullBaseline.entries.lookup ["new"])
        (run (step unixHost) { manager := fullBaseline, log := [] } (readTwice ["new"])).log =
          some known ∧
      AgreesWith known ((run (step unixHost) { manager := fullBaseline, log := [] }
        (readTwice ["new"])).manager.entries.lookup ["new"]) := by
  have absent : fullBaseline.entries.lookup ["new"] = none := new_unrecorded maxBaselineFiles
  have full : maxBaselineFiles ≤ fullBaseline.entries.size := by
    rw [fullBaseline, filled_size]
  obtain ⟨first, second, log⟩ := created_again full absent
  intro ⟨known, accepted, _⟩
  rw [log, absent] at accepted
  simp [replay, replayEvent, replayStep] at accepted

end Cases
end SentinelAgent.Fim
