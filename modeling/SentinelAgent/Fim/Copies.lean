import SentinelAgent.Fim.Replay

/- The copies kept of file contents, over a history of readings, scans and removals: whose they
   are, what is in them, and what they come to. -/
namespace SentinelAgent.Fim
open Maps (Map total)
open Runs

/- A reading that says what the file is. -/
def Stat.isRead : Stat → Bool
  | .failed => false
  | .found metadata .failed => !metadata.isFile
  | _ => true

/- The most recent reading of each path. -/
def noteReading (last : Path → Stat) (key : Path) (stat : Stat) : Path → Stat :=
  if stat.isRead = true then Function.update last key stat else last

def noteEvent (read : Path → Reading) (last : Path → Stat) : Event → Path → Stat
  | .observed key _ => noteReading last key (read key).stat
  | .dropped _ => last

/- Small, text, and readable by every account. -/
def MayKeep (host : Host) (path : Path) (metadata : Metadata) (content : Bytes) : Prop :=
  content.length ≤ maxFileBytes ∧ 0 ∉ content ∧ host.isUtf8 content = true ∧
    if host.unix = true then metadata.mode / 4 % 2 = 1 else isPrivateName host path = false

def CopyOf (host : Host) (path : Path) (copy : Bytes) : Stat → Prop
  | .found metadata (.bytes b) => metadata.isFile = true ∧ b = copy ∧ MayKeep host path metadata b
  | _ => False

structure Counted (s : ContentStore) : Prop where
  used : s.used = total List.length s.copies
  bounded : s.used ≤ maxStoreBytes

structure CopiesKept (host : Host) (last : Path → Stat) (entries : Entries) (s : ContentStore) :
    Prop where
  recorded : ∀ path copy, s.copies.lookup path = some copy → (entries.lookup path).isSome = true
  current : ∀ path copy, s.copies.lookup path = some copy → CopyOf host path copy (last path)
  counted : Counted s

def BaselineManager.remove (m : BaselineManager) (key : Path) : BaselineManager :=
  { m with
    entries := m.entries.erase key
    dirty := m.dirty || (m.entries.lookup key).isSome }

inductive CopyOp where
  | observe (key : Path) (reading : Reading)
  | scan (policy : FimPolicy) (disk : Disk)
  | remove (key : Path)

structure Holding where
  manager : BaselineManager
  last : Path → Stat

def Holding.Kept (host : Host) (s : Holding) : Prop :=
  ∀ store, s.manager.content = some store → CopiesKept host s.last s.manager.entries store

def copyStep (host : Host) (s : Holding) : CopyOp → Holding
  | .observe key reading =>
    { manager := (observeKey host s.manager key reading).1
      last := noteReading s.last key reading.stat }
  | .scan policy disk =>
    let scanned := scan host policy disk s.manager
    { manager := scanned.manager, last := scanned.log.foldl (noteEvent disk.read) s.last }
  | .remove key => { s with manager := s.manager.remove key }

section Condition

/- A copy of the path, if there is one, can be removed. -/
def Removes (s : ContentStore) (path : Path) (fate : Fate) : Prop :=
  s.holds path = true → fate.removed = true

/- The text is written whole, or a failed write leaves no other text. -/
def Writes (s : ContentStore) (path : Path) (text : Bytes) (fate : Fate) : Prop :=
  let before := ((s.copies.lookup path).map List.length).getD 0
  if s.used - before + text.length > maxStoreBytes then Removes s path fate
  else
    match fate.write with
    | .done => True
    | .failed left => ∀ copy ∈ left <|> s.copies.lookup path, copy = text ∧ copy.length = before

/- No copy is made of the text. -/
def Spared (s : ContentStore) (text : Bytes) (fate : Fate) : Prop :=
  s.used + text.length > maxStoreBytes ∨ fate.write = .failed none

def ReadingKeeps (host : Host) (entries : Entries) (s : ContentStore) (key : Path)
    (reading : Reading) : Prop :=
  match readState host true reading.now key reading.stat with
  | .unreadable => True
  | .missing => (entries.lookup key).isSome = true → Removes s key reading.fate
  | .present new text =>
    match entries.lookup key with
    | none =>
      ∀ t ∈ text, if entries.size < maxBaselineFiles then Writes s key t reading.fate
        else Spared s t reading.fate
    | some old =>
      if changedAttributes old new = [] then
        match s.copies.lookup key with
        | some copy => CopyOf host key copy reading.stat
        | none => ∀ t ∈ text, Writes s key t reading.fate
      else
        match text with
        | some t => Writes s key t reading.fate
        | none => Removes s key reading.fate

def ObserveKeeps (host : Host) (m : BaselineManager) (key : Path) (reading : Reading) : Prop :=
  match m.content with
  | none => True
  | some s => ReadingKeeps host m.entries s key reading

/- An entry goes without its copy. -/
def NoCopy (m : BaselineManager) (path : Path) : Prop :=
  match m.content with
  | none => True
  | some s => s.holds path = false

def VisitKeeps (host : Host) (read : Path → Reading) (s : Scanning) (path : Path) : Prop :=
  path ∈ s.visited ∨
    (s.manager.entries.size ≥ maxBaselineFiles ∧ s.manager.entries.lookup path = none) ∨
    ObserveKeeps host s.manager path (read path)

def RevisitKeeps (host : Host) (patterns : List String) (scope : List Path)
    (read : Path → Reading) (s : Scanning) (path : Path) : Prop :=
  if (scope.any fun root => root.isPrefixOf path) = false ∨
      isIgnoredPath host.letters path patterns = true then NoCopy s.manager path
  else ObserveKeeps host s.manager path (read path)

/- The step takes no branch that leaves a copy behind. -/
def KeepsCopies (host : Host) (s : Holding) : CopyOp → Prop
  | .observe key reading => ObserveKeeps host s.manager key reading
  | .scan policy disk =>
    let walked := walkFiles host disk.read s.manager (disk.files host policy)
    Along (visit host disk.read) (VisitKeeps host disk.read) (startScan s.manager)
        (disk.files host policy) ∧
      Along (revisit host policy.ignorePatterns (disk.scope policy) disk.read)
        (RevisitKeeps host policy.ignorePatterns (disk.scope policy) disk.read) walked
        (unvisited disk.order walked)
  | .remove key => NoCopy s.manager key

end Condition

section Reading
variable {host : Host} {path : Path}

theorem mayKeep_of_text {metadata : Metadata} {content text : Bytes}
    (kept : textToKeep host path metadata content = some text) :
    content = text ∧ MayKeep host path metadata content := by
  unfold textToKeep at kept
  split at kept
  · cases kept
  · rename_i small
    rw [not_or, Nat.not_lt] at small
    split at kept
    · cases kept
    · rename_i shared
      split at kept
      · cases kept
      · rename_i named
        split at kept
        · rename_i utf8
          cases kept
          refine ⟨rfl, small.1, small.2, utf8, ?_⟩
          split
          · rename_i unix
            have bit : ¬ metadata.mode / 4 % 2 = 0 := fun private_bit => shared ⟨unix, private_bit⟩
            omega
          · rename_i windows
            exact Bool.not_eq_true _ ▸ fun hidden =>
              named ⟨Bool.not_eq_true _ ▸ windows, hidden⟩
        · cases kept

/- The text a reading gives is that of the file it read, and may be kept. -/
theorem copyOf_present {now : Int} {stat : Stat} {new : FimBaseline} {text : Bytes}
    (read : readState host true now path stat = .present new (some text)) :
    CopyOf host path text stat := by
  cases stat with
  | gone => cases read
  | failed => cases read
  | found metadata contents =>
    simp only [readState] at read
    split at read
    · cases read
    · rename_i file
      cases contents with
      | denied => cases read
      | failed => cases read
      | bytes b =>
        simp only [FileState.present.injEq] at read
        obtain ⟨_, kept⟩ := read
        split at kept
        · obtain ⟨same, may⟩ := mayKeep_of_text kept
          exact ⟨Bool.not_eq_false _ ▸ file, same, may⟩
        · cases kept

theorem isRead_iff {now : Int} {keepText : Bool} {stat : Stat} :
    stat.isRead = false ↔ readState host keepText now path stat = .unreadable := by
  cases stat with
  | gone => simp [Stat.isRead, readState]
  | failed => simp [Stat.isRead, readState]
  | found metadata contents =>
    cases contents with
    | bytes b =>
      simp only [Stat.isRead, readState]
      split <;> simp
    | denied =>
      simp only [Stat.isRead, readState]
      split <;> simp
    | failed =>
      simp only [Stat.isRead, readState]
      split
      · rename_i other
        simp [other]
      · rename_i file
        simp [file]

end Reading

/- A store whose copy of one path has become another, or none. -/
structure Replaced (s : ContentStore) (key : Path) (copy : Option Bytes) (s' : ContentStore) :
    Prop where
  here : s'.copies.lookup key = copy
  others : ∀ other, other ≠ key → s'.copies.lookup other = s.copies.lookup other
  counted : Counted s'

section Store
variable {s : ContentStore} {key : Path} {fate : Fate}

theorem replaced_same (counted : Counted s) : Replaced s key (s.copies.lookup key) s :=
  ⟨rfl, fun _ _ => rfl, counted⟩

theorem forget_replaced (counted : Counted s) (removes : Removes s key fate) :
    Replaced s key none (s.forget key fate) := by
  unfold ContentStore.forget
  cases there : s.copies.lookup key with
  | none =>
    have same := @replaced_same s key counted
    rw [there] at same
    exact same
  | some copy =>
    have removed : fate.removed = true := removes (by rw [ContentStore.holds, there]; rfl)
    have erased := Maps.total_erase List.length s.copies key
    rw [there, Option.map_some, Option.getD_some] at erased
    simp only [if_pos removed]
    refine ⟨Finmap.lookup_erase key s.copies, fun other differs => Finmap.lookup_erase_ne differs,
      ?_, ?_⟩
    · have used := counted.used
      simp only
      omega
    · exact Nat.le_trans (Nat.sub_le _ _) counted.bounded

/- A copy written whole, when it fits. -/
theorem insert_replaced (counted : Counted s) (text : Bytes)
    (fits : s.used - ((s.copies.lookup key).map List.length).getD 0 + text.length ≤ maxStoreBytes) :
    Replaced s key (some text)
      { copies := s.copies.insert key text
        used := s.used - ((s.copies.lookup key).map List.length).getD 0 + text.length } := by
  refine ⟨Finmap.lookup_insert _, fun other differs => Finmap.lookup_insert_of_ne _ differs,
    ?_, fits⟩
  have inserted := Maps.total_insert List.length s.copies key text
  have erased := Maps.total_erase List.length s.copies key
  have used := counted.used
  simp only
  omega

theorem remember_replaced (counted : Counted s) {text : Bytes} (writes : Writes s key text fate) :
    ∃ copy, Replaced s key copy (s.remember key text fate) ∧ ∀ c, copy = some c → c = text := by
  unfold Writes at writes
  unfold ContentStore.remember
  simp only at writes ⊢
  split
  · rename_i full
    rw [if_pos full] at writes
    exact ⟨none, forget_replaced counted writes, fun c held => nomatch held⟩
  · rename_i room
    rw [if_neg room] at writes
    cases outcome : fate.write with
    | done =>
      exact ⟨some text, insert_replaced counted text (Nat.le_of_not_lt room),
        fun c held => (Option.some.inj held).symm⟩
    | failed left =>
      rw [outcome] at writes
      cases left with
      | none =>
        refine ⟨s.copies.lookup key, replaced_same counted, ?_⟩
        intro c held
        exact (writes c (by simpa using held)).1
      | some left =>
        obtain ⟨same, size⟩ := writes left rfl
        refine ⟨some left, ⟨Finmap.lookup_insert _,
          fun other differs => Finmap.lookup_insert_of_ne _ differs, ?_, counted.bounded⟩, ?_⟩
        · have inserted := Maps.total_insert List.length s.copies key left
          have used := counted.used
          simp only
          omega
        · intro c held
          exact (Option.some.inj held).symm.trans same

theorem remember_spared (absent : s.copies.lookup key = none) {text : Bytes}
    (spared : Spared s text fate) : s.remember key text fate = s := by
  unfold ContentStore.remember
  simp only [absent, Option.map_none, Option.getD_none, Nat.sub_zero]
  split
  · simp only [ContentStore.forget, absent]
  · rename_i room
    rcases spared with full | failed
    · exact absurd full room
    · rw [failed]

end Store

section Step
variable {host : Host} {last : Path → Stat} {entries : Entries} {s : ContentStore} {key : Path}
  {reading : Reading}

theorem noteReading_other {other : Path} {stat : Stat} (differs : other ≠ key) :
    noteReading last key stat other = last other := by
  unfold noteReading
  split
  · exact Function.update_of_ne differs _ _
  · rfl

/- A change of one path's entry and copy, where the copy is of the path's last reading. -/
theorem kept_replaced {entries' : Entries} {s' : ContentStore} {stat : Stat} {copy : Option Bytes}
    (kept : CopiesKept host last entries s) (replaced : Replaced s key copy s')
    (others : ∀ other, other ≠ key → entries'.lookup other = entries.lookup other)
    (fits : ∀ c, copy = some c → (entries'.lookup key).isSome = true ∧
      CopyOf host key c (noteReading last key stat key)) :
    CopiesKept host (noteReading last key stat) entries' s' := by
  refine ⟨?_, ?_, replaced.counted⟩
  · intro path held there
    by_cases here : path = key
    · rw [here, replaced.here] at there
      rw [here]
      exact (fits held there).1
    · rw [replaced.others path here] at there
      rw [others path here]
      exact kept.recorded path held there
  · intro path held there
    by_cases here : path = key
    · rw [here, replaced.here] at there
      rw [here]
      exact (fits held there).2
    · rw [replaced.others path here] at there
      rw [noteReading_other here]
      exact kept.current path held there

theorem noteReading_here {stat : Stat} (read : stat.isRead = true) :
    noteReading last key stat key = stat := by
  rw [noteReading, if_pos read, Function.update_self]

theorem noteReading_unread {stat : Stat} (unread : stat.isRead = false) :
    noteReading last key stat = last := by
  rw [noteReading, unread]
  rfl

theorem copy_absent (kept : CopiesKept host last entries s) (absent : entries.lookup key = none) :
    s.copies.lookup key = none := by
  cases there : s.copies.lookup key with
  | none => rfl
  | some copy =>
    have recorded := kept.recorded key copy there
    rw [absent] at recorded
    cases recorded

section Keep
variable {new old : FimBaseline} {text : Option Bytes} {fate : Fate}

theorem keep_created {room : Prop} [Decidable room] (counted : Counted s)
    (absent : s.copies.lookup key = none)
    (keeps : ∀ t ∈ text, if room then Writes s key t fate else Spared s t fate) :
    ∃ copy, Replaced s key copy (keepContent s key (.present new text) (.created new) fate) ∧
      ∀ c, copy = some c → room ∧ text = some c := by
  have unchanged := @replaced_same s key counted
  rw [absent] at unchanged
  cases text with
  | none => exact ⟨none, unchanged, fun c held => nomatch held⟩
  | some t =>
    have outcome := keeps t rfl
    by_cases fits : room
    · rw [if_pos fits] at outcome
      obtain ⟨copy, replaced, whole⟩ := remember_replaced counted outcome
      exact ⟨copy, replaced, fun c held => ⟨fits, congrArg some (whole c held).symm⟩⟩
    · rw [if_neg fits] at outcome
      have same : keepContent s key (.present new (some t)) (.created new) fate = s :=
        remember_spared absent outcome
      rw [same]
      exact ⟨none, unchanged, fun c held => nomatch held⟩

theorem keep_unchanged (new : FimBaseline) (counted : Counted s)
    (keeps : s.copies.lookup key = none → ∀ t ∈ text, Writes s key t fate) :
    ∃ copy, Replaced s key copy (keepContent s key (.present new text) .unchanged fate) ∧
      ∀ c, copy = some c → s.copies.lookup key = some c ∨ text = some c := by
  have unchanged := @replaced_same s key counted
  cases text with
  | none => exact ⟨s.copies.lookup key, unchanged, fun c held => Or.inl held⟩
  | some t =>
    simp only [keepContent]
    by_cases held : s.holds key = true
    · rw [if_pos held]
      exact ⟨s.copies.lookup key, unchanged, fun c its => Or.inl its⟩
    · rw [if_neg held]
      have absent : s.copies.lookup key = none := by simpa [ContentStore.holds] using held
      obtain ⟨copy, replaced, whole⟩ := remember_replaced counted (keeps absent t rfl)
      exact ⟨copy, replaced, fun c its => Or.inr (congrArg some (whole c its).symm)⟩

theorem keep_changed {attributes : List FimAttribute} (counted : Counted s)
    (keeps : match text with
      | some t => Writes s key t fate
      | none => Removes s key fate) :
    ∃ copy, Replaced s key copy
        (keepContent s key (.present new text) (.changed old new attributes) fate) ∧
      ∀ c, copy = some c → text = some c := by
  cases text with
  | none => exact ⟨none, forget_replaced counted keeps, fun c its => nomatch its⟩
  | some t =>
    obtain ⟨copy, replaced, whole⟩ := remember_replaced counted keeps
    exact ⟨copy, replaced, fun c its => congrArg some (whole c its).symm⟩

end Keep

/- What a reading leaves of the copy of its path, where it leaves no copy behind. -/
theorem reading_replaced (kept : CopiesKept host last entries s)
    (keeps : ReadingKeeps host entries s key reading) :
    let state := readState host true reading.now key reading.stat
    let recorded := record entries key state
    ∃ copy, Replaced s key copy (keepContent s key state recorded.2 reading.fate) ∧
      ∀ c, copy = some c → (recorded.1.lookup key).isSome = true ∧
        CopyOf host key c (noteReading last key reading.stat key) := by
  unfold ReadingKeeps at keeps
  cases state : readState host true reading.now key reading.stat with
  | unreadable =>
    refine ⟨s.copies.lookup key, replaced_same kept.counted, ?_⟩
    intro c held
    rw [noteReading_unread (isRead_iff.mpr state)]
    exact ⟨kept.recorded key c held, kept.current key c held⟩
  | missing =>
    rw [state] at keeps
    simp only [record]
    cases there : entries.lookup key with
    | none =>
      refine ⟨s.copies.lookup key, replaced_same kept.counted, ?_⟩
      intro c held
      rw [copy_absent kept there] at held
      cases held
    | some old =>
      rw [there] at keeps
      refine ⟨none, forget_replaced kept.counted (keeps rfl), ?_⟩
      intro c held
      cases held
  | present new text =>
    have read : reading.stat.isRead = true := by
      by_contra unread
      rw [isRead_iff.mp (Bool.not_eq_true _ ▸ unread)] at state
      cases state
    rw [noteReading_here read]
    have of_text : ∀ c, text = some c → CopyOf host key c reading.stat :=
      fun c its => copyOf_present (its ▸ state)
    rw [state] at keeps
    simp only [record] at keeps ⊢
    cases there : entries.lookup key with
    | none =>
      rw [there] at keeps
      obtain ⟨copy, replaced, its⟩ := keep_created kept.counted (copy_absent kept there) keeps
      refine ⟨copy, replaced, fun c held => ⟨?_, of_text c (its c held).2⟩⟩
      simp only [if_pos (its c held).1, Finmap.lookup_insert, Option.isSome_some]
    | some old =>
      rw [there] at keeps
      simp only at keeps ⊢
      by_cases same : changedAttributes old new = []
      · rw [if_pos same] at keeps ⊢
        have fresh : s.copies.lookup key = none → ∀ t ∈ text, Writes s key t reading.fate := by
          intro absent
          rw [absent] at keeps
          exact keeps
        obtain ⟨copy, replaced, its⟩ := keep_unchanged new kept.counted fresh
        refine ⟨copy, replaced, fun c held => ⟨?_, ?_⟩⟩
        · split
          · rw [Finmap.lookup_insert, Option.isSome_some]
          · rw [there, Option.isSome_some]
        · rcases its c held with before | now
          · rw [before] at keeps
            exact keeps
          · exact of_text c now
      · rw [if_neg same] at keeps ⊢
        obtain ⟨copy, replaced, its⟩ := keep_changed kept.counted keeps
        refine ⟨copy, replaced, fun c held => ⟨?_, of_text c (its c held)⟩⟩
        rw [Finmap.lookup_insert, Option.isSome_some]

theorem kept_observe {m : BaselineManager} (kept : Holding.Kept host ⟨m, last⟩)
    (keeps : ObserveKeeps host m key reading) :
    Holding.Kept host ⟨(observeKey host m key reading).1, noteReading last key reading.stat⟩ := by
  intro store held
  cases content : m.content with
  | none =>
    simp [observeKey, content] at held
  | some s =>
    simp only [ObserveKeeps, content] at keeps
    simp only [observeKey, content, Option.isSome_some, Option.map_some, Option.some.injEq] at held
    have before := kept s content
    obtain ⟨copy, replaced, fits⟩ := reading_replaced before keeps
    rw [held] at replaced
    have after := kept_replaced before replaced (fun other differs => record_other differs) fits
    simpa only [observeKey, content, Option.isSome_some] using after

theorem kept_remove {m : BaselineManager} (kept : Holding.Kept host ⟨m, last⟩)
    (alone : NoCopy m key) : Holding.Kept host ⟨m.remove key, last⟩ := by
  intro store held
  have content : m.content = some store := held
  have before := kept store content
  simp only [NoCopy, content] at alone
  refine ⟨?_, before.current, before.counted⟩
  intro path copy there
  have differs : path ≠ key := by
    intro same
    rw [ContentStore.holds, ← same, there] at alone
    cases alone
  rw [BaselineManager.remove, Finmap.lookup_erase_ne differs]
  exact before.recorded path copy there

end Step

section Scan
variable {host : Host} {last : Path → Stat} {read : Path → Reading} {patterns : List String}
  {scope : List Path}

/- The state within a scan, with what was read so far. -/
def Scanning.holding (read : Path → Reading) (last : Path → Stat) (s : Scanning) : Holding where
  manager := s.manager
  last := s.log.foldl (noteEvent read) last

theorem kept_visit {s : Scanning} (path : Path) (kept : (s.holding read last).Kept host)
    (keeps : VisitKeeps host read s path) :
    ((visit host read s path).holding read last).Kept host := by
  unfold visit
  split
  · exact kept
  · rename_i fresh
    simp only
    split
    · exact kept
    · rename_i room
      rcases keeps with again | full | keeps
      · exact absurd again fresh
      · exact absurd full room
      · have next := kept_observe kept keeps
        simpa only [Scanning.holding, Scanning.observe, List.foldl_append, List.foldl_cons,
          List.foldl_nil, noteEvent] using next

theorem kept_revisit {s : Scanning} (path : Path) (kept : (s.holding read last).Kept host)
    (keeps : RevisitKeeps host patterns scope read s path) :
    ((revisit host patterns scope read s path).holding read last).Kept host := by
  unfold RevisitKeeps at keeps
  unfold revisit
  split
  · rename_i outside
    rw [if_pos outside] at keeps
    have next := kept_remove kept keeps
    simpa only [Scanning.holding, List.foldl_append, List.foldl_cons, List.foldl_nil, noteEvent,
      BaselineManager.remove] using next
  · rename_i within
    rw [if_neg within] at keeps
    have next := kept_observe kept keeps
    simpa only [Scanning.holding, Scanning.observe, List.foldl_append, List.foldl_cons,
      List.foldl_nil, noteEvent] using next

end Scan

theorem kept_step {host : Host} (s : Holding) (op : CopyOp) (kept : s.Kept host)
    (keeps : KeepsCopies host s op) : (copyStep host s op).Kept host := by
  cases op with
  | observe key reading => exact kept_observe kept keeps
  | scan policy disk =>
    obtain ⟨visits, revisits⟩ := keeps
    have start : ((startScan s.manager).holding disk.read s.last).Kept host := kept
    have walked := run_keeps (I := fun scanning => (scanning.holding disk.read s.last).Kept host)
      (fun _ path => kept_visit path) start visits
    exact run_keeps (I := fun scanning => (scanning.holding disk.read s.last).Kept host)
      (fun _ path => kept_revisit path) walked revisits
  | remove key => exact kept_remove kept keeps

/- Over any history whose steps leave no copy behind, each copy is of a file in the baseline,
   as it was last read and may be kept, and the sizes add up to no more than the limit. -/
theorem copies_kept (host : Host) (start : Holding) (kept : start.Kept host) (ops : List CopyOp)
    (keeps : Along (copyStep host) (KeepsCopies host) start ops) :
    (run (copyStep host) start ops).Kept host :=
  run_keeps kept_step kept keeps

section Cases

def hosts : Path := ["etc", "hosts"]

def hostsText : Bytes := [49, 50, 55]

def hostsRead : Reading where
  stat := .found ⟨true, 3, 420, 0, 0, 0⟩ (.bytes hostsText)
  now := 0
  fate := ⟨.done, true⟩

def hostsGone : Reading where
  stat := .gone
  now := 0
  fate := ⟨.done, true⟩

def noCopies : Holding where
  manager := { noBaseline with content := some { copies := ∅, used := 0 } }
  last _ := .gone

theorem noCopies_kept : noCopies.Kept unixHost := by
  intro store held
  cases held
  refine ⟨?_, ?_, rfl, Nat.zero_le _⟩
  · intro path copy there
    cases there
  · intro path copy there
    cases there

/- A file is taken in, and later found gone. -/
theorem copies_kept_removed :
    (run (copyStep unixHost) noCopies [.observe hosts hostsRead, .observe hosts hostsGone]).Kept
      unixHost := by
  have taken_in : KeepsCopies unixHost noCopies (.observe hosts hostsRead) := by
    intro text its
    cases its
    exact trivial
  have gone : KeepsCopies unixHost (copyStep unixHost noCopies (.observe hosts hostsRead))
      (.observe hosts hostsGone) := fun _ _ => rfl
  exact copies_kept unixHost noCopies noCopies_kept _ ⟨taken_in, gone, trivial⟩

/- Nothing is watched any more. -/
def nothingWatched : CopyOp :=
  .scan { watchedPaths := [], ignorePatterns := [], recursive := true }
    { resolve := id, tree := fun _ => none, read := fun _ => hostsGone, order := [hosts],
      distinct := List.nodup_singleton hosts }

theorem copy_left_behind : noCopies.Kept unixHost ∧
    ¬ (run (copyStep unixHost) noCopies [.observe hosts hostsRead, nothingWatched]).Kept
      unixHost := by
  refine ⟨noCopies_kept, fun kept => ?_⟩
  have recorded := (kept _ rfl).recorded hosts hostsText (by decide)
  revert recorded
  decide

end Cases
end SentinelAgent.Fim
