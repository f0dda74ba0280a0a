import SentinelAgent.Fim.Copies
import SentinelAgent.Fim.ScanLaws
import SentinelAgent.Library.Places

/- The alerts of the changes, on their way to the runtime, beside the baseline that is saved:
   the watcher, the scans, the deliveries and the saves take their steps in any order, and the
   agent may stop between any two. -/
namespace SentinelAgent.Fim
open Maps (Map total)
open Runs

/- What a saved baseline says. The file lists the entries by path. -/
structure Snapshot where
  coverage : Coverage
  entries : Entries

/- What is being sent: by a task that waits for room, or by one that does not. The alerts go by
   their places among all that were made. -/
structure Delivery where
  waits : Bool
  ids : List Nat
  deriving DecidableEq

/- A scan under way, with the changes it has to report. -/
structure Found where
  detection : FimDetection
  previous : Option Coverage
  now : Coverage
  ids : List Nat
  deriving DecidableEq

/- A new file where the baseline did not look before is taken in without a word. -/
def Found.adopts (found : Found) : Observation → Bool
  | .created new =>
    match found.previous with
    | none => true
    | some previous => !previous.knew new.path found.now
  | _ => false

/- How far things have come in this run. `made` lists the alerts of all changes recorded, and
   the baseline on disk has the first `savedUpTo` of them. -/
structure Agent where
  memory : Memory
  saved : Option Snapshot
  saving : List (Snapshot × Nat)
  made : List FimAlert
  handed : List Nat
  deliveries : List Delivery
  scans : List Found
  savedUpTo : Nat

inductive Outcome where
  | accepted | full | closed
  deriving DecidableEq

inductive Act where
  | read (key : Path) (reading : Reading) (hint : Option FimChangeType)
  | beginScan (detection : FimDetection) (now : Coverage)
  | scanRead (n : Nat) (key : Path) (reading : Reading)
  | scanDrop (n : Nat) (key : Path)
  | endScan (n : Nat)
  | send (n : Nat) (outcome : Outcome)
  | markDirty
  | snapshot
  | write (n : Nat) (ok : Bool)
  | crash

/- The event names a change where the baseline cannot: a rename, or a change to a file it did
   not hold. -/
def hinted (hint : Option FimChangeType) (alert : FimAlert) : FimAlert :=
  match hint, alert.change with
  | some .renamed, .created => { alert with change := .renamed }
  | some .renamed, .deleted => { alert with change := .renamed }
  | some .modified, .created => { alert with change := .modified }
  | some .permissionChanged, .created => { alert with change := .permissionChanged }
  | _, _ => alert

/- A run begins with the baseline the run before it saved, if there is one, and with the copies
   on the disk. -/
def Agent.start (saved : Option Snapshot) (copies : Option (Map Path Bytes)) : Agent where
  memory :=
    { manager :=
        { entries := (saved.map Snapshot.entries).getD ∅
          content := copies.map fun copies => { copies := copies, used := total List.length copies }
          dirty := false }
      coverage := saved.map Snapshot.coverage }
  saved := saved
  saving := []
  made := []
  handed := []
  deliveries := []
  scans := []
  savedUpTo := 0

section Steps
variable (host : Host) (sha256 : Path → Option String)

def Agent.observe (s : Agent) (key : Path) (reading : Reading) : Agent :=
  { s with memory := { s.memory with
      manager := (observeKey host s.memory.manager key reading).1 } }

def act (s : Agent) : Act → Agent
  | .read key reading hint =>
    match intoAlert sha256 .realtime (findsAt host s.memory.manager key reading) with
    | none => s.observe host key reading
    | some alert =>
      { s.observe host key reading with
        made := s.made ++ [hinted hint alert]
        deliveries := s.deliveries ++ [{ waits := false, ids := [s.made.length] }] }
  | .beginScan detection now =>
    { s with scans := s.scans ++
        [{ detection := detection, previous := s.memory.coverage, now := now, ids := [] }] }
  | .scanRead n key reading =>
    match s.scans[n]? with
    | none => s
    | some found =>
      let observation := findsAt host s.memory.manager key reading
      match intoAlert sha256 found.detection observation, found.adopts observation with
      | some alert, false =>
        { s.observe host key reading with
          made := s.made ++ [alert]
          scans := s.scans.set n { found with ids := found.ids ++ [s.made.length] } }
      | _, _ => s.observe host key reading
  | .scanDrop n key =>
    match s.scans[n]? with
    | none => s
    | some _ => { s with memory := { s.memory with manager := s.memory.manager.remove key } }
  | .endScan n =>
    match s.scans[n]? with
    | none => s
    | some found =>
      { s with
        memory := { s.memory with coverage := some found.now }
        scans := s.scans.eraseIdx n
        -- Without a previous baseline nothing is reported.
        deliveries :=
          if found.previous.isSome then s.deliveries ++ [{ waits := true, ids := found.ids }]
          else s.deliveries }
  | .send n outcome =>
    match s.deliveries[n]? with
    | some { waits := waits, ids := id :: rest } =>
      match outcome with
      | .accepted =>
        { s with
          handed := id :: s.handed
          deliveries := s.deliveries.set n { waits := waits, ids := rest } }
      | .full =>
        if waits then s
        else { s with deliveries := s.deliveries.set n { waits := waits, ids := rest } }
      | .closed => { s with deliveries := s.deliveries.set n { waits := waits, ids := [] } }
    | _ => s
  | .markDirty =>
    { s with memory := { s.memory with manager := { s.memory.manager with dirty := true } } }
  | .snapshot =>
    if s.memory.manager.dirty then
      let coverage := s.memory.coverage.getD { roots := [], ignorePatterns := [] }
      { s with
        memory := { s.memory with manager := { s.memory.manager with dirty := false } }
        saving := s.saving ++
          [({ coverage := coverage, entries := s.memory.manager.entries }, s.made.length)] }
    else s
  | .write n ok =>
    match s.saving[n]? with
    | none => s
    | some (snapshot, upTo) =>
      if ok then
        { s with saved := some snapshot, savedUpTo := upTo, saving := s.saving.eraseIdx n }
      else
        { s with
          memory := { s.memory with manager := { s.memory.manager with dirty := true } }
          saving := s.saving.eraseIdx n }
  | .crash => Agent.start s.saved (s.memory.manager.content.map ContentStore.copies)

/- No alert is refused, a first baseline only takes files in, and a baseline is written only
   when no alert of a change in it is still on its way. -/
def Prompt (s : Agent) : Act → Prop
  | .scanRead n key reading =>
    match s.scans[n]? with
    | some found => found.previous = none →
        s.memory.manager.entries.lookup key = none ∨
          findsAt host s.memory.manager key reading = .unchanged
    | none => True
  | .send n outcome =>
    match s.deliveries[n]? with
    | some delivery => delivery.ids ≠ [] →
        outcome = .accepted ∨ (outcome = .full ∧ delivery.waits = true)
    | none => True
  | .write n ok =>
    match s.saving[n]? with
    | some (_, upTo) => ok = true →
        (∀ delivery ∈ s.deliveries, ∀ id ∈ delivery.ids, upTo ≤ id) ∧
          ∀ found ∈ s.scans, ∀ id ∈ found.ids, upTo ≤ id
    | none => True
  | _ => True

/- The baseline on disk has no change whose alert was not handed over, and from it the next run
   finds what it does not have. -/
structure AtLeastOnce (s : Agent) : Prop where
  handed : ∀ id < s.savedUpTo, id ∈ s.handed
  changes : ∀ snapshot, s.saved = some snapshot → ∀ later policy next file,
    let restarted := act host sha256 s .crash
    next.ListsKeys host policy restarted.memory.manager →
    Covered host policy (next.scope policy) file →
    (snapshot.entries.lookup file).isSome = true →
    ∀ alert, intoAlert sha256 later
        (findsAt host restarted.memory.manager file (next.read file)) = some alert →
      alert ∈ (restarted.memory.scan host sha256 policy next later).2
  creations : ∀ snapshot, s.saved = some snapshot → ∀ later policy next file,
    let restarted := act host sha256 s .crash
    TakenIn host policy next restarted.memory.manager file →
    snapshot.coverage.knew file (Coverage.new next.resolve policy) = true →
      ReportedCreated (restarted.memory.scan host sha256 policy next later).2 file

end Steps
/- Every alert that was made is with the runtime or on its way. -/
structure Accounted (s : Agent) : Prop where
  known : ∀ id < s.made.length, id ∈ s.handed ∨ (∃ delivery ∈ s.deliveries, id ∈ delivery.ids) ∨
    ∃ found ∈ s.scans, id ∈ found.ids
  first : ∀ found ∈ s.scans, found.previous = none → found.ids = []
  counts : ∀ taken ∈ s.saving, taken.2 ≤ s.made.length
  upTo : s.savedUpTo ≤ s.made.length
  handed : ∀ id < s.savedUpTo, id ∈ s.handed

section Account
variable {host : Host} {sha256 : Path → Option String} {s : Agent}

theorem start_accounted (saved : Option Snapshot) (copies : Option (Map Path Bytes)) :
    Accounted (Agent.start saved copies) where
  known := fun _ below => absurd below (Nat.not_lt_zero _)
  first := fun _ listed => nomatch listed
  counts := fun _ listed => nomatch listed
  upTo := Nat.le_refl 0
  handed := fun _ below => absurd below (Nat.not_lt_zero _)

/- One more alert, and nothing forgotten that was on its way. -/
theorem made_accounted {s' : Agent} {alert : FimAlert} (accounted : Accounted s)
    (made : s'.made = s.made ++ [alert]) (handed : s'.handed = s.handed)
    (saving : s'.saving = s.saving) (upTo : s'.savedUpTo = s.savedUpTo)
    (first : ∀ found ∈ s'.scans, found.previous = none → found.ids = [])
    (onward : ∀ id, ((∃ delivery ∈ s.deliveries, id ∈ delivery.ids) ∨
        (∃ found ∈ s.scans, id ∈ found.ids) ∨ id = s.made.length) →
      (∃ delivery ∈ s'.deliveries, id ∈ delivery.ids) ∨ ∃ found ∈ s'.scans, id ∈ found.ids) :
    Accounted s' := by
  have longer : s'.made.length = s.made.length + 1 := by
    rw [made, List.length_append, List.length_singleton]
  refine ⟨?_, first, ?_, ?_, ?_⟩
  · intro id below
    rw [handed]
    by_cases last : id = s.made.length
    · exact Or.inr (onward id (Or.inr (Or.inr last)))
    · rcases accounted.known id (by omega) with done | sending | scanning
      · exact Or.inl done
      · exact Or.inr (onward id (Or.inl sending))
      · exact Or.inr (onward id (Or.inr (Or.inl scanning)))
  · intro taken listed
    rw [saving] at listed
    have before := accounted.counts taken listed
    omega
  · have before := accounted.upTo
    omega
  · rw [upTo, handed]
    exact accounted.handed

theorem observe_accounted {key : Path} {reading : Reading} (accounted : Accounted s) :
    Accounted (s.observe host key reading) :=
  ⟨accounted.known, accounted.first, accounted.counts, accounted.upTo, accounted.handed⟩

theorem read_accounted {key : Path} {reading : Reading} {hint : Option FimChangeType}
    (accounted : Accounted s) : Accounted (act host sha256 s (.read key reading hint)) := by
  simp only [act]
  split
  · exact observe_accounted accounted
  · refine made_accounted accounted rfl rfl rfl rfl accounted.first ?_
    intro id either
    rcases either with ⟨delivery, listed, has⟩ | scanning | last
    · exact Or.inl ⟨delivery, List.mem_append_left _ listed, has⟩
    · exact Or.inr scanning
    · exact Or.inl ⟨_, List.mem_append_right _ List.mem_cons_self, List.mem_singleton.mpr last⟩

theorem findsAt_absent {m : BaselineManager} {key : Path} {reading : Reading}
    (absent : m.entries.lookup key = none) :
    findsAt host m key reading = .unchanged ∨ ∃ new, findsAt host m key reading = .created new := by
  simp only [findsAt, observeKey]
  cases readState host m.content.isSome reading.now key reading.stat with
  | unreadable => exact Or.inl rfl
  | missing =>
    simp only [record, absent]
    exact Or.inl trivial
  | present new text =>
    simp only [record, absent]
    exact Or.inr ⟨new, rfl⟩

/- A first baseline finds nothing to report. -/
theorem first_silent {found : Found} {key : Path} {reading : Reading} {alert : FimAlert}
    (takes_in : s.memory.manager.entries.lookup key = none ∨
      findsAt host s.memory.manager key reading = .unchanged)
    (made : intoAlert sha256 found.detection (findsAt host s.memory.manager key reading) = some alert)
    (counts : found.adopts (findsAt host s.memory.manager key reading) = false) :
    found.previous ≠ none := by
  intro first
  rcases takes_in with absent | unchanged
  · rcases findsAt_absent absent with unchanged | ⟨new, created⟩
    · rw [unchanged] at made
      cases made
    · rw [created, Found.adopts, first] at counts
      cases counts
  · rw [unchanged] at made
    cases made

theorem scanRead_accounted {n : Nat} {key : Path} {reading : Reading} (accounted : Accounted s)
    (prompt : Prompt host s (.scanRead n key reading)) :
    Accounted (act host sha256 s (.scanRead n key reading)) := by
  simp only [act]
  simp only [Prompt] at prompt
  cases place : s.scans[n]? with
  | none => exact accounted
  | some found =>
    rw [place] at prompt
    simp only
    split
    · rename_i alert made counts
      have known : found.previous ≠ none := fun first => first_silent (prompt first) made counts first
      refine made_accounted accounted rfl rfl rfl rfl ?_ ?_
      · intro other listed first
        rcases List.mem_or_eq_of_mem_set listed with before | same
        · exact accounted.first other before first
        · rw [same] at first
          exact absurd first known
      · intro id either
        have here := Places.mem_set_place place { found with ids := found.ids ++ [s.made.length] }
        rcases either with sending | ⟨other, listed, has⟩ | last
        · exact Or.inl sending
        · rcases Places.mem_set_or listed n { found with ids := found.ids ++ [s.made.length] } with
            still | there
          · exact Or.inr ⟨other, still, has⟩
          · rw [place] at there
            cases there
            exact Or.inr ⟨_, here, List.mem_append_left _ has⟩
        · exact Or.inr ⟨_, here, List.mem_append_right _ (List.mem_singleton.mpr last)⟩
    · exact observe_accounted accounted

/- A turn that makes no alert and saves nothing. -/
theorem moved_accounted {s' : Agent} (accounted : Accounted s) (made : s'.made = s.made)
    (saving : ∀ taken ∈ s'.saving, taken ∈ s.saving ∨ taken.2 ≤ s.made.length)
    (upTo : s'.savedUpTo = s.savedUpTo) (handed : ∀ id ∈ s.handed, id ∈ s'.handed)
    (first : ∀ found ∈ s'.scans, found.previous = none → found.ids = [])
    (onward : ∀ id, ((∃ delivery ∈ s.deliveries, id ∈ delivery.ids) ∨
        ∃ found ∈ s.scans, id ∈ found.ids) →
      id ∈ s'.handed ∨ (∃ delivery ∈ s'.deliveries, id ∈ delivery.ids) ∨
        ∃ found ∈ s'.scans, id ∈ found.ids) : Accounted s' := by
  refine ⟨?_, first, ?_, ?_, ?_⟩
  · intro id below
    rw [made] at below
    rcases accounted.known id below with done | on_its_way
    · exact Or.inl (handed id done)
    · exact onward id on_its_way
  · intro taken listed
    rw [made]
    rcases saving taken listed with before | fits
    · exact accounted.counts taken before
    · exact fits
  · rw [made, upTo]
    exact accounted.upTo
  · intro id below
    rw [upTo] at below
    exact handed id (accounted.handed id below)

theorem beginScan_accounted {detection : FimDetection} {now : Coverage}
    (accounted : Accounted s) : Accounted (act host sha256 s (.beginScan detection now)) := by
  refine moved_accounted accounted rfl (fun taken listed => Or.inl listed) rfl
    (fun id done => done) ?_ ?_
  · intro found listed first
    rcases List.mem_append.mp listed with before | new
    · exact accounted.first found before first
    · rw [List.mem_singleton.mp new]
  · intro id either
    rcases either with sending | ⟨found, listed, has⟩
    · exact Or.inr (Or.inl sending)
    · exact Or.inr (Or.inr ⟨found, List.mem_append_left _ listed, has⟩)

theorem endScan_accounted {n : Nat} (accounted : Accounted s) :
    Accounted (act host sha256 s (.endScan n)) := by
  simp only [act]
  cases place : s.scans[n]? with
  | none => exact accounted
  | some found =>
    refine moved_accounted accounted rfl (fun taken listed => Or.inl listed) rfl
      (fun id done => done) ?_ ?_
    · intro other listed
      exact accounted.first other (List.mem_of_mem_eraseIdx listed)
    · intro id either
      right
      rcases either with ⟨delivery, listed, has⟩ | ⟨other, listed, has⟩
      · left
        refine ⟨delivery, ?_, has⟩
        simp only
        split
        · exact List.mem_append_left _ listed
        · exact listed
      · rcases Places.mem_eraseIdx_or listed n with still | there
        · exact Or.inr ⟨other, still, has⟩
        · rw [place] at there
          cases there
          left
          have known : found.previous.isSome = true := by
            by_contra first
            rw [accounted.first found listed (Option.not_isSome_iff_eq_none.mp first)] at has
            cases has
          simp only [if_pos known]
          exact ⟨_, List.mem_append_right _ List.mem_cons_self, has⟩

theorem send_accounted {n : Nat} {outcome : Outcome} (accounted : Accounted s)
    (prompt : Prompt host s (.send n outcome)) :
    Accounted (act host sha256 s (.send n outcome)) := by
  simp only [act]
  simp only [Prompt] at prompt
  split
  · rename_i waits id rest place
    rw [place] at prompt
    rcases prompt (List.cons_ne_nil id rest) with accepted | ⟨full, waiting⟩
    · rw [accepted]
      refine moved_accounted accounted rfl (fun taken listed => Or.inl listed) rfl
        (fun other done => List.mem_cons_of_mem id done) accounted.first ?_
      intro other either
      rcases either with ⟨delivery, listed, has⟩ | scanning
      · rcases Places.mem_set_or listed n { waits := waits, ids := rest } with still | there
        · exact Or.inr (Or.inl ⟨delivery, still, has⟩)
        · rw [place] at there
          cases there
          cases List.mem_cons.mp has with
          | inl same => exact Or.inl (same ▸ List.mem_cons_self)
          | inr later => exact Or.inr (Or.inl ⟨_, Places.mem_set_place place _, later⟩)
      · exact Or.inr (Or.inr scanning)
    · have waits_on : waits = true := waiting
      rw [full]
      simp only [if_pos waits_on]
      exact accounted
  · exact accounted

theorem snapshot_accounted (accounted : Accounted s) :
    Accounted (act host sha256 s .snapshot) := by
  simp only [act]
  split
  · refine moved_accounted accounted rfl ?_ rfl (fun id done => done) accounted.first
      (fun id either => Or.inr either)
    intro taken listed
    rcases List.mem_append.mp listed with before | new
    · exact Or.inl before
    · right
      rw [List.mem_singleton.mp new]
  · exact accounted

/- A baseline is written whose alerts are all with the runtime. -/
theorem write_accounted {n : Nat} {ok : Bool} (accounted : Accounted s)
    (prompt : Prompt host s (.write n ok)) : Accounted (act host sha256 s (.write n ok)) := by
  simp only [act]
  simp only [Prompt] at prompt
  cases place : s.saving[n]? with
  | none => exact accounted
  | some taken =>
    rw [place] at prompt
    cases ok with
    | false =>
      exact moved_accounted accounted rfl
        (fun taken listed => Or.inl (List.mem_of_mem_eraseIdx listed)) rfl (fun id done => done)
        accounted.first (fun id either => Or.inr either)
    | true =>
      obtain ⟨sent, reported⟩ := prompt rfl
      have within := accounted.counts taken (List.mem_of_getElem? place)
      refine ⟨accounted.known, accounted.first, ?_, within, ?_⟩
      · intro other listed
        exact accounted.counts other (List.mem_of_mem_eraseIdx listed)
      · intro id below
        have made : id < s.made.length := Nat.lt_of_lt_of_le below within
        rcases accounted.known id made with done | ⟨delivery, listed, has⟩ | ⟨found, listed, has⟩
        · exact done
        · exact absurd (sent delivery listed id has) (Nat.not_le_of_lt below)
        · exact absurd (reported found listed id has) (Nat.not_le_of_lt below)

theorem act_accounted (s : Agent) (action : Act) (accounted : Accounted s)
    (prompt : Prompt host s action) : Accounted (act host sha256 s action) := by
  cases action with
  | read key reading hint => exact read_accounted accounted
  | beginScan detection now => exact beginScan_accounted accounted
  | scanRead n key reading => exact scanRead_accounted accounted prompt
  | scanDrop n key =>
    simp only [act]
    split
    · exact accounted
    · exact ⟨accounted.known, accounted.first, accounted.counts, accounted.upTo, accounted.handed⟩
  | endScan n => exact endScan_accounted accounted
  | send n outcome => exact send_accounted accounted prompt
  | markDirty =>
    exact ⟨accounted.known, accounted.first, accounted.counts, accounted.upTo, accounted.handed⟩
  | snapshot => exact snapshot_accounted accounted
  | write n ok => exact write_accounted accounted prompt
  | crash => exact start_accounted _ _

theorem atLeastOnce_of_accounted (accounted : Accounted s) : AtLeastOnce host sha256 s := by
  refine ⟨accounted.handed, ?_, ?_⟩
  · intro snapshot saved later policy next file restarted lists covered recorded alert made
    have coverage : restarted.memory.coverage = some snapshot.coverage := by
      simp only [restarted, act, Agent.start, saved, Option.map_some]
    refine changes_alerted coverage lists covered ?_ made
    simpa only [restarted, act, Agent.start, saved, Option.map_some, Option.getD_some] using recorded
  · intro snapshot saved later policy next file restarted taken knew
    have coverage : restarted.memory.coverage = some snapshot.coverage := by
      simp only [restarted, act, Agent.start, saved, Option.map_some]
    exact creations_alerted coverage taken knew

end Account

/- In a run of steps of the watcher, scans, deliveries and saves in any order, with crashes
   between any two: where no alert is refused and no baseline is written ahead of the alerts of
   its changes, the baseline on disk never has a change that was not handed over, and the next
   run finds every other. -/
theorem delivered_at_least_once (host : Host) (sha256 : Path → Option String)
    (saved : Option Snapshot) (copies : Option (Map Path Bytes)) (acts : List Act)
    (prompt : Along (act host sha256) (Prompt host) (Agent.start saved copies) acts) :
    AtLeastOnce host sha256 (run (act host sha256) (Agent.start saved copies) acts) :=
  atLeastOnce_of_accounted (run_keeps act_accounted (start_accounted saved copies) prompt)

section Whole
variable {host : Host} {sha256 : Path → Option String} {n : Nat} {found : Found}
  {before : List FimAlert} {scanning : Scanning} {s : Agent}

/- The alerts of what a scan finds. -/
def Found.alerts (sha256 : Path → Option String) (found : Found) (changes : List Observation) :
    List FimAlert :=
  (changes.filter fun change => !found.adopts change).filterMap (intoAlert sha256 found.detection)

/- The agent has come as far as the scan. -/
structure Follows (sha256 : Path → Option String) (n : Nat) (found : Found)
    (before : List FimAlert) (scanning : Scanning) (s : Agent) : Prop where
  manager : s.memory.manager = scanning.manager
  made : s.made = before ++ found.alerts sha256 scanning.report.changes
  place : ∃ ids, s.scans[n]? = some { found with ids := ids }

theorem follows_observe {key : Path} {reading : Reading}
    (follows : Follows sha256 n found before scanning s) :
    Follows sha256 n found before (scanning.observe host key reading)
      (act host sha256 s (.scanRead n key reading)) := by
  obtain ⟨ids, place⟩ := follows.place
  have adopts : ∀ observation, Found.adopts { found with ids := ids } observation =
      found.adopts observation := fun observation => rfl
  have grown : found.alerts sha256 (scanning.observe host key reading).report.changes =
      found.alerts sha256 scanning.report.changes ++ found.alerts sha256
        (if (findsAt host scanning.manager key reading).isChange = true then
          [findsAt host scanning.manager key reading] else []) := by
    simp only [Found.alerts, ← List.filterMap_append, ← List.filter_append]
    rfl
  simp only [act, place, adopts, follows.manager]
  split
  · rename_i alert made counts
    refine ⟨?_, ?_, ids ++ [s.made.length], ?_⟩
    · simp only [Agent.observe, follows.manager]
      rfl
    · rw [grown, follows.made, if_pos (isChange_of_alert made)]
      simp [Found.alerts, counts, made]
    · exact List.getElem?_set_self (List.getElem?_eq_some_iff.mp place).1
  · rename_i silent
    refine ⟨?_, ?_, ids, place⟩
    · simp only [Agent.observe, follows.manager]
      rfl
    · have nothing : found.alerts sha256
          (if (findsAt host scanning.manager key reading).isChange = true then
            [findsAt host scanning.manager key reading] else []) = [] := by
        split
        · cases counts : found.adopts (findsAt host scanning.manager key reading) with
          | true => simp [Found.alerts, counts]
          | false =>
            cases made : intoAlert sha256 found.detection
                (findsAt host scanning.manager key reading) with
            | none => simp [Found.alerts, counts, made]
            | some alert => exact absurd counts (silent alert made)
        · rfl
      rw [grown, nothing, List.append_nil]
      exact follows.made

theorem follows_visit (disk : Path → Reading) (path : Path)
    (follows : Follows sha256 n found before scanning s) :
    ∃ acts, Follows sha256 n found before (visit host disk scanning path)
      (run (act host sha256) s acts) := by
  unfold visit
  split
  · exact ⟨[], follows⟩
  · simp only
    split
    · exact ⟨[], follows.manager, follows.made, follows.place⟩
    · have aside : Follows sha256 n found before
          { scanning with
            visited := scanning.visited ++ [path]
            report := { scanning.report with files := scanning.report.files + 1 } } s :=
        ⟨follows.manager, follows.made, follows.place⟩
      exact ⟨[.scanRead n path (disk path)], follows_observe aside⟩

theorem follows_revisit (patterns : List String) (scope : List Path) (disk : Path → Reading)
    (path : Path) (follows : Follows sha256 n found before scanning s) :
    ∃ acts, Follows sha256 n found before (revisit host patterns scope disk scanning path)
      (run (act host sha256) s acts) := by
  unfold revisit
  split
  · refine ⟨[.scanDrop n path], ?_⟩
    obtain ⟨ids, place⟩ := follows.place
    simp only [run_cons, run_nil, act, place]
    refine ⟨?_, follows.made, ids, place⟩
    rw [follows.manager]
    rfl
  · exact ⟨[.scanRead n path (disk path)], follows_observe follows⟩

theorem follows_all {step : Scanning → Path → Scanning}
    (each : ∀ {scanning s} path, Follows sha256 n found before scanning s →
      ∃ acts, Follows sha256 n found before (step scanning path) (run (act host sha256) s acts))
    (paths : List Path) (follows : Follows sha256 n found before scanning s) :
    ∃ acts, Follows sha256 n found before (paths.foldl step scanning)
      (run (act host sha256) s acts) := by
  induction paths generalizing scanning s with
  | nil => exact ⟨[], follows⟩
  | cons path paths ih =>
    obtain ⟨first, after⟩ := each path follows
    obtain ⟨more, last⟩ := ih after
    refine ⟨first ++ more, ?_⟩
    rw [run_append]
    exact last

/- A whole scan is one of the courses its reads can take: it leaves the same baseline, and the
   alerts of its report are those that were made. -/
theorem scan_is_run {policy : FimPolicy} {disk : Disk} {previous : Coverage}
    (place : s.scans[n]? = some found) (known : found.previous = some previous) :
    ∃ acts, let after := run (act host sha256) s acts
      let scanned := scan host policy disk s.memory.manager
      after.memory.manager = scanned.manager ∧
        after.made = s.made ++
          scanAlerts sha256 found.detection found.previous found.now scanned.report.changes := by
  have start : Follows sha256 n found s.made (startScan s.memory.manager) s := by
    refine ⟨rfl, ?_, found.ids, place⟩
    simp [Found.alerts, startScan]
  obtain ⟨walk, walked⟩ := follows_all (follows_visit disk.read) (disk.files host policy) start
  obtain ⟨more, all⟩ := follows_all
    (follows_revisit policy.ignorePatterns (disk.scope policy) disk.read)
    (unvisited disk.order (walkOf host policy disk s.memory.manager)) walked
  refine ⟨walk ++ more, ?_⟩
  rw [run_append]
  refine ⟨all.manager, ?_⟩
  have told : (fun change => !found.adopts change) = reportable previous found.now := by
    funext change
    cases change with
    | created new => simp [Found.adopts, known, reportable]
    | unchanged => rfl
    | deleted old => rfl
    | changed old new attributes => rfl
  rw [all.made, Found.alerts, told, known]
  rfl

end Whole
section Cases

def etcCoverage : Coverage where
  roots := [["etc"]]
  ignorePatterns := []

/- The run before saved a baseline with one file. -/
def oneSaved : Snapshot where
  coverage := etcCoverage
  entries := (∅ : Entries).insert hosts (entryOf unixHost hosts ⟨true, 0, 420, 0, 0, 0⟩ "" 0)

/- The watcher finds the file gone and hands the alert over before the baseline is saved. -/
def sentFirst : List Act :=
  [.read hosts hostsGone none, .send 0 .accepted, .snapshot, .write 0 true]

theorem delivered_sentFirst : AtLeastOnce unixHost (fun _ => none)
    (run (act unixHost fun _ => none) (Agent.start (some oneSaved) none) sentFirst) := by
  refine delivered_at_least_once unixHost (fun _ => none) (some oneSaved) none sentFirst
    ⟨trivial, fun _ => Or.inl rfl, trivial, fun _ => ⟨?_, ?_⟩, trivial⟩
  · decide
  · decide

/- A scan finds the file gone, and the baseline is saved while the alert waits for room. -/
def savedFirst : List Act :=
  [.beginScan .startup etcCoverage, .scanRead 0 hosts hostsGone, .endScan 0, .markDirty, .snapshot,
    .write 0 true]

theorem saved_before_sent : ¬ AtLeastOnce unixHost (fun _ => none)
    (run (act unixHost fun _ => none) (Agent.start (some oneSaved) none) savedFirst) := by
  intro all
  have handed := all.handed 0 (by decide)
  revert handed
  decide

end Cases
end SentinelAgent.Fim
