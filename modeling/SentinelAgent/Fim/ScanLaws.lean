import SentinelAgent.Fim.Created

/- What one scan leaves behind: entries of its own policy only, a word on every difference it
   reads, and no path gone over twice. -/
namespace SentinelAgent.Fim

/- Below a watched path of the scan, and not ignored. -/
structure Covered (host : Host) (policy : FimPolicy) (scope : List Path) (path : Path) : Prop where
  below : ∃ root ∈ scope, root <+: path
  kept : isIgnoredPath host.letters path policy.ignorePatterns = false

/- The map gives all its keys. -/
def Disk.ListsKeys (host : Host) (policy : FimPolicy) (disk : Disk) (m : BaselineManager) : Prop :=
  ∀ path ∈ (walkOf host policy disk m).manager.entries.keys, path ∈ disk.order

/- What a reading of the path finds. -/
def findsAt (host : Host) (m : BaselineManager) (path : Path) (reading : Reading) : Observation :=
  (observeKey host m path reading).2

def Event.path : Event → Path
  | .observed key _ => key
  | .dropped key => key

section Fold
variable {host : Host} {patterns : List String} {scope : List Path} {read : Path → Reading}
  {file : Path}

/- A scan goes on: it keeps copies or does not, and takes no word back. -/
structure Onward (s s' : Scanning) : Prop where
  content : s'.manager.content.isSome = s.manager.content.isSome
  changes : s.report.changes <+: s'.report.changes

theorem onward_refl (s : Scanning) : Onward s s := ⟨rfl, List.prefix_refl _⟩

theorem onward_trans {s s' s'' : Scanning} (first : Onward s s') (second : Onward s' s'') :
    Onward s s'' :=
  ⟨second.content.trans first.content, first.changes.trans second.changes⟩

theorem onward_fold {f : Scanning → Path → Scanning} (each : ∀ s path, Onward s (f s path))
    (paths : List Path) (s : Scanning) : Onward s (paths.foldl f s) := by
  induction paths generalizing s with
  | nil => exact onward_refl s
  | cons path paths ih => exact onward_trans (each s path) (ih _)

theorem onward_observe (s : Scanning) (key : Path) (reading : Reading) :
    Onward s (s.observe host key reading) := by
  refine ⟨?_, List.prefix_append _ _⟩
  simp only [Scanning.observe, observeKey, Option.isSome_map]

theorem onward_visit (s : Scanning) (path : Path) : Onward s (visit host read s path) := by
  unfold visit
  split
  · exact onward_refl s
  · simp only
    split
    · exact ⟨rfl, List.prefix_refl _⟩
    · exact ⟨(onward_observe _ _ _).content.trans rfl, (onward_observe _ _ _).changes⟩

theorem onward_revisit (s : Scanning) (path : Path) :
    Onward s (revisit host patterns scope read s path) := by
  unfold revisit
  split
  · exact ⟨rfl, List.prefix_refl _⟩
  · exact onward_observe s path (read path)

theorem findsAt_congr {m m' : BaselineManager} {reading : Reading}
    (entry : m'.entries.lookup file = m.entries.lookup file)
    (content : m'.content.isSome = m.content.isSome) :
    findsAt host m' file reading = findsAt host m file reading := by
  simp only [findsAt, observeKey, content]
  cases readState host m.content.isSome reading.now file reading.stat with
  | unreadable => rfl
  | missing =>
    simp only [record, entry]
    cases m.entries.lookup file with
    | none => rfl
    | some old => rfl
  | present new text =>
    simp only [record, entry]
    cases m.entries.lookup file with
    | none => rfl
    | some old =>
      simp only
      split
      · rfl
      · rfl

theorem observe_reports {s : Scanning} {reading : Reading}
    (differs : (findsAt host s.manager file reading).isChange = true) :
    findsAt host s.manager file reading ∈ (s.observe host file reading).report.changes := by
  refine List.mem_append_right _ ?_
  rw [findsAt] at differs ⊢
  rw [if_pos differs]
  exact List.mem_cons_self

theorem visit_reports {s : Scanning} (fresh : file ∉ s.visited)
    (recorded : (s.manager.entries.lookup file).isSome = true)
    (differs : (findsAt host s.manager file (read file)).isChange = true) :
    findsAt host s.manager file (read file) ∈ (visit host read s file).report.changes := by
  have present : ¬ (s.manager.entries.size ≥ maxBaselineFiles ∧
      s.manager.entries.lookup file = none) := by
    intro ⟨_, absent⟩
    rw [absent] at recorded
    cases recorded
  unfold visit
  rw [if_neg fresh]
  simp only
  rw [if_neg present]
  exact observe_reports differs

theorem visit_log (s : Scanning) (path : Path) : ∃ events,
    (visit host read s path).log = s.log ++ events ∧ ∀ gone, .dropped gone ∉ events := by
  unfold visit
  split
  · exact ⟨[], (List.append_nil _).symm, fun gone => List.not_mem_nil⟩
  · simp only
    split
    · exact ⟨[], (List.append_nil _).symm, fun gone => List.not_mem_nil⟩
    · refine ⟨_, rfl, fun gone member => ?_⟩
      cases List.mem_singleton.mp member

theorem visits_log (files : List Path) (s : Scanning) : ∃ events,
    (files.foldl (visit host read) s).log = s.log ++ events ∧ ∀ gone, .dropped gone ∉ events := by
  induction files generalizing s with
  | nil => exact ⟨[], (List.append_nil _).symm, fun gone => List.not_mem_nil⟩
  | cons path files ih =>
    obtain ⟨first, first_log, first_kept⟩ :
        ∃ events, (visit host read s path).log = s.log ++ events ∧
          ∀ gone, .dropped gone ∉ events := visit_log s path
    obtain ⟨more, more_log, more_kept⟩ := ih (visit host read s path)
    refine ⟨first ++ more, ?_, fun gone member => ?_⟩
    · rw [List.foldl_cons, more_log, first_log, List.append_assoc]
    · cases List.mem_append.mp member with
      | inl before => exact first_kept gone before
      | inr after => exact more_kept gone after

/- Each entry gone over makes one event, of its own path. -/
theorem revisits_log (paths : List Path) (s : Scanning) : ∃ events,
    (paths.foldl (revisit host patterns scope read) s).log = s.log ++ events ∧
      events.map Event.path = paths ∧
      ∀ gone, .dropped gone ∈ events → (scope.any fun root => root.isPrefixOf gone) = false ∨
        isIgnoredPath host.letters gone patterns = true := by
  induction paths generalizing s with
  | nil => exact ⟨[], (List.append_nil _).symm, rfl, fun gone member => nomatch member⟩
  | cons path paths ih =>
    obtain ⟨first, first_log, its_path, its_reason⟩ : ∃ event,
        (revisit host patterns scope read s path).log = s.log ++ [event] ∧ event.path = path ∧
          ∀ gone, .dropped gone = event → (scope.any fun root => root.isPrefixOf gone) = false ∨
            isIgnoredPath host.letters gone patterns = true := by
      unfold revisit
      split
      · rename_i outside
        refine ⟨.dropped path, rfl, rfl, fun gone same => ?_⟩
        cases same
        exact outside
      · exact ⟨_, rfl, rfl, fun gone same => nomatch same⟩
    obtain ⟨more, more_log, paths_eq, reasons⟩ := ih (revisit host patterns scope read s path)
    refine ⟨first :: more, ?_, ?_, fun gone member => ?_⟩
    · rw [List.foldl_cons, more_log, first_log, List.append_assoc]
      rfl
    · rw [List.map_cons, its_path, paths_eq]
    · cases List.mem_cons.mp member with
      | inl same => exact its_reason gone same
      | inr later => exact reasons gone later

end Fold

section Scan
variable {host : Host} {policy : FimPolicy} {disk : Disk} {m : BaselineManager} {file : Path}

theorem covered_iff : Covered host policy (disk.scope policy) file ↔
    ¬ (((disk.scope policy).any fun root => root.isPrefixOf file) = false ∨
      isIgnoredPath host.letters file policy.ignorePatterns = true) := by
  rw [not_or, Bool.not_eq_false, Bool.not_eq_true, List.any_eq_true]
  constructor
  · intro ⟨⟨root, watched, within⟩, kept⟩
    exact ⟨⟨root, watched, List.isPrefixOf_iff_prefix.mpr within⟩, kept⟩
  · intro ⟨⟨root, watched, within⟩, kept⟩
    exact ⟨⟨root, watched, List.isPrefixOf_iff_prefix.mp within⟩, kept⟩

theorem met_covered (met : file ∈ disk.files host policy) :
    Covered host policy (disk.scope policy) file := by
  refine ⟨?_, met_kept met⟩
  obtain ⟨path, node, rest, listed, its, _⟩ := mem_walked.mp met
  obtain ⟨root, watched, pair⟩ := List.mem_map.mp listed
  obtain ⟨same, _⟩ := Prod.mk.inj pair
  exact ⟨root, watched, rest, by rw [its, same]⟩

/- An entry the walk did not meet is gone over. -/
theorem unmet_unvisited (lists : disk.ListsKeys host policy m) (unmet : file ∉ disk.files host policy)
    (recorded : ((walkOf host policy disk m).manager.entries.lookup file).isSome = true) :
    file ∈ unvisited disk.order (walkOf host policy disk m) := by
  refine List.mem_filter.mpr ⟨lists file (Finmap.mem_keys.mpr (Finmap.lookup_isSome.mp recorded)), ?_⟩
  have fresh : (walkOf host policy disk m).visited.contains file = false := by
    rw [List.contains_eq_mem, decide_eq_false_iff_not]
    exact fun visited => unmet (visited_walk.mp visited)
  rw [recorded, fresh]
  rfl

theorem scan_decomposed {before after : List Path}
    (listed : unvisited disk.order (walkOf host policy disk m) = before ++ file :: after) :
    scan host policy disk m =
      after.foldl (revisit host policy.ignorePatterns (disk.scope policy) disk.read)
        (revisit host policy.ignorePatterns (disk.scope policy) disk.read
          (before.foldl (revisit host policy.ignorePatterns (disk.scope policy) disk.read)
            (walkOf host policy disk m)) file) := by
  have whole : scan host policy disk m = (unvisited disk.order (walkOf host policy disk m)).foldl
      (revisit host policy.ignorePatterns (disk.scope policy) disk.read)
      (walkOf host policy disk m) := rfl
  rw [whole, listed, List.foldl_append, List.foldl_cons]

theorem unvisited_split (listed : file ∈ unvisited disk.order (walkOf host policy disk m)) :
    ∃ before after, unvisited disk.order (walkOf host policy disk m) = before ++ file :: after ∧
      file ∉ before ∧ file ∉ after := by
  obtain ⟨before, after, split_eq, fresh⟩ := List.eq_append_cons_of_mem listed
  refine ⟨before, after, split_eq, fresh, ?_⟩
  have distinct : (unvisited disk.order (walkOf host policy disk m)).Nodup := disk.distinct.filter _
  rw [split_eq] at distinct
  exact (List.nodup_cons.mp (List.nodup_append.mp distinct).2.1).1

/- What a scan leaves an entry of is covered by its policy. -/
theorem scan_within (lists : disk.ListsKeys host policy m)
    (recorded : ((scan host policy disk m).manager.entries.lookup file).isSome = true) :
    Covered host policy (disk.scope policy) file := by
  by_cases met : file ∈ disk.files host policy
  · exact met_covered met
  · by_contra outside
    rw [covered_iff, not_not] at outside
    by_cases listed : file ∈ unvisited disk.order (walkOf host policy disk m)
    · obtain ⟨before, after, split_eq, _, behind⟩ := unvisited_split listed
      rw [scan_decomposed split_eq, (revisits_untouched after behind).entry, revisit,
        if_pos outside, Finmap.lookup_erase] at recorded
      cases recorded
    · have passed : Untouched file (walkOf host policy disk m) (scan host policy disk m) :=
        revisits_untouched _ listed
      rw [passed.entry] at recorded
      exact listed (unmet_unvisited lists met recorded)

/- Where a scan is not cut short, each regular file it meets has an entry. -/
theorem scan_takes (whole : (scan host policy disk m).report.truncated = false)
    (met : file ∈ disk.files host policy) (found : (disk.read file).stat.isFile = true) :
    ((scan host policy disk m).manager.entries.lookup file).isSome = true := by
  obtain ⟨below, kept⟩ := covered_iff.mp (met_covered met) |> not_or.mp
  rw [scan_holds (Bool.not_eq_false _ ▸ below) (Bool.not_eq_true _ ▸ kept) found]
  by_contra neither
  rw [not_or] at neither
  obtain ⟨before, after, decomposed, fresh⟩ := List.eq_append_cons_of_mem met
  have full : (walkFiles host disk.read m before).manager.entries.size ≥ maxBaselineFiles :=
    Nat.not_lt.mp fun room => neither.2 ((met_here decomposed fresh).mpr room)
  have start : Untouched file (startScan m) (walkFiles host disk.read m before) :=
    visits_untouched before (Or.inl fresh)
  have absent : (walkFiles host disk.read m before).manager.entries.lookup file = none := by
    rw [start.entry]
    exact Option.not_isSome_iff_eq_none.mp neither.1
  have walk_whole : (walkOf host policy disk m).report.truncated = false := by
    obtain ⟨same, _⟩ : (scan host policy disk m).report.truncated =
      (walkOf host policy disk m).report.truncated ∧ _ := revisits_read _ _
    rw [← same]
    exact whole
  rw [walkOf, decomposed, walk_onward] at walk_whole
  have here := (visits_read after _ walk_whole).1
  rw [visit, if_neg (walk_unvisited fresh)] at here
  simp only at here
  rw [if_pos ⟨full, absent⟩] at here
  cases here

/- A scan says what it finds of an entry its policy covers. -/
theorem scan_reports (lists : disk.ListsKeys host policy m)
    (covered : Covered host policy (disk.scope policy) file)
    (recorded : (m.entries.lookup file).isSome = true)
    (differs : (findsAt host m file (disk.read file)).isChange = true) :
    findsAt host m file (disk.read file) ∈ (scan host policy disk m).report.changes := by
  have scanned : Onward (walkOf host policy disk m) (scan host policy disk m) :=
    onward_fold onward_revisit _ _
  by_cases met : file ∈ disk.files host policy
  · obtain ⟨before, after, decomposed, fresh⟩ := List.eq_append_cons_of_mem met
    have start : Untouched file (startScan m) (walkFiles host disk.read m before) :=
      visits_untouched before (Or.inl fresh)
    have going : Onward (startScan m) (walkFiles host disk.read m before) :=
      onward_fold onward_visit _ _
    have same : findsAt host (walkFiles host disk.read m before).manager file (disk.read file) =
        findsAt host m file (disk.read file) := findsAt_congr start.entry going.content
    have reported := visit_reports (walk_unvisited fresh) (start.entry ▸ recorded) (same ▸ differs)
    have rest : Onward (visit host disk.read (walkFiles host disk.read m before) file)
        (walkOf host policy disk m) := by
      rw [walkOf, decomposed, walk_onward]
      exact onward_fold onward_visit _ _
    rw [same] at reported
    exact scanned.changes.subset (rest.changes.subset reported)
  · have walk : Untouched file (startScan m) (walkOf host policy disk m) :=
      visits_untouched _ (Or.inl met)
    have walking : Onward (startScan m) (walkOf host policy disk m) := onward_fold onward_visit _ _
    have still : ((walkOf host policy disk m).manager.entries.lookup file).isSome = true := by
      rw [walk.entry]
      exact recorded
    obtain ⟨before, after, split_eq, ahead, _⟩ :=
      unvisited_split (unmet_unvisited lists met still)
    rw [scan_decomposed split_eq]
    have passed : Untouched file (walkOf host policy disk m)
        (before.foldl (revisit host policy.ignorePatterns (disk.scope policy) disk.read)
          (walkOf host policy disk m)) := revisits_untouched before ahead
    have going : Onward (walkOf host policy disk m)
        (before.foldl (revisit host policy.ignorePatterns (disk.scope policy) disk.read)
          (walkOf host policy disk m)) := onward_fold onward_revisit _ _
    have same := @findsAt_congr host file m _ (disk.read file) (passed.entry.trans walk.entry)
      (going.content.trans walking.content)
    refine (onward_fold onward_revisit after _).changes.subset ?_
    rw [revisit, if_neg (covered_iff.mp covered), ← same]
    exact observe_reports (same ▸ differs)

/- A file that was dropped and came back as a new one. -/
def Retaken (file : Path) (log : List Event) : Prop :=
  ∃ before after new, log = before ++ .dropped file :: after ∧ .observed file (.created new) ∈ after

theorem scan_log : ∃ met gone, (scan host policy disk m).log = met ++ gone ∧
    (∀ path, .dropped path ∉ met) ∧ (gone.map Event.path).Nodup ∧
      ∀ path, .dropped path ∈ gone → ¬ Covered host policy (disk.scope policy) path := by
  obtain ⟨met, met_log, kept⟩ : ∃ events,
      (walkOf host policy disk m).log = [] ++ events ∧ ∀ gone, .dropped gone ∉ events :=
    visits_log _ _
  obtain ⟨gone, gone_log, paths, reasons⟩ : ∃ events,
      (scan host policy disk m).log = (walkOf host policy disk m).log ++ events ∧
        events.map Event.path = unvisited disk.order (walkOf host policy disk m) ∧
          ∀ path, Event.dropped path ∈ events →
            ((disk.scope policy).any fun root => root.isPrefixOf path) = false ∨
              isIgnoredPath host.letters path policy.ignorePatterns = true :=
    revisits_log _ _
  refine ⟨met, gone, ?_, kept, ?_, ?_⟩
  · rw [gone_log, met_log]
    rfl
  · rw [paths]
    exact disk.distinct.filter _
  · intro path dropped covered
    exact covered_iff.mp covered (reasons path dropped)

/- A scan drops nothing its policy covers. -/
theorem scan_drops (covered : Covered host policy (disk.scope policy) file) :
    .dropped file ∉ (scan host policy disk m).log := by
  obtain ⟨met, gone, log, kept, _, reasons⟩ := @scan_log host policy disk m
  rw [log]
  intro dropped
  cases List.mem_append.mp dropped with
  | inl before => exact kept file before
  | inr after => exact reasons file after covered

theorem retaken_append {log more : List Event} (kept : .dropped file ∉ log)
    (retaken : Retaken file (log ++ more)) : Retaken file more := by
  obtain ⟨before, after, new, split_eq, later⟩ := retaken
  rcases List.append_eq_append_iff.mp split_eq with ⟨rest, rfl, tail⟩ | ⟨rest, head, tail⟩
  · exact ⟨rest, after, new, tail, later⟩
  · cases rest with
    | nil => exact ⟨[], after, new, tail.symm, later⟩
    | cons event rest =>
      obtain ⟨rfl, _⟩ := List.cons.inj tail
      exact absurd (head ▸ List.mem_append_right _ List.mem_cons_self) kept

/- One scan takes nothing in again that it dropped. -/
theorem scan_retakes : ¬ Retaken file (scan host policy disk m).log := by
  obtain ⟨met, gone, log, kept, distinct, _⟩ := @scan_log host policy disk m
  intro retaken
  rw [log] at retaken
  obtain ⟨before, after, new, split_eq, later⟩ := retaken_append (kept file) retaken
  rw [split_eq, List.map_append, List.map_cons] at distinct
  have once := (List.nodup_cons.mp (List.nodup_append.mp distinct).2.1).1
  exact once (List.mem_map.mpr ⟨_, later, rfl⟩)

end Scan
section Alerts
variable {host : Host} {sha256 : Path → Option String} {policy : FimPolicy} {disk : Disk}
  {e : Memory} {previous : Coverage} {later : FimDetection} {file : Path}

theorem isChange_of_alert {later : FimDetection} {observation : Observation} {alert : FimAlert}
    (made : intoAlert sha256 later observation = some alert) : observation.isChange = true := by
  cases observation with
  | unchanged => cases made
  | created new => rfl
  | deleted old => rfl
  | changed old new attributes => rfl

/- A file with an entry is not created again. -/
theorem findsAt_recorded {m : BaselineManager} {file : Path} {reading : Reading}
    {previous now : Coverage} (recorded : (m.entries.lookup file).isSome = true) :
    reportable previous now (findsAt host m file reading) = true := by
  cases finds : findsAt host m file reading with
  | unchanged => rfl
  | deleted old => rfl
  | changed old new attributes => rfl
  | created new =>
    rw [(record_created finds).2.1] at recorded
    cases recorded

/- Over a known baseline a scan alerts on every difference it reads of an entry it covers. -/
theorem changes_alerted (coverage : e.coverage = some previous)
    (lists : disk.ListsKeys host policy e.manager)
    (covered : Covered host policy (disk.scope policy) file)
    (recorded : (e.manager.entries.lookup file).isSome = true) {alert : FimAlert}
    (made : intoAlert sha256 later (findsAt host e.manager file (disk.read file)) = some alert) :
    alert ∈ (e.scan host sha256 policy disk later).2 := by
  simp only [Memory.scan, coverage, scanAlerts]
  refine List.mem_filterMap.mpr ⟨_, List.mem_filter.mpr ⟨?_, findsAt_recorded recorded⟩, made⟩
  exact scan_reports lists covered recorded (isChange_of_alert made)

/- And on every file it takes in where the baseline already looked. -/
theorem creations_alerted (coverage : e.coverage = some previous)
    (taken : TakenIn host policy disk e.manager file)
    (knew : previous.knew file (Coverage.new disk.resolve policy) = true) :
    ReportedCreated (e.scan host sha256 policy disk later).2 file := by
  simp only [Memory.scan, coverage]
  exact reported_iff.mpr ⟨scan_creates.mpr taken, knew⟩

end Alerts
end SentinelAgent.Fim
