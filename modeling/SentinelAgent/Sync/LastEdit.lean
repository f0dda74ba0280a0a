import SentinelAgent.Sync.GrcSync

/-!
Whether the last local edit of a record wins. One record is watched over a run: its last
edit, and the queue rows of it the platform has acknowledged, are recorded beside the state.
The scope is the edits that write and queue, uploads, and downloads of what the platform
holds. Row ids grow with time, so the order of edits is the order of their rows.
-/
namespace SentinelAgent.Sync
open AutoTables Storage

variable {γ : Type} {f : RecordFormat γ} {kind : GrcKind} {id : String}

structure Watched (γ : Type) where
  state : State γ
  lastEdit : Option γ
  acknowledged : List Nat

/-- What an action writes into the record, when it is a local edit of it. -/
def edit (f : RecordFormat γ) (kind : GrcKind) (id : String) (s : State γ) :
    Action γ → Option γ
  | .beginSave k i c => if k = kind ∧ i = id then some c else none
  | .togglePlaybook i enabled =>
    if .playbook = kind ∧ i = id then
      (s.db.grc .playbook i).map (fun r => f.withEnabled enabled r.content)
    else none
  | .toggleDetectionRule i enabled =>
    if .detectionRule = kind ∧ i = id then
      (s.db.grc .detectionRule i).map (fun r => f.withEnabled enabled r.content)
    else none
  | .updateAssetLifecycle i lifecycle =>
    if .asset = kind ∧ i = id then
      (s.db.grc .asset i).map (fun r => f.withLifecycle lifecycle r.content)
    else none
  | _ => none

/-- The items of a batch that belong to the record, in the order they are sent. -/
def recordItems (id : String) (batch : List (UploadItem γ)) : List (UploadItem γ) :=
  batch.filter (fun item => decide (item.id = id))

/-- The rows of the record a step acknowledges. -/
def acknowledgedRows (kind : GrcKind) (id : String) (s : State γ) : Action γ → List Nat
  | .answerUpload _ (.received count) =>
    match s.upload with
    | none => []
    | some u =>
      if u.kind = kind ∧ count = u.batch.length then (recordItems id u.batch).map (·.rowId)
      else []
  | _ => []

def watchStep (f : RecordFormat γ) (kind : GrcKind) (id : String) (w : Watched γ)
    (a : Action γ) : Watched γ where
  state := step f w.state a
  lastEdit := (edit f kind id w.state a).or w.lastEdit
  acknowledged := w.acknowledged ++ acknowledgedRows kind id w.state a

def watch (s : State γ) : Watched γ := { state := s, lastEdit := none, acknowledged := [] }

/-- Watching does not interfere. -/
theorem watched_state (as : List (Action γ)) : ∀ w : Watched γ,
    (Runs.run (watchStep f kind id) w as).state = Runs.run (step f) w.state as := by
  induction as with
  | nil => intro w; rfl
  | cons a as ih => intro w; exact ih (watchStep f kind id w a)

def IsUpload (kind : GrcKind) (id : String) (r : SyncQueueItem) : Prop :=
  r.entityType = kind.entity ∧ r.entityId = id

/-- Nothing of the record is queued and no save of it is under way. -/
def Drained (kind : GrcKind) (id : String) (s : State γ) : Prop :=
  (∀ r ∈ s.queue, ¬ IsUpload kind id r) ∧ ¬ SaveUnderWay s kind id

/-- The queue has drained: the platform and the local record hold the last edit. -/
def LastEditKept (kind : GrcKind) (id : String) (w : Watched γ) : Prop :=
  Drained kind id w.state → ∀ v, w.lastEdit = some v →
    w.state.platform kind id = some v ∧ ∃ synced, w.state.db.grc kind id = some ⟨v, synced⟩

/-- No edit is sent again after a newer one of the record has been acknowledged. -/
def NeverOlder (kind : GrcKind) (id : String) (w : Watched γ) : Prop :=
  ∀ u, w.state.upload = some u → u.kind = kind → ∀ item ∈ u.batch, item.id = id →
    ∀ newer ∈ w.acknowledged, newer < item.rowId

/-- The setting: edits of the record queue what they write, only this agent changes it on the
    platform, an upload counted in full has been stored, a download lists what is there. -/
def InScope (kind : GrcKind) (id : String) (s : State γ) : Action γ → Prop
  | .togglePlaybook i _ => ¬ (.playbook = kind ∧ i = id)
  | .delete k i _ => ¬ (k = kind ∧ i = id)
  | .platformDeletes => ∀ item, s.deletions.head? = some item →
      ¬ (kindOfTombstone item.entityType = some kind ∧ item.entityId = id)
  | .platformEdits k i _ => ¬ (k = kind ∧ i = id)
  | .answerUpload _ (.received count) => ∀ u, s.upload = some u → u.kind = kind →
      count = u.batch.length → u.stored = u.batch.length
  | .download k items complete => k = kind →
      (∀ c, (id, c) ∈ items → s.platform kind id = some c) ∧
        ((complete || decide (k = .playbook ∨ k = .detectionRule)) = true →
          (s.platform kind id).isSome → id ∈ items.map Prod.fst)
  | _ => True

def SparesUploads (kind : GrcKind) (id : String) (q kept : SyncQueue) : Prop :=
  ∀ r ∈ q, IsUpload kind id r → r ∈ kept

/-- No earlier edit that can still be retried is left behind by this batch, and the newest
    edit in it is stored last. -/
def InOrder (kind : GrcKind) (id : String) (q : SyncQueue) (u : Upload γ) : Prop :=
  (∀ item ∈ u.batch, item.id = id → ∀ r ∈ q, IsUpload kind id r → r.Retryable →
      r.id < item.rowId → r.id ∈ u.batch.map (·.rowId)) ∧
    ∀ last, (recordItems id u.batch).getLast? = some last → ∀ item ∈ u.batch, item.id = id →
      item.rowId ≤ last.rowId

/-- The condition, step by step, on the state before. -/
def KeepsOrder (kind : GrcKind) (id : String) (s : State γ) : Action γ → Prop
  | .beginSave k i _ => k = kind ∧ i = id → ¬ SaveUnderWay s kind id
  | .toggleDetectionRule i _ => .detectionRule = kind ∧ i = id → ¬ SaveUnderWay s kind id
  | .updateAssetLifecycle i _ => .asset = kind ∧ i = id → ¬ SaveUnderWay s kind id
  | .endSave _ _ => SparesUploads kind id s.queue (makeRoom s.queue)
  | .requeueUnsynced _ _ _ => SparesUploads kind id s.queue (makeRoom s.queue)
  | .enqueueOther _ _ => SparesUploads kind id s.queue (makeRoom s.queue)
  | .enforceQueueLimit => SparesUploads kind id s.queue (Storage.enforceQueueLimit s.queue)
  | .purgeFailed => SparesUploads kind id s.queue (Storage.purgeFailed s.queue)
  | .answerUpload _ (.received count) => ∀ u, s.upload = some u → u.kind = kind →
      count = u.batch.length → InOrder kind id s.queue u
  | .download k _ _ => k = kind → SaveUnderWay s kind id → ¬ Open s.db kind id
  | _ => True

/-! The invariant. -/

/-- Of the rows of the record the one queued last. -/
def Newest (kind : GrcKind) (id : String) (q : SyncQueue) (r : SyncQueueItem) : Prop :=
  r ∈ q ∧ IsUpload kind id r ∧ ∀ other ∈ q, IsUpload kind id other → other.id ≤ r.id

/-- What holds once the record has been edited, the last time to `v`. A row out of attempts
    stays in the queue, so that the queue does not drain any more. -/
structure Edited (f : RecordFormat γ) (kind : GrcKind) (id : String) (s : State γ) (v : γ) :
    Prop where
  record : ∃ synced, s.db.grc kind id = some ⟨v, synced⟩
  saves : ∀ c, SaveCarries s kind id c → c = v
  drained : Drained kind id s → s.platform kind id = some v
  newest : ¬ SaveUnderWay s kind id → (∀ r ∈ s.queue, IsUpload kind id r → r.Retryable) →
    ∀ r, Newest kind id s.queue r → f.fromJson r.payload = .ok v

structure Kept (f : RecordFormat γ) (kind : GrcKind) (id : String) (w : Watched γ) : Prop where
  reads : ∀ r ∈ w.state.queue, IsUpload kind id r → ∃ c, f.fromJson r.payload = .ok c
  batchRows : ∀ u, w.state.upload = some u → u.kind = kind → ∀ item ∈ u.batch, item.id = id →
    ∃ r ∈ w.state.queue, IsUpload kind id r ∧ r.id = item.rowId ∧
      f.fromJson r.payload = .ok item.content ∧ r.Retryable
  stored : ∀ u, w.state.upload = some u → u.kind = kind → ∀ last,
    (recordItems id (u.batch.take u.stored)).getLast? = some last →
      w.state.platform kind id = some last.content
  acknowledged : ∀ newer ∈ w.acknowledged, newer < w.state.queue.next ∧
    ∀ r ∈ w.state.queue, IsUpload kind id r → r.Retryable → newer < r.id
  untouched : w.lastEdit = none → Drained kind id w.state ∧
    ∀ c, ¬ Unsynced w.state kind id c
  edited : ∀ v, w.lastEdit = some v → Edited f kind id w.state v

theorem lastEditKept_of_kept {w : Watched γ} (kept : Kept f kind id w) :
    LastEditKept kind id w := by
  intro drained v last
  have edited := kept.edited v last
  exact ⟨edited.drained drained, edited.record⟩

theorem neverOlder_of_kept {w : Watched γ} (kept : Kept f kind id w) : NeverOlder kind id w := by
  intro u sent same item mem named newer before
  obtain ⟨r, row, upload, rowId, _, retryable⟩ := kept.batchRows u sent same item mem named
  rw [← rowId]
  exact (kept.acknowledged newer before).2 r row upload retryable

theorem initial_kept {s : State γ} (begins : Initial s) : Kept f kind id (watch s) := by
  obtain ⟨tables, queue, saving, upload, _⟩ := begins
  have noRow : ∀ r, r ∉ s.queue := by
    intro r mem
    rw [State.queue, queue] at mem
    exact AutoTable.not_mem_empty r mem
  have idle : ∀ u, (watch s).state.upload ≠ some u := by
    intro u sent
    change s.upload = some u at sent
    rw [upload] at sent
    cases sent
  refine ⟨fun r mem => absurd mem (noRow r), fun u sent => absurd sent (idle u),
    fun u sent => absurd sent (idle u), fun newer mem => absurd mem List.not_mem_nil, ?_, ?_⟩
  · intro _
    refine ⟨⟨fun r mem => absurd mem (noRow r), ?_⟩, ?_⟩
    · rintro ⟨c, saved⟩
      change _ ∈ s.saving at saved
      rw [saving] at saved
      cases saved
    · intro c unsynced
      change s.db.grc kind id = _ at unsynced
      rw [tables] at unsynced
      cases unsynced
  · intro v last
    cases last

/-! Steps that leave the record and its rows alone. -/

/-- The rows of the record are the same; the rest of the queue may have changed. -/
structure SameUploads (kind : GrcKind) (id : String) (q q' : SyncQueue) : Prop where
  next_le : q.next ≤ q'.next
  rows : ∀ r, IsUpload kind id r → (r ∈ q' ↔ r ∈ q)

theorem sameUploads_refl (q : SyncQueue) : SameUploads kind id q q :=
  ⟨le_refl _, fun _ _ => Iff.rfl⟩

theorem drained_of_same {s s' : State γ} (rows : SameUploads kind id s.queue s'.queue)
    (saves : ∀ c, SaveCarries s' kind id c ↔ SaveCarries s kind id c)
    (drained : Drained kind id s') : Drained kind id s :=
  ⟨fun r mem upload => drained.1 r ((rows.rows r upload).mpr mem) upload,
    fun ⟨c, saved⟩ => drained.2 ⟨c, (saves c).mpr saved⟩⟩

theorem kept_frame {w w' : Watched γ} (kept : Kept f kind id w)
    (rows : SameUploads kind id w.state.queue w'.state.queue)
    (record : w'.state.db.grc kind id = w.state.db.grc kind id)
    (saves : ∀ c, SaveCarries w'.state kind id c ↔ SaveCarries w.state kind id c)
    (platform : w'.state.platform kind id = w.state.platform kind id)
    (upload : ∀ u, w'.state.upload = some u → w.state.upload = some u)
    (edits : w'.lastEdit = w.lastEdit) (acks : w'.acknowledged = w.acknowledged) :
    Kept f kind id w' := by
  refine ⟨?_, ?_, ?_, ?_, ?_, ?_⟩
  · intro r mem isUpload
    exact kept.reads r ((rows.rows r isUpload).mp mem) isUpload
  · intro u sent same item mem named
    obtain ⟨r, row, isUpload, rest⟩ := kept.batchRows u (upload u sent) same item mem named
    exact ⟨r, (rows.rows r isUpload).mpr row, isUpload, rest⟩
  · intro u sent same last final
    rw [platform]
    exact kept.stored u (upload u sent) same last final
  · intro newer before
    rw [acks] at before
    obtain ⟨lower, upper⟩ := kept.acknowledged newer before
    refine ⟨lower.trans_le rows.next_le, fun r mem isUpload => ?_⟩
    exact upper r ((rows.rows r isUpload).mp mem) isUpload
  · intro none
    rw [edits] at none
    obtain ⟨drained, clean⟩ := kept.untouched none
    refine ⟨⟨fun r mem isUpload => ?_, ?_⟩, fun c unsynced => ?_⟩
    · exact drained.1 r ((rows.rows r isUpload).mp mem) isUpload
    · exact fun ⟨c, saved⟩ => drained.2 ⟨c, (saves c).mp saved⟩
    · exact clean c (record.symm.trans unsynced)
  · intro v last
    rw [edits] at last
    have edited := kept.edited v last
    refine ⟨?_, ?_, ?_, ?_⟩
    · rw [record]
      exact edited.record
    · exact fun c saved => edited.saves c ((saves c).mp saved)
    · intro drained
      rw [platform]
      exact edited.drained (drained_of_same rows saves drained)
    · intro quiet retryable r newest
      refine edited.newest (fun ⟨c, saved⟩ => quiet ⟨c, (saves c).mpr saved⟩) ?_ r ?_
      · exact fun r mem isUpload => retryable r ((rows.rows r isUpload).mpr mem) isUpload
      · obtain ⟨mem, isUpload, most⟩ := newest
        refine ⟨(rows.rows r isUpload).mp mem, isUpload, fun other row otherUpload => ?_⟩
        exact most other ((rows.rows other otherUpload).mpr row) otherUpload

theorem sameUploads_of_kept {q q' : SyncQueue} (next : q'.next = q.next)
    (subset : ∀ r ∈ q', r ∈ q) (spares : SparesUploads kind id q q') :
    SameUploads kind id q q' :=
  ⟨next.ge, fun r isUpload => ⟨subset r, fun mem => spares r mem isUpload⟩⟩

theorem sameUploads_enqueue {q : SyncQueue} {now : Nat} {e : SyncQueueEntry}
    (spares : SparesUploads kind id q (makeRoom q))
    (other : ¬ (e.entityType = kind.entity ∧ e.entityId = id)) :
    SameUploads kind id q (Storage.enqueue q now e).1 := by
  refine ⟨(next_enqueue q now e).symm ▸ Nat.le_succ _, fun r isUpload => ?_⟩
  rw [mem_enqueue]
  constructor
  · rintro (room | rfl)
    · exact makeRoom_subset room
    · exact absurd isUpload other
  · exact fun mem => Or.inl (spares r mem isUpload)

/-- Rows that are not of the record may go, whatever names them. -/
theorem sameUploads_remove {q : SyncQueue} {ids : List Nat}
    (other : ∀ r ∈ q, IsUpload kind id r → r.id ∉ ids) :
    SameUploads kind id q (remove q ids) :=
  sameUploads_of_kept rfl (fun _ mem => (mem_remove.mp mem).1)
    (fun r mem isUpload => mem_remove.mpr ⟨mem, other r mem isUpload⟩)

theorem sameUploads_noteFailure {q : SyncQueue} {now rowId : Nat} {error : String}
    (other : ∀ r ∈ q, IsUpload kind id r → r.id ≠ rowId) :
    SameUploads kind id q (noteFailure q now rowId error) := by
  refine ⟨(next_noteFailure q now rowId error).ge, fun r isUpload => ⟨fun mem => ?_, fun mem => ?_⟩⟩
  · obtain ⟨old, row, same, _, kept⟩ := noteFailure_origin mem
    have oldUpload : IsUpload kind id old :=
      ⟨same.entityType.symm.trans isUpload.1, same.entityId.symm.trans isUpload.2⟩
    rwa [kept (other old row oldUpload)]
  · obtain ⟨new, row, _, _, kept⟩ := noteFailure_survivor now rowId error mem
    rwa [← kept (other r mem isUpload)]

theorem sameUploads_trans {a b c : SyncQueue} (ab : SameUploads kind id a b)
    (bc : SameUploads kind id b c) : SameUploads kind id a c :=
  ⟨ab.next_le.trans bc.next_le, fun r isUpload =>
    (bc.rows r isUpload).trans (ab.rows r isUpload)⟩

theorem sameUploads_noteFailures (now : Nat) (failures : List (Nat × String)) :
    ∀ q : SyncQueue,
      (∀ r ∈ q, IsUpload kind id r → r.id ∉ failures.map Prod.fst) →
        SameUploads kind id q (noteFailures q now failures) := by
  induction failures with
  | nil => exact fun q _ => sameUploads_refl q
  | cons failure failures ih =>
    intro q other
    have first : SameUploads kind id q (noteFailure q now failure.1 failure.2) := by
      apply sameUploads_noteFailure
      intro r mem isUpload same
      exact other r mem isUpload (by simp [same])
    refine sameUploads_trans first (ih _ fun r mem isUpload listed => ?_)
    exact other r ((first.rows r isUpload).mp mem) isUpload (List.mem_cons_of_mem _ listed)

theorem sameUploads_drop {q : SyncQueue} {types : List SyncEntityType} {i : String}
    (other : ¬ (id = i ∧ kind.entity ∈ types)) :
    SameUploads kind id q (dropRecordRows q types i) := by
  refine sameUploads_of_kept rfl (fun _ mem => (AutoTable.mem_keep.mp mem).1) ?_
  intro r mem isUpload
  refine AutoTable.mem_keep.mpr ⟨mem, ?_⟩
  rw [isUpload.1, isUpload.2, decide_eq_false other]
  rfl

/-! Steps of the record, one kind at a time. -/

theorem setPlatform_other {platform : GrcKind → String → Option γ} {k : GrcKind} {i : String}
    {value : Option γ} (other : ¬ (k = kind ∧ i = id)) :
    setPlatform platform k i value kind id = platform kind id := by
  have different : ¬ (kind = k ∧ id = i) := fun both => other ⟨both.1.symm, both.2.symm⟩
  simp only [setPlatform, different, if_false]

theorem kept_save {w : Watched γ} (kept : Kept f kind id w) (k : GrcKind) (i : String) (c : γ)
    (free : k = kind ∧ i = id → ¬ SaveUnderWay w.state kind id) :
    Kept f kind id ⟨saveRecord k w.state i c,
      (if k = kind ∧ i = id then some c else none).or w.lastEdit, w.acknowledged⟩ := by
  by_cases same : k = kind ∧ i = id
  · have quiet := free same
    obtain ⟨rfl, rfl⟩ := same
    have started : SaveUnderWay (saveRecord k w.state i c) k i :=
      ⟨c, List.mem_append_right _ (List.mem_singleton_self _)⟩
    rw [if_pos ⟨rfl, rfl⟩]
    refine ⟨kept.reads, kept.batchRows, kept.stored, kept.acknowledged, nofun, fun v last => ?_⟩
    cases last
    refine ⟨⟨false, setRecord_self _ _ _ _⟩, fun other saved => ?_,
      fun drained => absurd started drained.2, fun none => absurd started none⟩
    rcases List.mem_append.mp saved with before | new
    · exact absurd ⟨other, before⟩ quiet
    · cases List.mem_singleton.mp new
      rfl
  · rw [if_neg same]
    refine kept_frame kept (sameUploads_refl _) ?_ (fun other => ?_) rfl (fun _ sent => sent) rfl rfl
    · exact setRecord_other (fun both => same ⟨both.1.symm, both.2.symm⟩)
    · constructor
      · intro saved
        rcases List.mem_append.mp saved with before | new
        · exact before
        · cases List.mem_singleton.mp new
          exact absurd ⟨rfl, rfl⟩ same
      · exact fun saved => List.mem_append_left _ saved

/-- A new row of the record that carries its last edit. -/
theorem kept_enqueue {w : Watched γ} {v : γ} (kept : Kept f kind id w)
    (last : w.lastEdit = some v) (now : Nat) (saving : List (Save γ))
    (spares : SparesUploads kind id w.state.queue (makeRoom w.state.queue))
    (saves : ∀ save ∈ saving, save ∈ w.state.saving) :
    Kept f kind id
      ⟨{ withQueue w.state (Storage.enqueue w.state.queue now (uploadEntry f kind id v)).1
          with saving := saving }, w.lastEdit, w.acknowledged⟩ := by
  have edited := kept.edited v last
  let new := (entryItem now (uploadEntry f kind id v)).make w.state.queue.next
  have added : new ∈ (Storage.enqueue w.state.queue now (uploadEntry f kind id v)).1 :=
    mem_enqueue.mpr (Or.inr rfl)
  have newUpload : IsUpload kind id new := ⟨rfl, rfl⟩
  refine ⟨?_, ?_, kept.stored, ?_, ?_, ?_⟩
  · intro r mem isUpload
    rcases mem_enqueue.mp mem with room | rfl
    · exact kept.reads r (makeRoom_subset room) isUpload
    · exact ⟨v, f.roundTrip v⟩
  · intro u sent same item mem named
    obtain ⟨r, row, isUpload, rest⟩ := kept.batchRows u sent same item mem named
    exact ⟨r, mem_enqueue.mpr (Or.inl (spares r row isUpload)), isUpload, rest⟩
  · intro newer before
    obtain ⟨lower, upper⟩ := kept.acknowledged newer before
    refine ⟨?_, fun r mem isUpload retryable => ?_⟩
    · change newer < (Storage.enqueue _ _ _).1.next
      rw [next_enqueue]
      omega
    · rcases mem_enqueue.mp mem with room | rfl
      · exact upper r (makeRoom_subset room) isUpload retryable
      · exact lower
  · intro none
    rw [last] at none
    cases none
  · intro v' same
    rw [last] at same
    cases same
    refine ⟨edited.record, fun c saved => edited.saves c (saves _ saved),
      fun drained => absurd newUpload (drained.1 new added), ?_⟩
    intro _ _ r newest
    obtain ⟨mem, isUpload, most⟩ := newest
    rcases mem_enqueue.mp mem with room | rfl
    · -- Any older row is below the new one.
      have lower := AutoTable.key_lt_next (makeRoom_subset room)
      have upper : w.state.queue.next ≤ r.id := most new added newUpload
      omega
    · exact f.roundTrip v

theorem kept_endSave {w : Watched γ} (kept : Kept f kind id w) (n now : Nat)
    (spares : SparesUploads kind id w.state.queue (makeRoom w.state.queue)) :
    Kept f kind id ⟨endSave f w.state n now, w.lastEdit, w.acknowledged⟩ := by
  unfold endSave
  cases ending : w.state.saving[n]? with
  | none => exact kept
  | some save =>
    have member : save ∈ w.state.saving := List.mem_of_getElem? ending
    by_cases same : save.kind = kind ∧ save.id = id
    · obtain ⟨k, i, c⟩ := save
      obtain ⟨rfl, rfl⟩ := same
      -- The record has been edited, since a save of it is under way.
      cases last : w.lastEdit with
      | none => exact absurd ⟨c, member⟩ (kept.untouched last).1.2
      | some v =>
        have content : c = v := (kept.edited v last).saves c member
        subst content
        have result := kept_enqueue kept last now (w.state.saving.eraseIdx n) spares
          (fun _ mem => List.mem_of_mem_eraseIdx mem)
        rwa [last] at result
    · refine kept_frame kept (sameUploads_enqueue spares ?_) rfl (fun c => ?_) rfl
        (fun _ sent => sent) rfl rfl
      · rintro ⟨type, named⟩
        exact same ⟨GrcKind.entity_injective type, named⟩
      · constructor
        · exact fun saved => List.mem_of_mem_eraseIdx saved
        · intro saved
          obtain ⟨m, bound, at_m⟩ := List.getElem_of_mem saved
          refine List.mem_eraseIdx_iff_getElem.mpr ⟨m, bound, fun here => ?_, at_m⟩
          subst here
          rw [List.getElem?_eq_getElem bound, at_m] at ending
          cases ending
          exact same ⟨rfl, rfl⟩

theorem kept_requeue {w : Watched γ} (kept : Kept f kind id w) (k : GrcKind) (i : String)
    (now : Nat) (spares : SparesUploads kind id w.state.queue (makeRoom w.state.queue)) :
    Kept f kind id ⟨requeueUnsynced f w.state k i now, w.lastEdit, w.acknowledged⟩ := by
  unfold requeueUnsynced
  cases present : w.state.db.grc k i with
  | none => exact kept
  | some r =>
    simp only
    split
    · rename_i unsynced
      by_cases same : k = kind ∧ i = id
      · obtain ⟨rfl, rfl⟩ := same
        obtain ⟨c, synced⟩ := r
        obtain rfl : synced = false := unsynced.1
        cases last : w.lastEdit with
        | none => exact absurd present ((kept.untouched last).2 c)
        | some v =>
          obtain ⟨flag, record⟩ := (kept.edited v last).record
          rw [present] at record
          cases record
          have result := kept_enqueue kept last now w.state.saving spares (fun _ mem => mem)
          rwa [last] at result
      · refine kept_frame kept (sameUploads_enqueue spares ?_) rfl (fun _ => Iff.rfl) rfl
          (fun _ sent => sent) rfl rfl
        rintro ⟨type, named⟩
        exact same ⟨GrcKind.entity_injective type, named⟩
    · exact kept

theorem mem_recordItems {batch : List (UploadItem γ)} {item : UploadItem γ} :
    item ∈ recordItems id batch ↔ item ∈ batch ∧ item.id = id := by
  simp [recordItems]

theorem recordItems_append (batch rest : List (UploadItem γ)) :
    recordItems id (batch ++ rest) = recordItems id batch ++ recordItems id rest :=
  List.filter_append _ _

theorem recordItems_single (item : UploadItem γ) :
    recordItems id [item] = if item.id = id then [item] else [] := by
  unfold recordItems
  by_cases named : item.id = id
  · simp [named]
  · simp [named]

theorem kept_platformStores {w : Watched γ} (kept : Kept f kind id w) :
    Kept f kind id ⟨platformStores w.state, w.lastEdit, w.acknowledged⟩ := by
  unfold platformStores
  cases sent : w.state.upload with
  | none => exact kept
  | some u =>
    cases next : u.batch[u.stored]? with
    | none => simpa only [next] using kept
    | some item =>
      simp only [next]
      have member : item ∈ u.batch := List.mem_of_getElem? next
      have prefixes : recordItems id (u.batch.take (u.stored + 1)) =
          recordItems id (u.batch.take u.stored) ++ recordItems id [item] := by
        rw [List.take_add_one, next]
        exact recordItems_append _ _
      by_cases same : u.kind = kind ∧ item.id = id
      · obtain ⟨rfl, rfl⟩ := same
        obtain ⟨r, row, isUpload, _⟩ := kept.batchRows u sent rfl item member rfl
        refine ⟨kept.reads, ?_, ?_, kept.acknowledged, fun none => ?_, fun v last => ?_⟩
        · intro u' sent' kind'
          cases sent'
          exact kept.batchRows u sent rfl
        · intro u' sent' _ last final
          cases sent'
          rw [prefixes, recordItems_single, if_pos rfl, List.getLast?_concat] at final
          cases final
          simp [setPlatform]
        · exact absurd isUpload ((kept.untouched none).1.1 r row)
        · have edited := kept.edited v last
          exact ⟨edited.record, edited.saves, fun drained => absurd isUpload (drained.1 r row),
            edited.newest⟩
      · have elsewhere : setPlatform w.state.platform u.kind item.id (some item.content) kind id =
            w.state.platform kind id := setPlatform_other same
        refine ⟨kept.reads, ?_, ?_, kept.acknowledged, kept.untouched, fun v last => ?_⟩
        · intro u' sent' kind'
          cases sent'
          exact kept.batchRows u sent kind'
        · intro u' sent' kind' last final
          cases sent'
          rw [prefixes, recordItems_single, if_neg (fun named => same ⟨kind', named⟩),
            List.append_nil] at final
          exact elsewhere.trans (kept.stored u sent kind' last final)
        · have edited := kept.edited v last
          exact ⟨edited.record, edited.saves, fun drained => elsewhere.trans
            (edited.drained drained), edited.newest⟩

theorem kept_fetch {w : Watched γ} (kept : Kept f kind id w) (k : GrcKind) (now : Nat) :
    Kept f kind id ⟨fetch f w.state k now, w.lastEdit, w.acknowledged⟩ := by
  unfold fetch
  cases idle : w.state.upload with
  | some u => exact kept
  | none =>
    simp only
    let pending := getPendingFor w.state.queue now k.entity batchLimit
    have rows : SameUploads kind id w.state.queue
        (noteFailures w.state.queue now (unreadable f pending)) := by
      apply sameUploads_noteFailures
      intro r mem isUpload listed
      -- The rows of the record can be read, so none of them fails here.
      obtain ⟨broken, member, same, e, fails⟩ := mem_unreadable_ids listed
      obtain ⟨c, reads⟩ := kept.reads r mem isUpload
      rw [AutoTable.row_unique (mem_getPendingFor member).1 mem same, reads] at fails
      cases fails
    have framed : Kept f kind id
        ⟨{ withQueue w.state (noteFailures w.state.queue now (unreadable f pending)) with
          upload := none }, w.lastEdit, w.acknowledged⟩ :=
      kept_frame kept rows rfl (fun _ => Iff.rfl) rfl nofun rfl rfl
    refine ⟨framed.reads, ?_, ?_, framed.acknowledged, framed.untouched, ?_⟩
    · intro u sent same item mem named
      simp only at sent
      split at sent
      · cases sent
      · cases sent
        obtain ⟨r, member, reads, rowId, entityId⟩ := mem_readable.mp mem
        obtain ⟨row, retryable, _, type⟩ := mem_getPendingFor member
        have isUpload : IsUpload kind id r :=
          ⟨type.trans (congrArg GrcKind.entity same), entityId.trans named⟩
        exact ⟨r, (rows.rows r isUpload).mpr row, isUpload, rowId, reads, retryable⟩
    · intro u sent _ last final
      simp only at sent
      split at sent
      · cases sent
      · cases sent
        simp [recordItems] at final
    · intro v last
      have edited := framed.edited v last
      exact ⟨edited.record, edited.saves, edited.drained, edited.newest⟩

/-- What the three cases of an acknowledged batch share: which rows of the record are left. -/
theorem mem_acknowledged_uploads {s : State γ} {u : Upload γ} (same : u.kind = kind)
    {r : SyncQueueItem} (isUpload : IsUpload kind id r) :
    r ∈ (acknowledgeGrc s.db (u.batch.map (·.rowId)) u.kind).queue ↔
      r ∈ s.queue ∧ r.id ∉ u.batch.map (·.rowId) := by
  rw [mem_acknowledgeGrc]
  apply and_congr_right
  intro _
  rw [not_iff_not, and_iff_left_iff_imp]
  intro _
  rw [isUpload.1, same]

theorem acknowledged_record {s : State γ} {v : γ} (ids : List Nat) (k : GrcKind)
    (record : ∃ synced, s.db.grc kind id = some ⟨v, synced⟩) :
    ∃ synced, (acknowledgeGrc s.db ids k).grc kind id = some ⟨v, synced⟩ := by
  by_cases same : kind = k
  · subst same
    obtain ⟨synced, present⟩ := record
    rcases acknowledgeGrc_record kind id ids s.db with ⟨_, kept⟩ | ⟨_, written⟩
    · exact ⟨synced, kept.trans present⟩
    · rw [written]
      split
      · exact ⟨synced, present⟩
      · exact ⟨true, by simp [marked, present]⟩
  · obtain ⟨synced, present⟩ := record
    exact ⟨synced, (acknowledgeGrc_other_kind ids same s.db).trans present⟩

/-- Each row of the record that a batch names is one it was read from. -/
theorem batch_names_upload {w : Watched γ} {u : Upload γ} (kept : Kept f kind id w)
    (known : BatchKnown w.state) (sent : w.state.upload = some u) (same : u.kind = kind)
    {r : SyncQueueItem} (mem : r ∈ w.state.queue) (isUpload : IsUpload kind id r)
    (listed : r.id ∈ u.batch.map (·.rowId)) :
    ∃ item ∈ u.batch, item.id = id ∧ item.rowId = r.id ∧
      f.fromJson r.payload = .ok item.content ∧ r.Retryable := by
  obtain ⟨item, member, rowId⟩ := List.mem_map.mp listed
  have named : item.id = id :=
    ((known u sent item member).2 r mem rowId.symm).2.symm.trans isUpload.2
  obtain ⟨row, first, _, rowKey, reads, retryable⟩ := kept.batchRows u sent same item member named
  have unique : row = r := AutoTable.row_unique first mem (rowKey.trans rowId)
  subst unique
  exact ⟨item, member, named, rowId, reads, retryable⟩

theorem kept_acknowledged {w : Watched γ} {u : Upload γ} (kept : Kept f kind id w)
    (known : BatchKnown w.state) (sent : w.state.upload = some u) (same : u.kind = kind)
    (stored : u.stored = u.batch.length) (order : InOrder kind id w.state.queue u) :
    Kept f kind id
      ⟨{ w.state with
          db := acknowledgeGrc w.state.db (u.batch.map (·.rowId)) u.kind
          upload := none }, w.lastEdit,
        w.acknowledged ++ (recordItems id u.batch).map (·.rowId)⟩ := by
  let s' : State γ := { w.state with
    db := acknowledgeGrc w.state.db (u.batch.map (·.rowId)) u.kind
    upload := none }
  have left : ∀ r, IsUpload kind id r →
      (r ∈ s'.queue ↔ r ∈ w.state.queue ∧ r.id ∉ u.batch.map (·.rowId)) :=
    fun r isUpload => mem_acknowledged_uploads same isUpload
  have next : s'.queue.next = w.state.queue.next := next_acknowledgeGrc _ _ _
  have subset : ∀ r, r ∈ s'.queue → r ∈ w.state.queue :=
    fun r mem => ((mem_acknowledgeGrc _ _).mp mem).1
  have names := fun r mem isUpload listed =>
    batch_names_upload kept known sent same (r := r) mem isUpload listed
  refine ⟨fun r mem => kept.reads r (subset r mem), nofun, nofun, ?_, ?_, ?_⟩
  · intro newer before
    rcases List.mem_append.mp before with old | new
    · obtain ⟨lower, upper⟩ := kept.acknowledged newer old
      exact ⟨next.symm ▸ lower, fun r mem => upper r (subset r mem)⟩
    · obtain ⟨item, listed, rfl⟩ := List.mem_map.mp new
      obtain ⟨member, named⟩ := mem_recordItems.mp listed
      refine ⟨next.symm ▸ (known u sent item member).1, fun r mem isUpload retryable => ?_⟩
      obtain ⟨row, spared⟩ := (left r isUpload).mp mem
      -- An earlier row that can be retried would have been in the batch.
      by_contra notAbove
      rcases Nat.lt_or_eq_of_le (Nat.le_of_not_lt notAbove) with below | equal
      · exact spared (order.1 item member named r row isUpload retryable below)
      · exact spared (List.mem_map.mpr ⟨item, member, equal.symm⟩)
  · intro none
    obtain ⟨⟨noRow, quiet⟩, clean⟩ := kept.untouched none
    refine ⟨⟨fun r mem => noRow r (subset r mem), quiet⟩, fun c unsynced => ?_⟩
    subst same
    rcases acknowledgeGrc_record u.kind id (u.batch.map (·.rowId))
      w.state.db with ⟨_, record⟩ | ⟨⟨r, mem, _, isUpload⟩, _⟩
    · exact clean c (record.symm.trans unsynced)
    · exact noRow r mem isUpload
  · intro v last
    have edited := kept.edited v last
    -- When the batch takes the last row, what it stored last is the last edit.
    have takesAll : Drained kind id s' →
        (∃ r ∈ w.state.queue, IsUpload kind id r) → w.state.platform kind id = some v := by
      rintro drained ⟨r, mem, isUpload⟩
      have listed : ∀ o ∈ w.state.queue, IsUpload kind id o → o.id ∈ u.batch.map (·.rowId) := by
        intro o row upload
        by_contra spared
        exact drained.1 o ((left o upload).mpr ⟨row, spared⟩) upload
      have nonempty : recordItems id u.batch ≠ [] := by
        obtain ⟨item, member, named, _⟩ := names r mem isUpload (listed r mem isUpload)
        exact List.ne_nil_of_mem (mem_recordItems.mpr ⟨member, named⟩)
      let final := (recordItems id u.batch).getLast nonempty
      have isLast : (recordItems id u.batch).getLast? = some final :=
        List.getLast?_eq_some_getLast nonempty
      obtain ⟨finalMember, finalNamed⟩ := mem_recordItems.mp (List.getLast_mem nonempty)
      obtain ⟨row, first, upload, rowId, reads, _⟩ :=
        kept.batchRows u sent same final finalMember finalNamed
      have newest : Newest kind id w.state.queue row := by
        refine ⟨first, upload, fun o oRow oUpload => ?_⟩
        obtain ⟨item, member, named, itemRow, _⟩ := names o oRow oUpload (listed o oRow oUpload)
        rw [← itemRow, rowId]
        exact order.2 final isLast item member named
      have carries := edited.newest drained.2 (fun o oRow oUpload => by
        obtain ⟨_, _, _, _, _, retryable⟩ := names o oRow oUpload (listed o oRow oUpload)
        exact retryable) row newest
      rw [reads] at carries
      have value : final.content = v := Except.ok.inj carries
      rw [← value]
      apply kept.stored u sent same final
      rwa [stored, List.take_length]
    refine ⟨acknowledged_record _ _ edited.record, edited.saves, fun drained => ?_, ?_⟩
    · by_cases some : ∃ r ∈ w.state.queue, IsUpload kind id r
      · exact takesAll drained some
      · exact edited.drained ⟨fun r mem isUpload => some ⟨r, mem, isUpload⟩, drained.2⟩
    · intro quiet retryable r newest
      obtain ⟨mem, isUpload, most⟩ := newest
      obtain ⟨row, spared⟩ := (left r isUpload).mp mem
      refine edited.newest quiet ?_ r ⟨row, isUpload, ?_⟩
      · intro o oRow oUpload
        by_cases listed : o.id ∈ u.batch.map (·.rowId)
        · obtain ⟨_, _, _, _, _, able⟩ := names o oRow oUpload listed
          exact able
        · exact retryable o ((left o oUpload).mpr ⟨oRow, listed⟩) oUpload
      · intro o oRow oUpload
        by_contra notBelow
        by_cases listed : o.id ∈ u.batch.map (·.rowId)
        · obtain ⟨item, member, named, itemRow, _⟩ := names o oRow oUpload listed
          exact spared (order.1 item member named r row isUpload
            (retryable r mem isUpload) (by omega))
        · exact notBelow (most o ((left o oUpload).mpr ⟨oRow, listed⟩) oUpload)

/-- A failed upload counts against its rows and takes none away. -/
theorem kept_failed {w : Watched γ} {u : Upload γ} (kept : Kept f kind id w)
    (distinct : BatchNodup w.state) (sent : w.state.upload = some u) (now : Nat)
    (error : String) :
    Kept f kind id
      ⟨{ withQueue w.state (noteFailures w.state.queue now
            (u.batch.map (fun item => (item.rowId, error)))) with upload := none },
        w.lastEdit, w.acknowledged⟩ := by
  let failures := u.batch.map (fun item => (item.rowId, error))
  let q' := noteFailures w.state.queue now failures
  have ids : (failures.map Prod.fst).Nodup := by
    have same : failures.map Prod.fst = u.batch.map (·.rowId) := by simp [failures]
    rw [same]
    exact distinct u sent
  have next : q'.next = w.state.queue.next := next_noteFailures now failures _
  have back : ∀ r ∈ q', ∃ old ∈ w.state.queue, SameRequest r old ∧ old.attempts ≤ r.attempts := by
    intro r mem
    rcases (evolves_noteFailures now failures w.state.queue).origin r mem with old | fresh
    · exact old
    · have := AutoTable.key_lt_next mem
      omega
  have forth : ∀ r ∈ w.state.queue, ∃ new ∈ q', SameRequest new r := by
    intro r mem
    obtain ⟨new, member, same, _⟩ := noteFailures_survivor now failures _ r ids mem
    exact ⟨new, member, same⟩
  have upload_iff : ∀ {a b : SyncQueueItem}, SameRequest a b →
      (IsUpload kind id a ↔ IsUpload kind id b) := by
    intro a b same
    unfold IsUpload
    rw [same.entityType, same.entityId]
  have able : ∀ {new old : SyncQueueItem}, SameRequest new old → old.attempts ≤ new.attempts →
      new.Retryable → old.Retryable := by
    intro new old same fewer retryable
    have limit := same.maxAttempts
    change new.attempts < new.maxAttempts at retryable
    change old.attempts < old.maxAttempts
    omega
  refine ⟨?_, nofun, nofun, ?_, ?_, ?_⟩
  · intro r mem isUpload
    obtain ⟨old, row, same, _⟩ := back r mem
    rw [same.payload]
    exact kept.reads old row ((upload_iff same).mp isUpload)
  · intro newer before
    obtain ⟨lower, upper⟩ := kept.acknowledged newer before
    refine ⟨next.symm ▸ lower, fun r mem isUpload retryable => ?_⟩
    obtain ⟨old, row, same, fewer⟩ := back r mem
    rw [same.id]
    exact upper old row ((upload_iff same).mp isUpload) (able same fewer retryable)
  · intro none
    obtain ⟨⟨noRow, quiet⟩, clean⟩ := kept.untouched none
    refine ⟨⟨fun r mem isUpload => ?_, quiet⟩, clean⟩
    obtain ⟨old, row, same, _⟩ := back r mem
    exact noRow old row ((upload_iff same).mp isUpload)
  · intro v last
    have edited := kept.edited v last
    refine ⟨edited.record, edited.saves, fun drained => edited.drained ⟨?_, drained.2⟩, ?_⟩
    · intro r mem isUpload
      obtain ⟨new, member, same⟩ := forth r mem
      exact drained.1 new member ((upload_iff same).mpr isUpload)
    · intro quiet retryable r newest
      obtain ⟨mem, isUpload, most⟩ := newest
      obtain ⟨old, row, same, _⟩ := back r mem
      rw [same.payload]
      refine edited.newest quiet ?_ old ⟨row, (upload_iff same).mp isUpload, ?_⟩
      · intro o oRow oUpload
        obtain ⟨new, member, newSame⟩ := forth o oRow
        obtain ⟨origin, oFirst, oSame, fewer⟩ := back new member
        have unique : origin = o :=
          AutoTable.row_unique oFirst oRow (oSame.id.symm.trans newSame.id)
        subst unique
        exact able newSame fewer (retryable new member ((upload_iff newSame).mpr oUpload))
      · intro o oRow oUpload
        obtain ⟨new, member, newSame⟩ := forth o oRow
        rw [← newSame.id, ← same.id]
        exact most new member ((upload_iff newSame).mpr oUpload)

theorem kept_download {w : Watched γ} (kept : Kept f kind id w) (items : List (String × γ))
    (whole : Bool)
    (lists : (∀ c, (id, c) ∈ items → w.state.platform kind id = some c) ∧
      (whole = true → (w.state.platform kind id).isSome → id ∈ items.map Prod.fst))
    (free : SaveUnderWay w.state kind id → ¬ Open w.state.db kind id) :
    Kept f kind id ⟨{ w.state with db := reconcileRemote w.state.db kind items whole },
      w.lastEdit, w.acknowledged⟩ := by
  have queue : (reconcileRemote w.state.db kind items whole).queue = w.state.db.queue :=
    queue_reconcileRemote _ _ _ _
  have rows : SameUploads kind id w.state.queue
      (reconcileRemote w.state.db kind items whole).queue := by
    rw [queue]
    exact sameUploads_refl _
  rcases reconcileRemote_record w.state.db kind kind id items
    whole with same | ⟨_, isOpen, change⟩
  · exact kept_frame kept rows same (fun _ => Iff.rfl) rfl (fun _ sent => sent) rfl rfl
  · have sameRow : ∀ r, r ∈ (reconcileRemote w.state.db kind items whole).queue ↔
        r ∈ w.state.queue := by
      intro r
      rw [queue]
      rfl
    refine ⟨fun r mem => kept.reads r ((sameRow r).mp mem), ?_, kept.stored, ?_, ?_, ?_⟩
    · intro u sent kinds item mem named
      obtain ⟨r, row, rest⟩ := kept.batchRows u sent kinds item mem named
      exact ⟨r, (sameRow r).mpr row, rest⟩
    · intro newer before
      obtain ⟨lower, upper⟩ := kept.acknowledged newer before
      exact ⟨lower.trans_le rows.next_le, fun r mem => upper r ((sameRow r).mp mem)⟩
    · intro none
      obtain ⟨⟨noRow, quiet⟩, _⟩ := kept.untouched none
      refine ⟨⟨fun r mem => noRow r ((sameRow r).mp mem), quiet⟩, fun c unsynced => ?_⟩
      rcases change with ⟨_, _, gone⟩ | ⟨_, value, _, written⟩
      · cases gone.symm.trans unsynced
      · cases written.symm.trans unsynced
    · intro v last
      have edited := kept.edited v last
      have quiet : ¬ SaveUnderWay w.state kind id := fun saving => free saving isOpen
      obtain ⟨synced, present⟩ := edited.record
      have unqueued : uploadQueued w.state.db kind id = false := by
        rcases isOpen with absent | ⟨_, unqueued⟩
        · rw [absent] at present
          cases present
        · exact unqueued
      have drained : Drained kind id w.state := by
        refine ⟨fun r mem isUpload => ?_, quiet⟩
        rw [Bool.eq_false_iff] at unqueued
        exact unqueued (uploadQueued_iff.mpr ⟨r, mem, isUpload⟩)
      -- The place was free, so the queue had drained and the platform holds the last edit.
      have current := edited.drained drained
      refine ⟨?_, edited.saves, fun _ => current, fun _ _ r newest => ?_⟩
      · rcases change with ⟨isWhole, absent, _⟩ | ⟨_, value, mem, written⟩
        · exact absurd (lists.2 isWhole (by rw [current]; rfl)) absent
        · have stored := lists.1 value mem
          rw [current] at stored
          cases stored
          exact ⟨true, written⟩
      · exact absurd newest.2.1 (drained.1 r ((sameRow r).mp newest.1))

/-! One step, then a run. -/

theorem watchStep_eq {w : Watched γ} {a : Action γ} (noEdit : edit f kind id w.state a = none)
    (noRows : acknowledgedRows kind id w.state a = []) :
    watchStep f kind id w a = ⟨step f w.state a, w.lastEdit, w.acknowledged⟩ := by
  simp [watchStep, noEdit, noRows]

theorem kept_queue {w : Watched γ} {q : SyncQueue} (kept : Kept f kind id w)
    (rows : SameUploads kind id w.state.queue q) :
    Kept f kind id ⟨withQueue w.state q, w.lastEdit, w.acknowledged⟩ :=
  kept_frame kept rows rfl (fun _ => Iff.rfl) rfl (fun _ sent => sent) rfl rfl

theorem kept_answerUpload {w : Watched γ} (now : Nat) (answer : UploadAnswer)
    (kept : Kept f kind id w) (known : BatchKnown w.state) (distinct : BatchNodup w.state)
    (scope : InScope kind id w.state (.answerUpload now answer))
    (order : KeepsOrder kind id w.state (.answerUpload now answer)) :
    Kept f kind id (watchStep f kind id w (.answerUpload now answer)) := by
  cases sent : w.state.upload with
  | none =>
    have nothing : answerUpload w.state now answer = w.state := by simp [answerUpload, sent]
    rw [watchStep_eq rfl (by cases answer <;> simp [acknowledgedRows, sent])]
    simpa only [step, nothing] using kept
  | some u =>
    cases answer with
    | failed error =>
      rw [watchStep_eq rfl rfl]
      simp only [step, answerUpload, sent]
      exact kept_failed kept distinct sent now error
    | received count =>
      by_cases whole : count = u.batch.length
      · have result : step f w.state (.answerUpload now (.received count)) =
            { w.state with
              db := acknowledgeGrc w.state.db (u.batch.map (·.rowId)) u.kind
              upload := none } := by
          simp [step, answerUpload, sent, whole]
        by_cases same : u.kind = kind
        · have rows : acknowledgedRows kind id w.state (.answerUpload now (.received count)) =
              (recordItems id u.batch).map (·.rowId) := by
            simp [acknowledgedRows, sent, same, whole]
          have stepped := kept_acknowledged kept known sent same (scope u sent same whole)
            (order u sent same whole)
          unfold watchStep
          rw [result, rows]
          exact stepped
        · rw [watchStep_eq rfl (by simp [acknowledgedRows, sent, same]), result]
          refine kept_frame kept ?_ ?_ (fun _ => Iff.rfl) rfl (fun _ sent => by cases sent) rfl rfl
          · refine sameUploads_of_kept (next_acknowledgeGrc _ _ _)
              (fun r mem => ((mem_acknowledgeGrc _ _).mp mem).1) ?_
            intro r mem isUpload
            refine (mem_acknowledgeGrc _ _).mpr ⟨mem, fun hit => same ?_⟩
            exact GrcKind.entity_injective (hit.2.symm.trans isUpload.1)
          · exact acknowledgeGrc_other_kind _ (fun equal => same equal.symm) _
      · rw [watchStep_eq rfl (by simp [acknowledgedRows, sent, whole])]
        simp only [step, answerUpload, sent, ne_eq, whole, not_false_eq_true, if_true]
        exact kept_frame kept (sameUploads_refl _) rfl (fun _ => Iff.rfl) rfl
          (fun _ sent => by cases sent) rfl rfl

/-- What the watching carries along besides: facts about what is in flight. -/
structure KeptRun (f : RecordFormat γ) (kind : GrcKind) (id : String) (w : Watched γ) :
    Prop where
  kept : Kept f kind id w
  known : Known w.state
  batchKnown : BatchKnown w.state
  distinct : BatchNodup w.state

theorem kept_answerDeletion {w : Watched γ} (now : Nat) (answer : DeletionAnswer)
    (kept : Kept f kind id w) (known : Known w.state) :
    Kept f kind id ⟨answerDeletion w.state now answer, w.lastEdit, w.acknowledged⟩ := by
  unfold answerDeletion
  cases inFlight : w.state.deletions with
  | nil => exact kept
  | cons item rest =>
    -- The answered row is a deletion and so no upload of the record.
    have other : ∀ r ∈ w.state.queue, IsUpload kind id r → r.id ≠ item.id := by
      intro r mem isUpload same
      obtain ⟨deletion, _, unique⟩ := known item (by simp [inFlight])
      rw [← (unique r mem same).1, isUpload.1, kind.entity_not_isDeletion] at deletion
      cases deletion
    simp only
    split
    · have rows : SameUploads kind id w.state.queue (remove w.state.queue [item.id]) :=
        sameUploads_remove (fun r mem isUpload hit =>
          other r mem isUpload (List.mem_singleton.mp hit))
      exact kept_frame kept rows rfl (fun _ => Iff.rfl) rfl (fun _ sent => sent) rfl rfl
    · cases answer.error with
      | none =>
        exact kept_frame kept (sameUploads_refl _) rfl (fun _ => Iff.rfl) rfl
          (fun _ sent => sent) rfl rfl
      | some error =>
        exact kept_frame kept (sameUploads_noteFailure other) rfl (fun _ => Iff.rfl) rfl
          (fun _ sent => sent) rfl rfl

theorem step_kept (w : Watched γ) (a : Action γ) (invariant : KeptRun f kind id w)
    (scope : InScope kind id w.state a) (order : KeepsOrder kind id w.state a) :
    Kept f kind id (watchStep f kind id w a) := by
  obtain ⟨kept, known, batchKnown, distinct⟩ := invariant
  cases a with
  | beginSave k i c =>
    simpa only [watchStep, step, save_eq, edit, acknowledgedRows, List.append_nil] using
      kept_save kept k i c order
  | toggleDetectionRule i enabled =>
    cases present : w.state.db.grc .detectionRule i with
    | none =>
      rw [watchStep_eq (by simp [edit, present]) rfl]
      simpa only [step, toggleDetectionRule, present] using kept
    | some r =>
      simpa only [watchStep, step, toggleDetectionRule, present, edit, Option.map_some,
        acknowledgedRows, List.append_nil] using kept_save kept .detectionRule i _ order
  | updateAssetLifecycle i lifecycle =>
    cases present : w.state.db.grc .asset i with
    | none =>
      rw [watchStep_eq (by simp [edit, present]) rfl]
      simpa only [step, updateAssetLifecycle, present] using kept
    | some r =>
      simpa only [watchStep, step, updateAssetLifecycle, present, edit, Option.map_some,
        acknowledgedRows, List.append_nil] using kept_save kept .asset i _ order
  | answerUpload now answer =>
    exact kept_answerUpload now answer kept batchKnown distinct scope order
  | togglePlaybook i enabled =>
    have noEdit : edit f kind id w.state (.togglePlaybook i enabled) = none := if_neg scope
    rw [watchStep_eq noEdit rfl]
    simp only [step, togglePlaybook]
    split
    · exact kept
    · refine kept_frame kept (sameUploads_refl _) (setRecord_other ?_) (fun _ => Iff.rfl) rfl
        (fun _ sent => sent) rfl rfl
      exact fun both => scope ⟨both.1.symm, both.2.symm⟩
  | endSave n now =>
    rw [watchStep_eq rfl rfl]
    exact kept_endSave kept n now order
  | delete k i now =>
    rw [watchStep_eq rfl rfl]
    simp only [step, deleteRecord, deleteGrc]
    have other : ¬ (kind = k ∧ id = i) := fun both => scope ⟨both.1.symm, both.2.symm⟩
    cases deletion : k.tombstone with
    | none => exact kept
    | some t =>
      have dropped : SameUploads kind id w.state.queue
          (dropRecordRows w.state.queue [k.entity, t] i) := by
        refine sameUploads_drop (fun both => other ⟨?_, both.1⟩)
        rcases List.mem_cons.mp both.2 with entity | last
        · exact GrcKind.entity_injective entity
        · exact absurd (List.mem_singleton.mp last) (GrcKind.tombstone_ne_entity deletion)
      refine kept_frame kept (sameUploads_trans dropped ⟨Nat.le_succ _, fun r isUpload => ?_⟩)
        (setRecord_other other) (fun _ => Iff.rfl) rfl (fun _ sent => sent) rfl rfl
      refine AutoTable.mem_insert.trans (or_iff_left fun new => ?_)
      subst new
      exact GrcKind.tombstone_ne_entity deletion isUpload.1.symm
  | cancelDelete k i =>
    rw [watchStep_eq rfl rfl]
    simp only [step, cancelDelete, cancelGrcDelete]
    cases deletion : k.tombstone with
    | none => exact kept
    | some t =>
      refine kept_queue kept (sameUploads_drop (fun both => ?_))
      exact GrcKind.tombstone_ne_entity deletion (List.mem_singleton.mp both.2)
  | requeueUnsynced k i now =>
    rw [watchStep_eq rfl rfl]
    exact kept_requeue kept k i now order
  | enqueueOther now entry =>
    rw [watchStep_eq rfl rfl]
    simp only [step]
    split
    · rename_i foreign
      exact kept_queue kept (sameUploads_enqueue order (fun same => foreign.2 kind same.1))
    · exact kept
  | otherDelivered rowId =>
    rw [watchStep_eq rfl rfl]
    simp only [step]
    split
    · rename_i foreign
      refine kept_queue kept (sameUploads_remove (fun r mem isUpload hit => ?_))
      exact (ofOther_row foreign mem (List.mem_singleton.mp hit)).2 kind isUpload.1
    · exact kept
  | otherFailed now rowId error =>
    rw [watchStep_eq rfl rfl]
    simp only [step]
    split
    · rename_i foreign
      refine kept_queue kept (sameUploads_noteFailure (fun r mem isUpload hit => ?_))
      exact (ofOther_row foreign mem hit).2 kind isUpload.1
    · exact kept
  | enforceQueueLimit =>
    rw [watchStep_eq rfl rfl]
    exact kept_queue kept (sameUploads_of_kept (next_enforceQueueLimit _)
      (fun _ mem => enforceQueueLimit_subset mem) order)
  | purgeFailed =>
    rw [watchStep_eq rfl rfl]
    exact kept_queue kept (sameUploads_of_kept (next_purgeFailed _)
      (fun _ mem => (mem_purgeFailed.mp mem).1) order)
  | fetch k now =>
    rw [watchStep_eq rfl rfl]
    exact kept_fetch kept k now
  | platformStores =>
    rw [watchStep_eq rfl rfl]
    exact kept_platformStores kept
  | fetchDeletions now =>
    rw [watchStep_eq rfl rfl]
    simp only [step, fetchDeletions]
    split
    · exact kept
    · exact kept_frame kept (sameUploads_refl _) rfl (fun _ => Iff.rfl) rfl
        (fun _ sent => sent) rfl rfl
  | platformDeletes =>
    rw [watchStep_eq rfl rfl]
    simp only [step, platformDeletes]
    cases inFlight : w.state.deletions with
    | nil => exact kept
    | cons item rest =>
      cases target : kindOfTombstone item.entityType with
      | none => simpa only [target] using kept
      | some k =>
        simp only [target]
        refine kept_frame kept (sameUploads_refl _) rfl (fun _ => Iff.rfl) ?_
          (fun _ sent => sent) rfl rfl
        refine setPlatform_other (fun both => scope item (by simp [inFlight]) ?_)
        rw [target, both.1]
        exact ⟨rfl, both.2⟩
  | answerDeletion now answer =>
    rw [watchStep_eq rfl rfl]
    exact kept_answerDeletion now answer kept known
  | platformEdits k i value =>
    rw [watchStep_eq rfl rfl]
    exact kept_frame kept (sameUploads_refl _) rfl (fun _ => Iff.rfl)
      (setPlatform_other scope) (fun _ sent => sent) rfl rfl
  | download k items complete =>
    rw [watchStep_eq rfl rfl]
    simp only [step, reconcile_eq]
    by_cases same : k = kind
    · subst same
      exact kept_download kept items _ (scope rfl) (order rfl)
    · refine kept_frame kept ?_ ?_ (fun _ => Iff.rfl) rfl (fun _ sent => sent) rfl rfl
      · simp only [State.queue, queue_reconcileRemote]
        exact sameUploads_refl _
      · rcases reconcileRemote_record w.state.db k kind id items
          (complete || decide (k = .playbook ∨ k = .detectionRule)) with kept | ⟨equal, _⟩
        · exact kept
        · exact absurd equal.symm same

theorem keptRun_along {w : Watched γ} {as : List (Action γ)} (invariant : KeptRun f kind id w)
    (along : Runs.Along (watchStep f kind id)
      (fun w a => InScope kind id w.state a ∧ KeepsOrder kind id w.state a) w as) :
    KeptRun f kind id (Runs.run (watchStep f kind id) w as) := by
  refine Runs.run_keeps (I := KeptRun f kind id) ?_ invariant along
  intro w a invariant condition
  exact ⟨step_kept w a invariant condition.1 condition.2, step_known f _ a invariant.known,
    step_batchKnown f _ a invariant.batchKnown, step_batchNodup f _ a invariant.distinct⟩

theorem initial_keptRun {s : State γ} (begins : Initial s) : KeptRun f kind id (watch s) := by
  have idle : ∀ u, s.upload ≠ some u := by
    intro u sent
    rw [begins.2.2.2.1] at sent
    cases sent
  exact ⟨initial_kept begins, initial_known begins, fun u sent => absurd sent (idle u),
    fun u sent => absurd sent (idle u)⟩

abbrev watchText : Watched String → Action String → Watched String :=
  watchStep textFormat .playbook "p"

def watchedStart : Watched String := watch (start (fun _ _ => none))

/-- Saved, uploaded, stored and acknowledged. -/
def uploadedOnce : List (Action String) :=
  [.beginSave .playbook "p" "v1", .endSave 0 0, .fetch .playbook 0, .platformStores,
    .answerUpload 0 (.received 1)]

/-- An upload fails and waits; the record is edited again and that edit is uploaded; then the
    first edit's time has come. -/
def resentAfterBackoff : List (Action String) :=
  [.beginSave .playbook "p" "v1", .endSave 0 0, .fetch .playbook 0,
    .answerUpload 0 (.failed "offline"), .beginSave .playbook "p" "v2", .endSave 0 0,
    .fetch .playbook 0, .platformStores, .answerUpload 0 (.received 1), .fetch .playbook 5]

def overwrittenByOlder : List (Action String) :=
  resentAfterBackoff ++ [.platformStores, .answerUpload 5 (.received 1)]

end SentinelAgent.Sync
