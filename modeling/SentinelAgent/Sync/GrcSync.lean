import SentinelAgent.Library.Ranked
import SentinelAgent.Library.Runs
import SentinelAgent.Storage.Grc

/-!
GRC synchronisation as one system: the commands of the interface, the drain that uploads the
queue and sends deletions, the platform, and its downloads. A save is two writes of a task,
the record and then the queue, and anything may happen between them. There is one drain at a
time, so at most one batch and one list of deletions are in flight. The platform may answer
anything; whether it stored a batch item is a step of its own.
-/
namespace SentinelAgent.Sync
open AutoTables Storage

/-- How a record is written and read, and the fields the toggles change. Serialisation is a
    library's: what it writes it reads back. -/
structure RecordFormat (γ : Type) where
  toJson : γ → String
  fromJson : String → Except String γ
  roundTrip : ∀ c, fromJson (toJson c) = .ok c
  withEnabled : Bool → γ → γ
  withLifecycle : String → γ → γ

structure Save (γ : Type) where
  kind : GrcKind
  id : String
  content : γ

structure UploadItem (γ : Type) where
  rowId : Nat
  id : String
  content : γ

/-- A batch sent and not answered; the platform has stored its first `stored` items. -/
structure Upload (γ : Type) where
  kind : GrcKind
  batch : List (UploadItem γ)
  stored : Nat

structure State (γ : Type) where
  db : Database γ
  platform : GrcKind → String → Option γ
  saving : List (Save γ)
  upload : Option (Upload γ)
  deletions : List SyncQueueItem

inductive UploadAnswer where
  | received (count : Nat)
  | failed (error : String)
  deriving DecidableEq, Repr

inductive DeletionAnswer where
  | response (acknowledged : Bool)
  | serverError (status : Nat) (error : String)
  | failed (error : String)
  deriving DecidableEq, Repr

/-- Acknowledged, or not found there: the platform does not have the record. -/
def DeletionAnswer.Accepted : DeletionAnswer → Prop
  | response acknowledged => acknowledged = true
  | serverError status _ => status = 404
  | failed _ => False

instance : DecidablePred DeletionAnswer.Accepted
  | .response acknowledged => inferInstanceAs (Decidable (acknowledged = true))
  | .serverError status _ => inferInstanceAs (Decidable (status = 404))
  | .failed _ => inferInstanceAs (Decidable False)

def DeletionAnswer.error : DeletionAnswer → Option String
  | response _ => none
  | serverError _ error => some error
  | failed error => some error

inductive Action (γ : Type) where
  | beginSave (kind : GrcKind) (id : String) (content : γ)
  | endSave (n now : Nat)
  | togglePlaybook (id : String) (enabled : Bool)
  | toggleDetectionRule (id : String) (enabled : Bool)
  | updateAssetLifecycle (id lifecycle : String)
  | delete (kind : GrcKind) (id : String) (now : Nat)
  | cancelDelete (kind : GrcKind) (id : String)
  | requeueUnsynced (kind : GrcKind) (id : String) (now : Nat)
  | enqueueOther (now : Nat) (entry : SyncQueueEntry)
  | otherDelivered (rowId : Nat)
  | otherFailed (now rowId : Nat) (error : String)
  | enforceQueueLimit
  | purgeFailed
  | fetch (kind : GrcKind) (now : Nat)
  | platformStores
  | answerUpload (now : Nat) (answer : UploadAnswer)
  | fetchDeletions (now : Nat)
  | platformDeletes
  | answerDeletion (now : Nat) (answer : DeletionAnswer)
  | platformEdits (kind : GrcKind) (id : String) (value : Option γ)
  | download (kind : GrcKind) (items : List (String × γ)) (complete : Bool)

variable {γ : Type}

def State.queue (s : State γ) : SyncQueue := s.db.queue

def withQueue (s : State γ) (q : SyncQueue) : State γ := { s with db := { s.db with queue := q } }

def setPlatform (platform : GrcKind → String → Option γ) (kind : GrcKind) (id : String)
    (value : Option γ) : GrcKind → String → Option γ :=
  fun k i => if k = kind ∧ i = id then value else platform k i

/-- The commands write the record, then a second statement queues it. -/
def uploadEntry (f : RecordFormat γ) (kind : GrcKind) (id : String) (content : γ) :
    SyncQueueEntry :=
  SyncQueueEntry.new kind.entity id (f.toJson content)

/-! Commands of the interface. -/

def saveRecord (kind : GrcKind) (s : State γ) (id : String) (content : γ) : State γ :=
  { s with
    db := upsert s.db kind id content false
    saving := s.saving ++ [⟨kind, id, content⟩] }

def savePlaybook : State γ → String → γ → State γ := saveRecord .playbook
def saveDetectionRule : State γ → String → γ → State γ := saveRecord .detectionRule
def saveRisk : State γ → String → γ → State γ := saveRecord .risk
def saveAsset : State γ → String → γ → State γ := saveRecord .asset
def saveAlertRule : State γ → String → γ → State γ := saveRecord .alertRule
def saveWebhook : State γ → String → γ → State γ := saveRecord .webhook

def save : GrcKind → State γ → String → γ → State γ
  | .playbook => savePlaybook
  | .detectionRule => saveDetectionRule
  | .risk => saveRisk
  | .asset => saveAsset
  | .alertRule => saveAlertRule
  | .webhook => saveWebhook

/-- The second write of the `n`-th save under way. -/
def endSave (f : RecordFormat γ) (s : State γ) (n now : Nat) : State γ :=
  match s.saving[n]? with
  | none => s
  | some save =>
    { withQueue s (Storage.enqueue s.queue now (uploadEntry f save.kind save.id save.content)).1
      with saving := s.saving.eraseIdx n }

/-- The toggle of a playbook writes the record and queues nothing. -/
def togglePlaybook (f : RecordFormat γ) (s : State γ) (id : String) (enabled : Bool) : State γ :=
  match s.db.grc .playbook id with
  | none => s
  | some r => { s with db := upsert s.db .playbook id (f.withEnabled enabled r.content) false }

def toggleDetectionRule (f : RecordFormat γ) (s : State γ) (id : String) (enabled : Bool) :
    State γ :=
  match s.db.grc .detectionRule id with
  | none => s
  | some r => saveRecord .detectionRule s id (f.withEnabled enabled r.content)

def updateAssetLifecycle (f : RecordFormat γ) (s : State γ) (id lifecycle : String) : State γ :=
  match s.db.grc .asset id with
  | none => s
  | some r => saveRecord .asset s id (f.withLifecycle lifecycle r.content)

/-- A refused call leaves the database alone; the command only logs it. -/
def orKeep (s : State γ) : Except StorageError (Database γ) → State γ
  | .ok db => { s with db }
  | .error _ => s

def deleteRecord (s : State γ) (kind : GrcKind) (id : String) (now : Nat) : State γ :=
  orKeep s (deleteGrc s.db now kind id)

def cancelDelete (s : State γ) (kind : GrcKind) (id : String) : State γ :=
  orKeep s (cancelGrcDelete s.db kind id)

/-- At the start of the interface: playbooks, detection rules and assets only. -/
def requeueUnsynced (f : RecordFormat γ) (s : State γ) (kind : GrcKind) (id : String)
    (now : Nat) : State γ :=
  match s.db.grc kind id with
  | none => s
  | some r =>
    if r.synced = false ∧ (kind = .playbook ∨ kind = .detectionRule ∨ kind = .asset) then
      withQueue s (Storage.enqueue s.queue now (uploadEntry f kind id r.content)).1
    else s

/-! Items of other senders: incidents, indicators, results. Their flows read and remove rows
    of their own type. -/

def IsOther (t : SyncEntityType) : Prop :=
  t.isDeletion = false ∧ ∀ kind : GrcKind, t ≠ kind.entity

instance (t : SyncEntityType) : Decidable (IsOther t) :=
  decidable_of_iff (t.isDeletion = false ∧ t ≠ .playbook ∧ t ≠ .detectionRule ∧ t ≠ .risk ∧
      t ≠ .asset ∧ t ≠ .alertRule ∧ t ≠ .webhook) (by
    constructor
    · rintro ⟨keep, a, b, c, d, e, g⟩
      exact ⟨keep, fun kind => by cases kind <;> assumption⟩
    · rintro ⟨keep, other⟩
      exact ⟨keep, other .playbook, other .detectionRule, other .risk, other .asset,
        other .alertRule, other .webhook⟩)

def ofOther (q : SyncQueue) (rowId : Nat) : Bool :=
  match q.find rowId with
  | none => false
  | some r => decide (IsOther r.entityType)

/-! The drain. -/

def batchLimit : Nat := 50

/-- The items of a batch whose payload can be read, and the others with their error. -/
def readable (f : RecordFormat γ) (pending : List SyncQueueItem) : List (UploadItem γ) :=
  pending.filterMap (fun r =>
    match f.fromJson r.payload with
    | .ok content => some ⟨r.id, r.entityId, content⟩
    | .error _ => none)

def unreadable (f : RecordFormat γ) (pending : List SyncQueueItem) : List (Nat × String) :=
  pending.filterMap (fun r =>
    match f.fromJson r.payload with
    | .ok _ => none
    | .error e => some (r.id, s!"Deserialization failed: {e}"))

def noteFailures (q : SyncQueue) (now : Nat) (failures : List (Nat × String)) : SyncQueue :=
  failures.foldl (fun q failure => noteFailure q now failure.1 failure.2) q

def fetch (f : RecordFormat γ) (s : State γ) (kind : GrcKind) (now : Nat) : State γ :=
  match s.upload with
  | some _ => s
  | none =>
    let pending := getPendingFor s.queue now kind.entity batchLimit
    let batch := readable f pending
    { withQueue s (noteFailures s.queue now (unreadable f pending)) with
      upload := if batch.isEmpty then none else some ⟨kind, batch, 0⟩ }

def platformStores (s : State γ) : State γ :=
  match s.upload with
  | none => s
  | some u =>
    match u.batch[u.stored]? with
    | none => s
    | some item =>
      { s with
        platform := setPlatform s.platform u.kind item.id (some item.content)
        upload := some { u with stored := u.stored + 1 } }

/-- An answer that counts another number of items than were sent is an error that records no
    failure: the items stay due. -/
def answerUpload (s : State γ) (now : Nat) (answer : UploadAnswer) : State γ :=
  match s.upload with
  | none => s
  | some u =>
    match answer with
    | .received count =>
      if count ≠ u.batch.length then { s with upload := none }
      else { s with
        db := acknowledgeGrc s.db (u.batch.map (·.rowId)) u.kind
        upload := none }
    | .failed error =>
      { withQueue s (noteFailures s.queue now (u.batch.map (fun item => (item.rowId, error))))
        with upload := none }

def fetchDeletions (s : State γ) (now : Nat) : State γ :=
  match s.deletions with
  | _ :: _ => s
  | [] =>
    { s with deletions :=
      (getPending s.queue now batchLimit).filter (fun r => r.entityType.isDeletion) }

def kindOfTombstone : SyncEntityType → Option GrcKind
  | .playbookDelete => some .playbook
  | .detectionRuleDelete => some .detectionRule
  | .riskDelete => some .risk
  | .alertRuleDelete => some .alertRule
  | .webhookDelete => some .webhook
  | _ => none

def platformDeletes (s : State γ) : State γ :=
  match s.deletions with
  | [] => s
  | item :: _ =>
    match kindOfTombstone item.entityType with
    | none => s
    | some kind => { s with platform := setPlatform s.platform kind item.entityId none }

/-- The loop over the deletions stops at the first answer that does not accept one. -/
def answerDeletion (s : State γ) (now : Nat) (answer : DeletionAnswer) : State γ :=
  match s.deletions with
  | [] => s
  | item :: rest =>
    if answer.Accepted then
      { withQueue s (remove s.queue [item.id]) with deletions := rest }
    else
      match answer.error with
      | none => { s with deletions := [] }
      | some error =>
        { withQueue s (noteFailure s.queue now item.id error) with deletions := [] }

def reconcile (db : Database γ) : GrcKind → List (String × γ) → Bool → Database γ
  | .playbook, items, _ => reconcileSnapshot db .playbook items
  | .detectionRule, items, _ => reconcileSnapshot db .detectionRule items
  | .risk, items, complete => reconcileRemote db .risk items complete
  | .asset, items, complete => reconcileRemote db .asset items complete
  | .alertRule, items, complete => reconcileRemote db .alertRule items complete
  | .webhook, items, complete => reconcileRemote db .webhook items complete

def step (f : RecordFormat γ) (s : State γ) : Action γ → State γ
  | .beginSave kind id content => save kind s id content
  | .endSave n now => endSave f s n now
  | .togglePlaybook id enabled => togglePlaybook f s id enabled
  | .toggleDetectionRule id enabled => toggleDetectionRule f s id enabled
  | .updateAssetLifecycle id lifecycle => updateAssetLifecycle f s id lifecycle
  | .delete kind id now => deleteRecord s kind id now
  | .cancelDelete kind id => cancelDelete s kind id
  | .requeueUnsynced kind id now => requeueUnsynced f s kind id now
  | .enqueueOther now entry =>
    if IsOther entry.entityType then withQueue s (Storage.enqueue s.queue now entry).1 else s
  | .otherDelivered rowId =>
    if ofOther s.queue rowId then withQueue s (remove s.queue [rowId]) else s
  | .otherFailed now rowId error =>
    if ofOther s.queue rowId then withQueue s (noteFailure s.queue now rowId error) else s
  | .enforceQueueLimit => withQueue s (Storage.enforceQueueLimit s.queue)
  | .purgeFailed => withQueue s (Storage.purgeFailed s.queue)
  | .fetch kind now => fetch f s kind now
  | .platformStores => platformStores s
  | .answerUpload now answer => answerUpload s now answer
  | .fetchDeletions now => fetchDeletions s now
  | .platformDeletes => platformDeletes s
  | .answerDeletion now answer => answerDeletion s now answer
  | .platformEdits kind id value => { s with platform := setPlatform s.platform kind id value }
  | .download kind items complete => { s with db := reconcile s.db kind items complete }

/-- A new database and a platform that holds anything. -/
def Initial (s : State γ) : Prop :=
  (∀ kind id, s.db.grc kind id = none) ∧ s.db.queue = AutoTable.empty _ ∧
    s.saving = [] ∧ s.upload = none ∧ s.deletions = []

def start (platform : GrcKind → String → Option γ) : State γ where
  db := { grc := fun _ _ => none, queue := AutoTable.empty _ }
  platform
  saving := []
  upload := none
  deletions := []

/-- A save of this record with this content has written it and not queued it yet. -/
def SaveCarries (s : State γ) (kind : GrcKind) (id : String) (c : γ) : Prop :=
  (⟨kind, id, c⟩ : Save γ) ∈ s.saving

def SaveUnderWay (s : State γ) (kind : GrcKind) (id : String) : Prop :=
  ∃ c, SaveCarries s kind id c

def Unsynced (s : State γ) (kind : GrcKind) (id : String) (c : γ) : Prop :=
  s.db.grc kind id = some ⟨c, false⟩

/-! What the steps leave alone, and what they do to the queue. -/

@[simp] theorem save_eq (kind : GrcKind) : (save kind : State γ → String → γ → State γ) =
    saveRecord kind := by
  cases kind <;> rfl

@[simp] theorem reconcile_eq (db : Database γ) (kind : GrcKind) (items : List (String × γ))
    (complete : Bool) : reconcile db kind items complete =
      reconcileRemote db kind items
        (complete || decide (kind = .playbook ∨ kind = .detectionRule)) := by
  cases kind <;> cases complete <;> rfl

/-- The actions that write the record tables, the queue, the list of saves. All others leave
    them alone, whatever state they are taken in. -/
def Action.WritesTables : Action γ → Prop
  | .beginSave _ _ _ | .togglePlaybook _ _ | .toggleDetectionRule _ _ => True
  | .updateAssetLifecycle _ _ | .delete _ _ _ | .answerUpload _ _ | .download _ _ _ => True
  | _ => False

def Action.WritesQueue : Action γ → Prop
  | .endSave _ _ | .delete _ _ _ | .cancelDelete _ _ | .requeueUnsynced _ _ _ => True
  | .enqueueOther _ _ | .otherDelivered _ | .otherFailed _ _ _ | .enforceQueueLimit => True
  | .purgeFailed | .fetch _ _ | .answerUpload _ _ | .answerDeletion _ _ => True
  | _ => False

def Action.WritesSaves : Action γ → Prop
  | .beginSave _ _ _ | .endSave _ _ => True
  | .toggleDetectionRule _ _ | .updateAssetLifecycle _ _ => True
  | _ => False

theorem grc_frame {f : RecordFormat γ} {s : State γ} {a : Action γ}
    (other : ¬ a.WritesTables) : (step f s a).db.grc = s.db.grc := by
  cases a with
  | beginSave | togglePlaybook | toggleDetectionRule | updateAssetLifecycle | delete
  | answerUpload | download => exact absurd trivial other
  | cancelDelete kind id =>
    simp only [step, cancelDelete, cancelGrcDelete]
    split <;> rfl
  | _ =>
    simp only [step, endSave, requeueUnsynced, fetch, platformStores, fetchDeletions,
      platformDeletes, answerDeletion, withQueue]
    repeat' split
    all_goals rfl

theorem queue_frame {f : RecordFormat γ} {s : State γ} {a : Action γ}
    (other : ¬ a.WritesQueue) : (step f s a).queue = s.queue := by
  cases a with
  | endSave | delete | cancelDelete | requeueUnsynced | enqueueOther | otherDelivered
  | otherFailed | enforceQueueLimit | purgeFailed | fetch | answerUpload
  | answerDeletion => exact absurd trivial other
  | download => simp only [step, reconcile_eq, State.queue, queue_reconcileRemote]
  | _ =>
    simp only [step, save_eq, saveRecord, togglePlaybook, toggleDetectionRule,
      updateAssetLifecycle, platformStores, fetchDeletions, platformDeletes]
    repeat' split
    all_goals rfl

theorem saving_frame {f : RecordFormat γ} {s : State γ} {a : Action γ}
    (other : ¬ a.WritesSaves) : (step f s a).saving = s.saving := by
  cases a with
  | beginSave | endSave | toggleDetectionRule | updateAssetLifecycle =>
    exact absurd trivial other
  | _ =>
    simp only [step, togglePlaybook, deleteRecord, cancelDelete, orKeep, requeueUnsynced, fetch,
      platformStores, answerUpload, fetchDeletions, platformDeletes, answerDeletion, withQueue]
    repeat' split
    all_goals rfl

theorem deletions_frame {f : RecordFormat γ} {s : State γ} {a : Action γ}
    (notFetch : ∀ now, a ≠ .fetchDeletions now)
    (notAnswer : ∀ now answer, a ≠ .answerDeletion now answer) :
    (step f s a).deletions = s.deletions := by
  cases a with
  | fetchDeletions now => exact absurd rfl (notFetch now)
  | answerDeletion now answer => exact absurd rfl (notAnswer now answer)
  | _ =>
    simp only [step, save_eq, saveRecord, endSave, togglePlaybook, toggleDetectionRule,
      updateAssetLifecycle, deleteRecord, cancelDelete, orKeep, requeueUnsynced, fetch,
      platformStores, answerUpload, platformDeletes, withQueue]
    repeat' split
    all_goals rfl

/-- A batch in flight is the one that was, or the one just read. -/
theorem step_upload {f : RecordFormat γ} {s : State γ} {a : Action γ} {u : Upload γ}
    (sent : (step f s a).upload = some u) :
    (∃ before, s.upload = some before ∧ u.kind = before.kind ∧ u.batch = before.batch) ∨
      ∃ kind now, a = .fetch kind now ∧ s.upload = none ∧
        u = ⟨kind, readable f (getPendingFor s.queue now kind.entity batchLimit), 0⟩ := by
  cases a with
  | fetch kind now =>
    simp only [step, fetch] at sent
    split at sent
    · exact Or.inl ⟨u, sent, rfl, rfl⟩
    · rename_i idle
      simp only at sent
      split at sent
      · cases sent
      · exact Or.inr ⟨kind, now, rfl, idle, (Option.some.inj sent).symm⟩
  | platformStores =>
    left
    simp only [step, platformStores] at sent
    split at sent
    · exact ⟨u, sent, rfl, rfl⟩
    · rename_i before inFlight
      split at sent
      · exact ⟨u, sent, rfl, rfl⟩
      · rw [← Option.some.inj sent]
        exact ⟨before, inFlight, rfl, rfl⟩
  | answerUpload now answer =>
    left
    simp only [step, answerUpload] at sent
    repeat' split at sent
    all_goals first | cases sent | exact ⟨u, sent, rfl, rfl⟩
  | _ =>
    left
    simp only [step, save_eq, saveRecord, endSave, togglePlaybook, toggleDetectionRule,
      updateAssetLifecycle, deleteRecord, cancelDelete, orKeep, requeueUnsynced,
      fetchDeletions, answerDeletion, platformDeletes, withQueue] at sent
    repeat' split at sent
    all_goals exact ⟨u, sent, rfl, rfl⟩

theorem ofOther_row {q : SyncQueue} {rowId : Nat} {r : SyncQueueItem}
    (other : ofOther q rowId = true) (mem : r ∈ q) (hit : r.id = rowId) :
    IsOther r.entityType := by
  have found : q.find rowId = some r := AutoTable.find_eq_some_iff.mpr ⟨mem, hit⟩
  simpa [ofOther, found] using other

theorem evolves_noteFailures (now : Nat) (failures : List (Nat × String)) :
    ∀ q : SyncQueue, Evolves q (noteFailures q now failures) := by
  induction failures with
  | nil => exact evolves_refl
  | cons failure failures ih =>
    intro q
    exact evolves_trans (evolves_noteFailure q now failure.1 failure.2) (ih _)

theorem sparesDeletions_noteFailures (now : Nat) (failures : List (Nat × String)) :
    ∀ q : SyncQueue, SparesDeletions q (noteFailures q now failures) := by
  induction failures with
  | nil => exact sparesDeletions_refl
  | cons failure failures ih =>
    intro q
    exact sparesDeletions_trans (sparesDeletions_noteFailure q now failure.1 failure.2) (ih _)

/-- Failures of different rows: each counts once, the other rows stand. -/
theorem noteFailures_survivor (now : Nat) (failures : List (Nat × String)) :
    ∀ (q : SyncQueue) (r : SyncQueueItem), (failures.map Prod.fst).Nodup → r ∈ q →
      ∃ new ∈ noteFailures q now failures, SameRequest new r ∧
        new.attempts ≤ r.attempts + 1 ∧ (r.id ∉ failures.map Prod.fst → new = r) := by
  induction failures with
  | nil =>
    intro q r _ mem
    exact ⟨r, mem, SameRequest.rfl, Nat.le_succ _, fun _ => rfl⟩
  | cons failure failures ih =>
    intro q r distinct mem
    rw [List.map_cons, List.nodup_cons] at distinct
    obtain ⟨mid, member, same, few, kept⟩ := noteFailure_survivor now failure.1
      failure.2 mem
    obtain ⟨new, last, newer, more, left⟩ := ih _ mid distinct.2 member
    refine ⟨new, last, newer.trans same, ?_, fun spared => ?_⟩
    · by_cases hit : r.id = failure.1
      · have once : mid.id ∉ failures.map Prod.fst := by
          rw [same.id, hit]
          exact distinct.1
        rw [left once]
        exact few
      · rw [kept hit] at more
        exact more
    · rw [List.map_cons, List.mem_cons, not_or] at spared
      have first := kept spared.1
      subst first
      exact left spared.2

theorem mem_readable {f : RecordFormat γ} {pending : List SyncQueueItem} {item : UploadItem γ} :
    item ∈ readable f pending ↔ ∃ r ∈ pending, f.fromJson r.payload = .ok item.content ∧
      r.id = item.rowId ∧ r.entityId = item.id := by
  unfold readable
  rw [List.mem_filterMap]
  apply exists_congr
  intro r
  apply and_congr_right
  intro _
  cases read : f.fromJson r.payload with
  | error e => simp
  | ok content =>
    cases item
    simp only [Option.some.injEq, UploadItem.mk.injEq, Except.ok.injEq]
    tauto

theorem readable_ids_sublist (f : RecordFormat γ) (pending : List SyncQueueItem) :
    ((readable f pending).map (·.rowId)).Sublist (pending.map (·.id)) := by
  induction pending with
  | nil => exact List.Sublist.refl _
  | cons r pending ih =>
    unfold readable at ih ⊢
    rw [List.filterMap_cons, List.map_cons]
    cases read : f.fromJson r.payload with
    | error e => exact ih.cons _
    | ok content => exact ih.cons_cons _

theorem mem_unreadable_ids {f : RecordFormat γ} {pending : List SyncQueueItem} {id : Nat}
    (mem : id ∈ (unreadable f pending).map Prod.fst) :
    ∃ r ∈ pending, r.id = id ∧ ∃ e, f.fromJson r.payload = .error e := by
  obtain ⟨failure, listed, rfl⟩ := List.mem_map.mp mem
  obtain ⟨r, member, made⟩ := List.mem_filterMap.mp listed
  cases read : f.fromJson r.payload with
  | ok content => simp [read] at made
  | error e =>
    simp only [read, Option.some.injEq] at made
    exact ⟨r, member, by rw [← made], e, read⟩

theorem unreadable_ids_sublist (f : RecordFormat γ) (pending : List SyncQueueItem) :
    ((unreadable f pending).map Prod.fst).Sublist (pending.map (·.id)) := by
  induction pending with
  | nil => exact List.Sublist.refl _
  | cons r pending ih =>
    unfold unreadable at ih ⊢
    rw [List.filterMap_cons, List.map_cons]
    cases read : f.fromJson r.payload with
    | error e => exact ih.cons_cons _
    | ok content => exact ih.cons _

theorem evolves_dropRecordRows (q : SyncQueue) (types : List SyncEntityType) (id : String) :
    Evolves q (dropRecordRows q types id) :=
  evolves_of_subset rfl (fun _ mem => (AutoTable.mem_keep.mp mem).1)

theorem evolves_remove (q : SyncQueue) (ids : List Nat) : Evolves q (remove q ids) :=
  evolves_of_subset rfl (fun _ mem => (mem_remove.mp mem).1)

theorem evolves_acknowledgeGrc (db : Database γ) (ids : List Nat) (kind : GrcKind) :
    Evolves db.queue (acknowledgeGrc db ids kind).queue :=
  evolves_of_subset (next_acknowledgeGrc ids kind db)
    (fun _ mem => ((mem_acknowledgeGrc ids db).mp mem).1)

/-- Over any step the rows keep what they say and no id comes back. -/
theorem step_evolves (f : RecordFormat γ) (s : State γ) (a : Action γ) :
    Evolves s.queue (step f s a).queue := by
  by_cases writes : a.WritesQueue
  · cases a with
    | endSave n now =>
      simp only [step, endSave]
      split
      · exact evolves_refl _
      · exact evolves_enqueue _ _ _
    | delete kind id now =>
      simp only [step, deleteRecord, deleteGrc]
      cases kind.tombstone with
      | none => exact evolves_refl _
      | some t => exact evolves_trans (evolves_dropRecordRows _ _ _) (evolves_insert _ _)
    | cancelDelete kind id =>
      simp only [step, cancelDelete, cancelGrcDelete]
      cases kind.tombstone with
      | none => exact evolves_refl _
      | some t => exact evolves_dropRecordRows _ _ _
    | requeueUnsynced kind id now =>
      simp only [step, requeueUnsynced]
      split
      · exact evolves_refl _
      · split
        · exact evolves_enqueue _ _ _
        · exact evolves_refl _
    | enqueueOther now entry =>
      simp only [step]
      split
      · exact evolves_enqueue _ _ _
      · exact evolves_refl _
    | otherDelivered rowId =>
      simp only [step]
      split
      · exact evolves_remove _ _
      · exact evolves_refl _
    | otherFailed now rowId error =>
      simp only [step]
      split
      · exact evolves_noteFailure _ _ _ _
      · exact evolves_refl _
    | enforceQueueLimit =>
      exact evolves_of_subset (next_enforceQueueLimit _)
        (fun _ mem => enforceQueueLimit_subset mem)
    | purgeFailed =>
      exact evolves_of_subset (next_purgeFailed _) (fun _ mem => (mem_purgeFailed.mp mem).1)
    | fetch kind now =>
      simp only [step, fetch]
      split
      · exact evolves_refl _
      · exact evolves_noteFailures _ _ _
    | answerUpload now answer =>
      simp only [step, answerUpload]
      split
      · exact evolves_refl _
      · split
        · split
          · exact evolves_refl _
          · exact evolves_acknowledgeGrc _ _ _
        · exact evolves_noteFailures _ _ _
    | answerDeletion now answer =>
      simp only [step, answerDeletion]
      split
      · exact evolves_refl _
      · split
        · exact evolves_remove _ _
        · split
          · exact evolves_refl _
          · exact evolves_noteFailure _ _ _ _
    | _ => exact writes.elim
  · rw [queue_frame writes]
    exact evolves_refl _

/-! What is in flight. -/

/-- The deletions in flight stand in the queue as they were read, or not at all: no other row
    has come to their id. -/
def Known (s : State γ) : Prop :=
  ∀ item ∈ s.deletions, item.entityType.isDeletion = true ∧ item.id < s.queue.next ∧
    ∀ r ∈ s.queue, r.id = item.id → r.entityType = item.entityType ∧ r.entityId = item.entityId

theorem initial_known {s : State γ} (begins : Initial s) : Known s := by
  intro item mem
  rw [begins.2.2.2.2] at mem
  cases mem

theorem step_deletions {f : RecordFormat γ} {s : State γ} (a : Action γ) {item : SyncQueueItem}
    (mem : item ∈ (step f s a).deletions) :
    item ∈ s.deletions ∨
      (item ∈ s.queue ∧ item.entityType.isDeletion = true ∧ (step f s a).queue = s.queue) := by
  by_cases fetching : ∃ now, a = .fetchDeletions now
  · obtain ⟨now, rfl⟩ := fetching
    simp only [step, fetchDeletions] at mem
    split at mem
    · exact Or.inl mem
    · obtain ⟨read, deletion⟩ := List.mem_filter.mp mem
      exact Or.inr ⟨(mem_getPending read).1, deletion, queue_frame (fun writes => writes)⟩
  by_cases answered : ∃ now answer, a = .answerDeletion now answer
  · obtain ⟨now, answer, rfl⟩ := answered
    left
    simp only [step, answerDeletion] at mem
    split at mem
    · exact mem
    · rename_i first rest inFlight
      rw [inFlight]
      split at mem
      · exact List.mem_cons_of_mem first mem
      · split at mem <;> cases mem
  · left
    rwa [deletions_frame (fun now same => fetching ⟨now, same⟩)
      (fun now answer same => answered ⟨now, answer, same⟩)] at mem

theorem step_known (f : RecordFormat γ) (s : State γ) (a : Action γ) (known : Known s) :
    Known (step f s a) := by
  intro item mem
  rcases step_deletions a mem with old | ⟨row, deletion, same⟩
  · obtain ⟨deletion, before, unique⟩ := known item old
    have evolves := step_evolves f s a
    refine ⟨deletion, lt_of_lt_of_le before evolves.next_le, fun r after id => ?_⟩
    exact evolves_same_id evolves before unique after id
  · rw [same]
    refine ⟨deletion, AutoTable.key_lt_next row, fun r after id => ?_⟩
    rw [AutoTable.row_unique after row id]
    exact ⟨rfl, rfl⟩

/-- A batch names each of its rows once. -/
def BatchNodup (s : State γ) : Prop :=
  ∀ u, s.upload = some u → (u.batch.map (·.rowId)).Nodup

theorem step_batchNodup (f : RecordFormat γ) (s : State γ) (a : Action γ)
    (distinct : BatchNodup s) : BatchNodup (step f s a) := by
  intro u sent
  rcases step_upload sent with ⟨before, inFlight, _, same⟩ | ⟨kind, now, _, _, rfl⟩
  · rw [same]
    exact distinct before inFlight
  · exact (getPendingFor_ids_nodup _ _ _ _).sublist (readable_ids_sublist f _)

/-- The rows of a batch stand in the queue under their ids, or not at all. -/
def BatchKnown (s : State γ) : Prop :=
  ∀ u, s.upload = some u → ∀ item ∈ u.batch, item.rowId < s.queue.next ∧
    ∀ r ∈ s.queue, r.id = item.rowId → r.entityType = u.kind.entity ∧ r.entityId = item.id

theorem step_batchKnown (f : RecordFormat γ) (s : State γ) (a : Action γ)
    (known : BatchKnown s) : BatchKnown (step f s a) := by
  intro u sent item mem
  have evolves := step_evolves f s a
  rcases step_upload sent with ⟨before, inFlight, kind, batch⟩ | ⟨kind, now, _, _, rfl⟩
  · rw [batch] at mem
    obtain ⟨lower, unique⟩ := known before inFlight item mem
    refine ⟨lower.trans_le evolves.next_le, fun r row same => ?_⟩
    rcases evolves.origin r row with ⟨old, first, request, _⟩ | fresh
    · obtain ⟨type, named⟩ := unique old first (request.id.symm.trans same)
      rw [kind]
      exact ⟨request.entityType.trans type, request.entityId.trans named⟩
    · omega
  · obtain ⟨read, pending, _, rowId, named⟩ := mem_readable.mp mem
    obtain ⟨row, _, _, type⟩ := mem_getPendingFor pending
    have lower := AutoTable.key_lt_next row
    rw [← rowId]
    refine ⟨lower.trans_le evolves.next_le, fun r after same => ?_⟩
    have stands := evolves_same_id evolves lower (fun other member id => by
      rw [AutoTable.row_unique member row id]
      exact ⟨rfl, rfl⟩) after same
    exact ⟨stands.1.trans type, stands.2.trans named⟩

@[simp] theorem next_noteFailures (now : Nat) (failures : List (Nat × String)) :
    ∀ q : SyncQueue, (noteFailures q now failures).next = q.next := by
  induction failures with
  | nil => exact fun _ => rfl
  | cons failure failures ih => exact fun q => (ih _).trans (next_noteFailure q now _ _)

theorem start_initial (platform : GrcKind → String → Option γ) : Initial (start platform) :=
  ⟨fun _ _ => rfl, rfl, rfl, rfl, rfl⟩

/-- Records that are their own text, for concrete runs. -/
def textFormat : RecordFormat String where
  toJson content := content
  fromJson text := .ok text
  roundTrip _ := rfl
  withEnabled enabled _ := if enabled then "on" else "off"
  withLifecycle lifecycle _ := lifecycle

/-!
Which deletions a synchronisation takes up. It reads one batch of due items of all types and
then picks the deletions out of it, so other items due before them can fill the batch.
-/

def dueItems (q : SyncQueue) (now : Nat) : List SyncQueueItem :=
  q.rows.filter (fun r => decide (r.Retryable ∧ r.nextRetryAt ≤ now))

def dueDeletions (q : SyncQueue) (now : Nat) : List SyncQueueItem :=
  (dueItems q now).filter (fun r => r.entityType.isDeletion)

/- The due items of whatever type that are read before an item: of higher priority, or as urgent
   and older, or as old and queued first. -/
def dueBefore (q : SyncQueue) (now : Nat) (r : SyncQueueItem) : Nat :=
  ahead SyncQueueItem.id mostUrgentFirst (dueItems q now) r

theorem mem_getPending_iff {q : SyncQueue} {now limit : Nat} {r : SyncQueueItem}
    (due : r ∈ dueItems q now) : r ∈ getPending q now limit ↔ dueBefore q now r < limit :=
  mem_firstBy_iff mostUrgentFirst_total mostUrgentFirst_trans (q.ascending.filter _) due

/-- Every due deletion is taken up exactly where fewer due items than a batch holds are read
    before each of them. -/
theorem deletions_fetched_iff {γ : Type} (s : State γ) (idle : s.deletions = []) (now : Nat) :
    (∀ r ∈ dueDeletions s.queue now, r ∈ (fetchDeletions s now).deletions) ↔
      ∀ r ∈ dueDeletions s.queue now, dueBefore s.queue now r < batchLimit := by
  have batch : (fetchDeletions s now).deletions =
      (getPending s.queue now batchLimit).filter (fun r => r.entityType.isDeletion) := by
    simp only [fetchDeletions, idle]
  refine forall₂_congr fun r deletion => ?_
  obtain ⟨due, is_deletion⟩ := List.mem_filter.mp deletion
  rw [batch, List.mem_filter, and_iff_left is_deletion, mem_getPending_iff due]

/-! Incidents that the platform has not received, and a deletion of the same priority that is
    queued after them. -/

def incidentEntry : SyncQueueEntry :=
  (SyncQueueEntry.new .incident "incident" "\x7b\x7d").withPriority 10

def incidentsFirst (incidents : Nat) : SyncQueue :=
  ((fun q => (Storage.enqueue q 0 incidentEntry).1)^[incidents]
    (AutoTable.empty SyncQueueItem.id)).insert (tombstoneItem 1 .playbookDelete "playbook")

def withItems (q : SyncQueue) : State String where
  db := { grc := fun _ _ => none, queue := q }
  platform _ _ := none
  saving := []
  upload := none
  deletions := []

theorem few_incidents : dueDeletions (incidentsFirst 2) 1 ≠ [] ∧
    ∀ r ∈ dueDeletions (incidentsFirst 2) 1,
      r ∈ (fetchDeletions (withItems (incidentsFirst 2)) 1).deletions :=
  ⟨by decide,
    (deletions_fetched_iff (withItems (incidentsFirst 2)) rfl 1).mpr (by decide)⟩

/- Fifty of them starve the only deletion. -/
theorem deletion_starved : (dueDeletions (incidentsFirst 50) 1).length = 1 ∧
    ∃ r ∈ dueDeletions (incidentsFirst 50) 1,
      r ∉ (fetchDeletions (withItems (incidentsFirst 50)) 1).deletions := by
  decide +kernel

end SentinelAgent.Sync
