import SentinelAgent.Library.AutoTable

/-!
The queue of items waiting for the platform (`sync_queue`). Each operation is one statement
or one transaction, so it is a function of the table; the clock is an argument, in whole
seconds as the rows store it. Calls the database refuses are not modelled.
-/
namespace SentinelAgent.Storage
open AutoTables

def maxSyncQueueSize : Nat := 10000
def defaultMaxAttempts : Nat := 10
def i32Max : Nat := 2147483647

inductive SyncEntityType where
  | checkResult | proof | heartbeat | config
  | playbook | playbookDelete | detectionRule | detectionRuleDelete
  | risk | riskDelete | asset | kpi
  | alertRule | alertRuleDelete | webhook | webhookDelete | incident
  deriving DecidableEq, Repr

namespace SyncEntityType

def asStr : SyncEntityType → String
  | checkResult => "check_result"
  | proof => "proof"
  | heartbeat => "heartbeat"
  | config => "config"
  | playbook => "playbook"
  | playbookDelete => "playbook_delete"
  | detectionRule => "detection_rule"
  | detectionRuleDelete => "detection_rule_delete"
  | risk => "risk"
  | riskDelete => "risk_delete"
  | asset => "asset"
  | kpi => "kpi"
  | alertRule => "alert_rule"
  | alertRuleDelete => "alert_rule_delete"
  | webhook => "webhook"
  | webhookDelete => "webhook_delete"
  | incident => "incident"

def parseStr (s : String) : Option SyncEntityType :=
  if s = "check_result" then some checkResult
  else if s = "proof" then some proof
  else if s = "heartbeat" then some heartbeat
  else if s = "config" then some config
  else if s = "playbook" then some playbook
  else if s = "playbook_delete" then some playbookDelete
  else if s = "detection_rule" then some detectionRule
  else if s = "detection_rule_delete" then some detectionRuleDelete
  else if s = "risk" then some risk
  else if s = "risk_delete" then some riskDelete
  else if s = "asset" then some asset
  else if s = "kpi" then some kpi
  else if s = "alert_rule" then some alertRule
  else if s = "alert_rule_delete" then some alertRuleDelete
  else if s = "webhook" then some webhook
  else if s = "webhook_delete" then some webhookDelete
  else if s = "incident" then some incident
  else none

/-- Rows keep the type as text; no type is lost or confused on the way back. -/
theorem parseStr_asStr (t : SyncEntityType) : parseStr t.asStr = some t := by
  cases t <;> decide

/-- `entity_type LIKE '%_delete'`. The underscore stands for any one character. -/
def likeDelete (s : String) : Bool :=
  decide (7 ≤ s.toList.length) && s.toList.drop (s.toList.length - 6) == "delete".toList

/-- The rows no limit and no purge may take. -/
def isDeletion (t : SyncEntityType) : Bool := likeDelete t.asStr

end SyncEntityType

structure SyncQueueEntry where
  entityType : SyncEntityType
  entityId : String
  payload : String
  priority : Int
  maxAttempts : Nat
  deriving DecidableEq, Repr

def SyncQueueEntry.new (entityType : SyncEntityType) (entityId payload : String) :
    SyncQueueEntry :=
  { entityType, entityId, payload, priority := 0, maxAttempts := defaultMaxAttempts }

def SyncQueueEntry.withPriority (e : SyncQueueEntry) (priority : Int) : SyncQueueEntry :=
  { e with priority }

def SyncQueueEntry.withMaxAttempts (e : SyncQueueEntry) (maxAttempts : Nat) : SyncQueueEntry :=
  { e with maxAttempts }

structure SyncQueueItem where
  id : Nat
  entityType : SyncEntityType
  entityId : String
  payload : String
  priority : Int
  attempts : Nat
  maxAttempts : Nat
  lastAttemptAt : Option Nat
  lastError : Option String
  createdAt : Nat
  nextRetryAt : Nat
  deriving DecidableEq, Repr

abbrev SyncQueue := AutoTable SyncQueueItem.id

inductive StorageError where
  | query (message : String)
  | notFound (message : String)
  /- The call does not return: an arithmetic operation overflowed. -/
  | overflow (message : String)
  deriving DecidableEq, Repr

/-! Selections. -/

def SyncQueueItem.Retryable (r : SyncQueueItem) : Prop := r.attempts < r.maxAttempts

instance (r : SyncQueueItem) : Decidable r.Retryable :=
  inferInstanceAs (Decidable (r.attempts < r.maxAttempts))

/-- `ORDER BY created_at ASC`. -/
def oldestFirst (a b : SyncQueueItem) : Bool := decide (a.createdAt ≤ b.createdAt)

/-- `ORDER BY priority ASC, created_at ASC`. -/
def leastUrgentFirst (a b : SyncQueueItem) : Bool :=
  decide (a.priority < b.priority ∨ (a.priority = b.priority ∧ a.createdAt ≤ b.createdAt))

/-- `ORDER BY priority DESC, created_at ASC`. -/
def mostUrgentFirst (a b : SyncQueueItem) : Bool :=
  decide (b.priority < a.priority ∨ (a.priority = b.priority ∧ a.createdAt ≤ b.createdAt))

theorem mostUrgentFirst_total (a b : SyncQueueItem) :
    mostUrgentFirst a b = true ∨ mostUrgentFirst b a = true := by
  simp only [mostUrgentFirst, decide_eq_true_eq]
  omega

theorem mostUrgentFirst_trans (a b c : SyncQueueItem) (ab : mostUrgentFirst a b = true)
    (bc : mostUrgentFirst b c = true) : mostUrgentFirst a c = true := by
  simp only [mostUrgentFirst, decide_eq_true_eq] at ab bc ⊢
  omega

def getPending (q : SyncQueue) (now limit : Nat) : List SyncQueueItem :=
  firstBy limit mostUrgentFirst
    (q.rows.filter (fun r => decide (r.Retryable ∧ r.nextRetryAt ≤ now)))

def getPendingFor (q : SyncQueue) (now : Nat) (entity : SyncEntityType) (limit : Nat) :
    List SyncQueueItem :=
  firstBy limit mostUrgentFirst
    (q.rows.filter (fun r =>
      decide (r.Retryable ∧ r.nextRetryAt ≤ now ∧ r.entityType = entity)))

/-! Operations. -/

def newItem (now : Nat) (entityType : SyncEntityType) (entityId payload : String)
    (priority : Int) (maxAttempts : Nat) : RowMaker SyncQueueItem.id where
  make id :=
    { id, entityType, entityId, payload, priority, attempts := 0, maxAttempts,
      lastAttemptAt := none, lastError := none, createdAt := now, nextRetryAt := now }
  keyed _ := rfl

/-- The two passes of the overflow protection: the oldest items of priority 0 go first, then,
    if these are fewer than `excess`, the oldest of the least urgent. -/
def evict (q : SyncQueue) (excess : Nat) : SyncQueue :=
  let low := firstBy excess oldestFirst
    (q.rows.filter (fun r => decide (r.priority = 0) && !r.entityType.isDeletion))
  let rest := q.removeRows low
  let remaining := excess - low.length
  if 0 < remaining then
    rest.removeRows (firstBy remaining leastUrgentFirst
      (rest.rows.filter (fun r => !r.entityType.isDeletion)))
  else rest

def makeRoom (q : SyncQueue) : SyncQueue :=
  if maxSyncQueueSize ≤ q.size then evict q (q.size - maxSyncQueueSize + 1) else q

def entryItem (now : Nat) (e : SyncQueueEntry) : RowMaker SyncQueueItem.id :=
  newItem now e.entityType e.entityId e.payload e.priority (min e.maxAttempts i32Max)

/-- The queue after the call and the id it returns. -/
def enqueue (q : SyncQueue) (now : Nat) (e : SyncQueueEntry) : SyncQueue × Nat :=
  ((makeRoom q).insert (entryItem now e), (makeRoom q).next)

/-- The delay before attempt `attempts + 1` is made again, `min(2^(attempts + 1), 3600)`
    seconds. The power is taken in 64 bits with overflow checked. -/
def retryDelay (attempts : Nat) : Option Nat :=
  if attempts + 1 < 64 then some (min (2 ^ (attempts + 1)) 3600) else none

def failedOnce (now delay : Nat) (message : String) (r : SyncQueueItem) : SyncQueueItem :=
  { r with
    attempts := r.attempts + 1
    lastAttemptAt := some now
    lastError := some message
    nextRetryAt := now + delay }

def failureEdit (id now delay : Nat) (message : String) : RowEdit SyncQueueItem.id where
  edit r := if r.id = id then failedOnce now delay message r else r
  keyed r := by split <;> rfl

def recordFailure (q : SyncQueue) (now id : Nat) (message : String) :
    Except StorageError SyncQueue :=
  match q.find id with
  | none => .error (.notFound s!"Sync queue item {id} not found")
  | some item =>
    match retryDelay item.attempts with
    | none => .error (.overflow "attempt to multiply with overflow")
    | some delay => .ok (q.update (failureEdit id now delay message))

/-- The callers that ignore the outcome (`let _ = repo.record_failure(..)`). -/
def noteFailure (q : SyncQueue) (now id : Nat) (message : String) : SyncQueue :=
  match recordFailure q now id message with
  | .ok q' => q'
  | .error _ => q

def remove (q : SyncQueue) (ids : List Nat) : SyncQueue := q.removeKeys ids

def evictLeastUrgent (q : SyncQueue) (excess : Nat) : SyncQueue :=
  q.removeRows (firstBy excess leastUrgentFirst
    (q.rows.filter (fun r => !r.entityType.isDeletion)))

def enforceQueueLimit (q : SyncQueue) : SyncQueue :=
  if q.size ≤ maxSyncQueueSize then q else evictLeastUrgent q (q.size - maxSyncQueueSize)

def purgeFailed (q : SyncQueue) : SyncQueue :=
  q.keep (fun r => !(decide (r.maxAttempts ≤ r.attempts) && !r.entityType.isDeletion))

/-! What the operations do to the rows. Callers read these facts and not the definitions. -/

variable {q : SyncQueue} {r : SyncQueueItem}

theorem mem_getPending {now limit : Nat} (mem : r ∈ getPending q now limit) :
    r ∈ q ∧ r.Retryable ∧ r.nextRetryAt ≤ now := by
  have chosen := List.mem_filter.mp (mem_of_mem_firstBy mem)
  exact ⟨chosen.1, of_decide_eq_true chosen.2⟩

theorem mem_getPendingFor {now limit : Nat} {entity : SyncEntityType}
    (mem : r ∈ getPendingFor q now entity limit) :
    r ∈ q ∧ r.Retryable ∧ r.nextRetryAt ≤ now ∧ r.entityType = entity := by
  have chosen := List.mem_filter.mp (mem_of_mem_firstBy mem)
  exact ⟨chosen.1, of_decide_eq_true chosen.2⟩

theorem getPendingFor_ids_nodup (q : SyncQueue) (now : Nat) (entity : SyncEntityType)
    (limit : Nat) : ((getPendingFor q now entity limit).map (·.id)).Nodup :=
  firstBy_keys_nodup ((AutoTable.keys_nodup q).sublist (List.filter_sublist.map _))

theorem mem_of_mem_removeChosen {n : Nat} {le : SyncQueueItem → SyncQueueItem → Bool}
    {p : SyncQueueItem → Bool} : r ∈ q.removeRows (firstBy n le (q.rows.filter p)) ↔
      r ∈ q ∧ r ∉ firstBy n le (q.rows.filter p) := by
  apply AutoTable.mem_removeRows
  intro x mem
  exact (List.mem_filter.mp (mem_of_mem_firstBy mem)).1

theorem spared_of_not_chosen {n : Nat} {le : SyncQueueItem → SyncQueueItem → Bool}
    {p : SyncQueueItem → Bool} (mem : r ∈ q) (spared : p r = false) :
    r ∈ q.removeRows (firstBy n le (q.rows.filter p)) := by
  rw [mem_of_mem_removeChosen]
  refine ⟨mem, fun chosen => ?_⟩
  have := (List.mem_filter.mp (mem_of_mem_firstBy chosen)).2
  simp [spared] at this

theorem evict_subset {excess : Nat} (mem : r ∈ evict q excess) : r ∈ q := by
  simp only [evict] at mem
  split at mem
  · exact (mem_of_mem_removeChosen.mp (mem_of_mem_removeChosen.mp mem).1).1
  · exact (mem_of_mem_removeChosen.mp mem).1

theorem evict_spares_deletions {excess : Nat} (mem : r ∈ q)
    (deletion : r.entityType.isDeletion = true) : r ∈ evict q excess := by
  simp only [evict]
  split
  · refine spared_of_not_chosen (spared_of_not_chosen mem ?_) ?_ <;> simp [deletion]
  · exact spared_of_not_chosen mem (by simp [deletion])

@[simp] theorem next_evict (q : SyncQueue) (excess : Nat) : (evict q excess).next = q.next := by
  simp only [evict]
  split <;> rfl

theorem makeRoom_subset (mem : r ∈ makeRoom q) : r ∈ q := by
  unfold makeRoom at mem
  split at mem
  · exact evict_subset mem
  · exact mem

/-- Overflow never takes a deletion that waits for the platform. -/
theorem makeRoom_spares_deletions (mem : r ∈ q) (deletion : r.entityType.isDeletion = true) :
    r ∈ makeRoom q := by
  unfold makeRoom
  split
  · exact evict_spares_deletions mem deletion
  · exact mem

@[simp] theorem next_makeRoom (q : SyncQueue) : (makeRoom q).next = q.next := by
  unfold makeRoom
  split
  · exact next_evict q _
  · rfl

theorem mem_enqueue {now : Nat} {e : SyncQueueEntry} :
    r ∈ (enqueue q now e).1 ↔ r ∈ makeRoom q ∨ r = (entryItem now e).make q.next := by
  simp [enqueue]

@[simp] theorem next_enqueue (q : SyncQueue) (now : Nat) (e : SyncQueueEntry) :
    (enqueue q now e).1.next = q.next + 1 := by
  simp [enqueue]

theorem enforceQueueLimit_subset (mem : r ∈ enforceQueueLimit q) : r ∈ q := by
  unfold enforceQueueLimit at mem
  split at mem
  · exact mem
  · exact (mem_of_mem_removeChosen (q := q).mp mem).1

theorem enforceQueueLimit_spares_deletions (mem : r ∈ q)
    (deletion : r.entityType.isDeletion = true) : r ∈ enforceQueueLimit q := by
  unfold enforceQueueLimit
  split
  · exact mem
  · exact spared_of_not_chosen mem (by simp [deletion])

@[simp] theorem next_enforceQueueLimit (q : SyncQueue) : (enforceQueueLimit q).next = q.next := by
  unfold enforceQueueLimit
  split <;> rfl

theorem mem_purgeFailed :
    r ∈ purgeFailed q ↔ r ∈ q ∧ (r.Retryable ∨ r.entityType.isDeletion = true) := by
  simp only [purgeFailed, AutoTable.mem_keep, SyncQueueItem.Retryable]
  apply and_congr_right
  intro _
  cases r.entityType.isDeletion <;> simp

@[simp] theorem next_purgeFailed (q : SyncQueue) : (purgeFailed q).next = q.next := rfl

theorem mem_remove {ids : List Nat} : r ∈ remove q ids ↔ r ∈ q ∧ r.id ∉ ids :=
  AutoTable.mem_removeKeys

@[simp] theorem next_remove (q : SyncQueue) (ids : List Nat) : (remove q ids).next = q.next := rfl

/-- What identifies a row and what it says stay; a failure only counts and postpones. -/
structure SameRequest (a b : SyncQueueItem) : Prop where
  id : a.id = b.id
  entityType : a.entityType = b.entityType
  entityId : a.entityId = b.entityId
  payload : a.payload = b.payload
  priority : a.priority = b.priority
  maxAttempts : a.maxAttempts = b.maxAttempts
  createdAt : a.createdAt = b.createdAt

theorem SameRequest.rfl : SameRequest r r :=
  ⟨.refl _, .refl _, .refl _, .refl _, .refl _, .refl _, .refl _⟩

theorem sameRequest_failedOnce (now delay : Nat) (message : String) (r : SyncQueueItem) :
    SameRequest (failedOnce now delay message r) r := ⟨rfl, rfl, rfl, rfl, rfl, rfl, rfl⟩

/-- The one change a recorded failure makes, or none when the call fails. -/
theorem noteFailure_eq (q : SyncQueue) (now id : Nat) (message : String) :
    ∃ e : RowEdit SyncQueueItem.id, noteFailure q now id message = q.update e ∧
      ∀ r, e.edit r = r ∨
        (r.id = id ∧ ∃ delay, e.edit r = failedOnce now delay message r) := by
  let same : RowEdit SyncQueueItem.id := ⟨fun r => r, fun _ => rfl⟩
  have nothing : q = q.update same := by
    cases q
    simp [AutoTable.update, same]
  cases found : q.find id with
  | none =>
    refine ⟨same, ?_, fun r => Or.inl rfl⟩
    simpa only [noteFailure, recordFailure, found] using nothing
  | some item =>
    cases late : retryDelay item.attempts with
    | none =>
      refine ⟨same, ?_, fun r => Or.inl rfl⟩
      simpa only [noteFailure, recordFailure, found, late] using nothing
    | some delay =>
      refine ⟨failureEdit id now delay message, ?_, fun r => ?_⟩
      · simp only [noteFailure, recordFailure, found, late]
      · by_cases same : r.id = id
        · exact Or.inr ⟨same, delay, by simp [failureEdit, same]⟩
        · exact Or.inl (by simp [failureEdit, same])

/-- Below 64 attempts a failure is always counted. -/
theorem noteFailure_counts (now : Nat) (message : String) (mem : r ∈ q)
    (few : r.attempts + 1 < 64) : ∃ delay,
      noteFailure q now r.id message = q.update (failureEdit r.id now delay message) := by
  refine ⟨min (2 ^ (r.attempts + 1)) 3600, ?_⟩
  have found : q.find r.id = some r := AutoTable.find_eq_some_iff.mpr ⟨mem, rfl⟩
  have delay : retryDelay r.attempts = some (min (2 ^ (r.attempts + 1)) 3600) := if_pos few
  simp only [noteFailure, recordFailure, found, delay]

@[simp] theorem next_noteFailure (q : SyncQueue) (now id : Nat) (message : String) :
    (noteFailure q now id message).next = q.next := by
  obtain ⟨e, same, _⟩ := noteFailure_eq q now id message
  rw [same]
  rfl

theorem noteFailure_origin {now id : Nat} {message : String}
    (mem : r ∈ noteFailure q now id message) :
    ∃ old ∈ q, SameRequest r old ∧ old.attempts ≤ r.attempts ∧ (old.id ≠ id → r = old) := by
  obtain ⟨e, same, edits⟩ := noteFailure_eq q now id message
  rw [same, AutoTable.mem_update] at mem
  obtain ⟨old, member, rfl⟩ := mem
  refine ⟨old, member, ?_⟩
  rcases edits old with kept | ⟨hit, delay, failed⟩
  · rw [kept]
    exact ⟨SameRequest.rfl, le_refl _, fun _ => rfl⟩
  · rw [failed]
    exact ⟨sameRequest_failedOnce _ _ _ _, Nat.le_succ _, fun other => absurd hit other⟩

theorem noteFailure_survivor (now id : Nat) (message : String) (mem : r ∈ q) :
    ∃ new ∈ noteFailure q now id message, SameRequest new r ∧
      new.attempts ≤ r.attempts + 1 ∧ (r.id ≠ id → new = r) := by
  obtain ⟨e, same, edits⟩ := noteFailure_eq q now id message
  refine ⟨e.edit r, ?_, ?_⟩
  · rw [same, AutoTable.mem_update]
    exact ⟨r, mem, rfl⟩
  · rcases edits r with kept | ⟨hit, delay, failed⟩
    · rw [kept]
      exact ⟨SameRequest.rfl, Nat.le_succ _, fun _ => rfl⟩
    · rw [failed]
      exact ⟨sameRequest_failedOnce _ _ _ _, le_refl _, fun other => absurd hit other⟩

/-! How the queue changes over time: rows keep what they say, and ids are not handed out twice. -/

structure Evolves (q q' : SyncQueue) : Prop where
  next_le : q.next ≤ q'.next
  origin : ∀ r ∈ q', (∃ old ∈ q, SameRequest r old ∧ old.attempts ≤ r.attempts) ∨ q.next ≤ r.id

theorem SameRequest.trans {a b c : SyncQueueItem} (ab : SameRequest a b) (bc : SameRequest b c) :
    SameRequest a c :=
  ⟨ab.id.trans bc.id, ab.entityType.trans bc.entityType, ab.entityId.trans bc.entityId,
    ab.payload.trans bc.payload, ab.priority.trans bc.priority,
    ab.maxAttempts.trans bc.maxAttempts, ab.createdAt.trans bc.createdAt⟩

theorem evolves_refl (q : SyncQueue) : Evolves q q :=
  ⟨le_refl _, fun r mem => Or.inl ⟨r, mem, SameRequest.rfl, le_refl _⟩⟩

theorem evolves_trans {a b c : SyncQueue} (ab : Evolves a b) (bc : Evolves b c) : Evolves a c := by
  refine ⟨ab.next_le.trans bc.next_le, fun r mem => ?_⟩
  rcases bc.origin r mem with ⟨mid, member, same, fewer⟩ | fresh
  · rcases ab.origin mid member with ⟨old, first, older, fewest⟩ | fresh
    · exact Or.inl ⟨old, first, same.trans older, fewest.trans fewer⟩
    · exact Or.inr (by rw [same.id]; exact fresh)
  · exact Or.inr (ab.next_le.trans fresh)

theorem evolves_of_subset {q q' : SyncQueue} (next : q'.next = q.next)
    (subset : ∀ r ∈ q', r ∈ q) : Evolves q q' :=
  ⟨next.ge, fun r mem => Or.inl ⟨r, subset r mem, SameRequest.rfl, le_refl _⟩⟩

theorem evolves_insert (q : SyncQueue) (m : RowMaker SyncQueueItem.id) :
    Evolves q (q.insert m) := by
  refine ⟨Nat.le_succ _, fun r mem => ?_⟩
  rcases AutoTable.mem_insert.mp mem with old | rfl
  · exact Or.inl ⟨r, old, SameRequest.rfl, le_refl _⟩
  · exact Or.inr (m.keyed _).ge

theorem evolves_enqueue (q : SyncQueue) (now : Nat) (e : SyncQueueEntry) :
    Evolves q (enqueue q now e).1 :=
  evolves_trans (evolves_of_subset (next_makeRoom q) (fun _ mem => makeRoom_subset mem))
    (evolves_insert _ _)

theorem evolves_noteFailure (q : SyncQueue) (now id : Nat) (message : String) :
    Evolves q (noteFailure q now id message) := by
  refine ⟨(next_noteFailure q now id message).ge, fun r mem => ?_⟩
  obtain ⟨old, member, same, fewer, _⟩ := noteFailure_origin mem
  exact Or.inl ⟨old, member, same, fewer⟩

/-- A row that was there under an id is what the row under that id still says. -/
theorem evolves_same_id {q q' : SyncQueue} (evolves : Evolves q q') {old new : SyncQueueItem}
    (before : old.id < q.next)
    (known : ∀ r ∈ q, r.id = old.id → r.entityType = old.entityType ∧ r.entityId = old.entityId)
    (after : new ∈ q') (id : new.id = old.id) :
    new.entityType = old.entityType ∧ new.entityId = old.entityId := by
  rcases evolves.origin new after with ⟨r, mem, same, _⟩ | fresh
  · obtain ⟨type, named⟩ := known r mem (same.id.symm.trans id)
    exact ⟨same.entityType.trans type, same.entityId.trans named⟩
  · omega

theorem evolves_same_request {q q' : SyncQueue} (evolves : Evolves q q')
    {old new : SyncQueueItem} (before : old.id < q.next)
    (known : ∀ r ∈ q, r.id = old.id → SameRequest r old) (after : new ∈ q')
    (id : new.id = old.id) : SameRequest new old := by
  rcases evolves.origin new after with ⟨r, mem, same, _⟩ | fresh
  · exact same.trans (known r mem (same.id.symm.trans id))
  · omega

/-- Deletions that wait for the platform are still there. -/
def SparesDeletions (q q' : SyncQueue) : Prop :=
  ∀ r ∈ q, r.entityType.isDeletion = true → ∃ new ∈ q', SameRequest new r

theorem sparesDeletions_refl (q : SyncQueue) : SparesDeletions q q :=
  fun r mem _ => ⟨r, mem, SameRequest.rfl⟩

theorem sparesDeletions_trans {a b c : SyncQueue} (ab : SparesDeletions a b)
    (bc : SparesDeletions b c) : SparesDeletions a c := by
  intro r mem deletion
  obtain ⟨mid, member, same⟩ := ab r mem deletion
  obtain ⟨new, last, newer⟩ := bc mid member (by rw [same.entityType]; exact deletion)
  exact ⟨new, last, newer.trans same⟩

theorem sparesDeletions_enqueue (q : SyncQueue) (now : Nat) (e : SyncQueueEntry) :
    SparesDeletions q (enqueue q now e).1 :=
  fun r mem deletion =>
    ⟨r, mem_enqueue.mpr (Or.inl (makeRoom_spares_deletions mem deletion)), SameRequest.rfl⟩

theorem sparesDeletions_enforceQueueLimit (q : SyncQueue) :
    SparesDeletions q (enforceQueueLimit q) :=
  fun r mem deletion => ⟨r, enforceQueueLimit_spares_deletions mem deletion, SameRequest.rfl⟩

theorem sparesDeletions_purgeFailed (q : SyncQueue) : SparesDeletions q (purgeFailed q) :=
  fun r mem deletion => ⟨r, mem_purgeFailed.mpr ⟨mem, Or.inr deletion⟩, SameRequest.rfl⟩

theorem sparesDeletions_noteFailure (q : SyncQueue) (now id : Nat) (message : String) :
    SparesDeletions q (noteFailure q now id message) := by
  intro r mem _
  obtain ⟨new, member, same, _⟩ := noteFailure_survivor now id message mem
  exact ⟨new, member, same⟩

/-! What a row is still good for: it is returned once those before it have been dealt with. -/

/-- A batch is read and its items leave the queue. -/
def drainRound (entity : SyncEntityType) (limit now : Nat) (q : SyncQueue) : SyncQueue :=
  remove q ((getPendingFor q now entity limit).map (·.id))

def ReturnedLater (q : SyncQueue) (entity : SyncEntityType) (limit : Nat)
    (r : SyncQueueItem) : Prop :=
  ∃ since, ∀ now, since ≤ now →
    ∃ rounds, r ∈ getPendingFor ((drainRound entity limit now)^[rounds] q) now entity limit

def eligible (q : SyncQueue) (now : Nat) (entity : SyncEntityType) : List SyncQueueItem :=
  q.rows.filter (fun r => decide (r.Retryable ∧ r.nextRetryAt ≤ now ∧ r.entityType = entity))

theorem mem_eligible {now : Nat} {entity : SyncEntityType} :
    r ∈ eligible q now entity ↔
      r ∈ q ∧ r.Retryable ∧ r.nextRetryAt ≤ now ∧ r.entityType = entity := by
  simp [eligible]

theorem mem_drainRound {entity : SyncEntityType} {limit now : Nat} :
    r ∈ drainRound entity limit now q ↔ r ∈ q ∧ r ∉ getPendingFor q now entity limit := by
  apply AutoTable.mem_removeRows
  intro x mem
  exact (mem_getPendingFor mem).1

theorem eligible_drainRound_lt {entity : SyncEntityType} {limit now : Nat} (room : 0 < limit)
    (mem : r ∈ eligible q now entity) :
    (eligible (drainRound entity limit now q) now entity).length <
      (eligible q now entity).length := by
  have nonempty : getPendingFor q now entity limit ≠ [] := by
    intro none
    have length := length_firstBy limit mostUrgentFirst (eligible q now entity)
    have some := List.length_pos_of_mem mem
    change (getPendingFor q now entity limit).length = _ at length
    rw [none, List.length_nil] at length
    omega
  obtain ⟨first, taken⟩ := List.exists_mem_of_ne_nil _ nonempty
  have member : first ∈ q.rows := (mem_getPendingFor taken).1
  have sublist : (eligible (drainRound entity limit now q) now entity).Sublist
      (eligible q now entity) := List.filter_sublist.filter _
  refine lt_of_le_of_ne sublist.length_le fun same => ?_
  have equal := sublist.eq_of_length same
  have still : first ∈ eligible (drainRound entity limit now q) now entity := by
    rw [equal, mem_eligible]
    exact mem_getPendingFor taken
  exact (mem_drainRound.mp (mem_eligible.mp still).1).2 taken

/-- Nothing but its attempts keeps a queued row from being returned: with the rows before it
    accepted, its turn comes at any time from its retry time on. -/
theorem returned_later {entity : SyncEntityType} {limit : Nat} (room : 0 < limit)
    (mem : r ∈ q) (retryable : r.Retryable) (type : r.entityType = entity) :
    ReturnedLater q entity limit r := by
  refine ⟨r.nextRetryAt, fun now due => ?_⟩
  suffices later : ∀ n q, (eligible q now entity).length ≤ n → r ∈ q →
      ∃ rounds, r ∈ getPendingFor ((drainRound entity limit now)^[rounds] q) now entity limit from
    later _ q (le_refl _) mem
  intro n
  induction n with
  | zero =>
    intro q few mem
    have := List.length_pos_of_mem (mem_eligible.mpr ⟨mem, retryable, due, type⟩)
    omega
  | succ n ih =>
    intro q few mem
    by_cases turn : r ∈ getPendingFor q now entity limit
    · exact ⟨0, turn⟩
    · have fewer := eligible_drainRound_lt room (mem_eligible.mpr ⟨mem, retryable, due, type⟩)
      obtain ⟨rounds, later⟩ := ih (drainRound entity limit now q) (by omega)
        (mem_drainRound.mpr ⟨mem, turn⟩)
      exact ⟨rounds + 1, later⟩

theorem retryable_of_returnedLater {entity : SyncEntityType} {limit : Nat}
    (returned : ReturnedLater q entity limit r) : r.Retryable := by
  obtain ⟨since, later⟩ := returned
  obtain ⟨rounds, mem⟩ := later since (le_refl _)
  exact (mem_getPendingFor mem).2.1

end SentinelAgent.Storage
