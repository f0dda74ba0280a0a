import SentinelAgent.Storage.SyncQueue

/-!
The local GRC records and their place in the queue. The six tables differ in their columns,
which the platform and the interface read, and not in what synchronisation does with them:
a record here is its content and its `synced` column, and one definition serves the six.
A table is read by its primary key.
-/
namespace SentinelAgent.Storage
open AutoTables

inductive GrcKind where
  | playbook | detectionRule | risk | asset | alertRule | webhook
  deriving DecidableEq, Repr

namespace GrcKind

def entity : GrcKind → SyncEntityType
  | playbook => .playbook
  | detectionRule => .detectionRule
  | risk => .risk
  | asset => .asset
  | alertRule => .alertRule
  | webhook => .webhook

/-- Assets have no deletion: `asset_delete`, which their reconciliation looks for, is a type
    no row ever has. -/
def tombstone : GrcKind → Option SyncEntityType
  | playbook => some .playbookDelete
  | detectionRule => some .detectionRuleDelete
  | risk => some .riskDelete
  | asset => none
  | alertRule => some .alertRuleDelete
  | webhook => some .webhookDelete

theorem entity_injective : Function.Injective entity := by
  intro a b same
  cases a <;> cases b <;> first | rfl | cases same

theorem tombstone_isDeletion {kind : GrcKind} {t : SyncEntityType}
    (deletion : kind.tombstone = some t) : t.isDeletion = true := by
  cases kind <;> cases deletion <;> decide

theorem entity_not_isDeletion (kind : GrcKind) : kind.entity.isDeletion = false := by
  cases kind <;> decide

theorem tombstone_ne_entity {kind other : GrcKind} {t : SyncEntityType}
    (deletion : kind.tombstone = some t) : other.entity ≠ t := by
  rintro rfl
  have := tombstone_isDeletion deletion
  rw [entity_not_isDeletion] at this
  cases this

theorem tombstone_kind_unique {kind other : GrcKind} {t : SyncEntityType}
    (a : kind.tombstone = some t) (b : other.tombstone = some t) : kind = other := by
  cases kind <;> cases other <;> cases a <;> first | rfl | cases b

end GrcKind

structure GrcRecord (γ : Type) where
  content : γ
  synced : Bool
  deriving DecidableEq, Repr

abbrev GrcTables (γ : Type) := GrcKind → String → Option (GrcRecord γ)

structure Database (γ : Type) where
  grc : GrcTables γ
  queue : SyncQueue

variable {γ : Type}

def setRecord (tables : GrcTables γ) (kind : GrcKind) (id : String)
    (record : Option (GrcRecord γ)) : GrcTables γ :=
  fun k i => if k = kind ∧ i = id then record else tables k i

@[simp] theorem setRecord_self (tables : GrcTables γ) (kind : GrcKind) (id : String)
    (record : Option (GrcRecord γ)) : setRecord tables kind id record kind id = record := by
  simp [setRecord]

theorem setRecord_other {tables : GrcTables γ} {kind k : GrcKind} {id i : String}
    {record : Option (GrcRecord γ)} (other : ¬ (k = kind ∧ i = id)) :
    setRecord tables kind id record k i = tables k i := by
  simp [setRecord, other]

/-- `EXISTS (SELECT 1 FROM sync_queue WHERE entity_type = ? AND entity_id = ?)`. -/
def queued (q : SyncQueue) (t : SyncEntityType) (id : String) : Bool :=
  q.rows.any (fun r => decide (r.entityType = t ∧ r.entityId = id))

theorem queued_iff {q : SyncQueue} {t : SyncEntityType} {id : String} :
    queued q t id = true ↔ ∃ r ∈ q, r.entityType = t ∧ r.entityId = id := by
  simp [queued]

def uploadQueued (db : Database γ) (kind : GrcKind) (id : String) : Bool :=
  queued db.queue kind.entity id

def tombstoneQueued (db : Database γ) (kind : GrcKind) (id : String) : Bool :=
  match kind.tombstone with
  | none => false
  | some t => queued db.queue t id

/-- `INSERT OR REPLACE`. -/
def upsert (db : Database γ) (kind : GrcKind) (id : String) (content : γ) (synced : Bool) :
    Database γ :=
  { db with grc := setRecord db.grc kind id (some { content, synced }) }

/-! Reconciliation with a list of the platform, one transaction. -/

/-- `DELETE … WHERE synced = 1 AND id NOT IN (…) AND NOT EXISTS (…)`. -/
def removeAbsent (db : Database γ) (kind : GrcKind) (ids : List String) : Database γ :=
  { db with
    grc := fun k i =>
      match db.grc k i with
      | none => none
      | some r =>
        if k = kind ∧ r.synced ∧ i ∉ ids ∧ ¬ uploadQueued db kind i then none else some r }

/-- `INSERT … ON CONFLICT(id) DO UPDATE … WHERE synced = 1 AND NOT EXISTS (…)`, not reached
    for a record whose deletion is queued. -/
def applyRemote (kind : GrcKind) (db : Database γ) (item : String × γ) : Database γ :=
  if tombstoneQueued db kind item.1 then db
  else
    match db.grc kind item.1 with
    | none => upsert db kind item.1 item.2 true
    | some r =>
      if r.synced ∧ ¬ uploadQueued db kind item.1 then upsert db kind item.1 item.2 true else db

def reconcileRemote (db : Database γ) (kind : GrcKind) (items : List (String × γ))
    (complete : Bool) : Database γ :=
  items.foldl (applyRemote kind)
    (if complete then removeAbsent db kind (items.map Prod.fst) else db)

/-- Playbooks and detection rules are always listed whole. -/
def reconcileSnapshot (db : Database γ) (kind : GrcKind) (items : List (String × γ)) :
    Database γ :=
  reconcileRemote db kind items true

/-! Deletion, its withdrawal, and the acknowledgement of uploads. -/

def tombstoneItem (now : Nat) (t : SyncEntityType) (id : String) : RowMaker SyncQueueItem.id :=
  newItem now t id "\x7b\x7d" 10 i32Max

/-- The rows `delete_grc` drops: the uploads of the record and an earlier deletion of it. -/
def dropRecordRows (q : SyncQueue) (types : List SyncEntityType) (id : String) : SyncQueue :=
  q.keep (fun r => !decide (r.entityId = id ∧ r.entityType ∈ types))

def deleteGrc (db : Database γ) (now : Nat) (kind : GrcKind) (id : String) :
    Except StorageError (Database γ) :=
  match kind.tombstone with
  | none => .error (.query "Not a deletable GRC entity")
  | some t => .ok
    { grc := setRecord db.grc kind id none
      queue := (dropRecordRows db.queue [kind.entity, t] id).insert (tombstoneItem now t id) }

def cancelGrcDelete (db : Database γ) (kind : GrcKind) (id : String) :
    Except StorageError (Database γ) :=
  match kind.tombstone with
  | none => .error (.query "Not a deletable GRC entity")
  | some t => .ok { db with queue := dropRecordRows db.queue [t] id }

/-- `UPDATE … SET synced = 1 WHERE id = ? AND NOT EXISTS (…)`. -/
def markSynced (db : Database γ) (kind : GrcKind) (id : String) : Database γ :=
  if uploadQueued db kind id then db
  else
    let marked := (db.grc kind id).map (fun r => { r with synced := true })
    { db with grc := setRecord db.grc kind id marked }

def acknowledgeOne (kind : GrcKind) (db : Database γ) (id : Nat) : Database γ :=
  match db.queue.find id with
  | none => db
  | some item =>
    if item.entityType = kind.entity then
      markSynced { db with queue := remove db.queue [id] } kind item.entityId
    else db

def acknowledgeGrc (db : Database γ) (ids : List Nat) (kind : GrcKind) : Database γ :=
  ids.foldl (acknowledgeOne kind) db

/-! What reconciliation can do to one record. -/

variable {db : Database γ} {kind k : GrcKind} {i : String}

@[simp] theorem queue_removeAbsent (db : Database γ) (kind : GrcKind) (ids : List String) :
    (removeAbsent db kind ids).queue = db.queue := rfl

@[simp] theorem queue_applyRemote (kind : GrcKind) (db : Database γ) (item : String × γ) :
    (applyRemote kind db item).queue = db.queue := by
  unfold applyRemote
  split
  · rfl
  · split
    · rfl
    · split <;> rfl

@[simp] theorem queue_foldl_applyRemote (kind : GrcKind) (items : List (String × γ)) :
    ∀ db : Database γ, (items.foldl (applyRemote kind) db).queue = db.queue := by
  induction items with
  | nil => intro db; rfl
  | cons item items ih => intro db; rw [List.foldl_cons, ih, queue_applyRemote]

@[simp] theorem queue_reconcileRemote (db : Database γ) (kind : GrcKind)
    (items : List (String × γ)) (complete : Bool) :
    (reconcileRemote db kind items complete).queue = db.queue := by
  cases complete <;> simp [reconcileRemote]

/-- A record the platform's value may take the place of. -/
def Open (db : Database γ) (kind : GrcKind) (i : String) : Prop :=
  db.grc kind i = none ∨
    (∃ r, db.grc kind i = some r ∧ r.synced = true) ∧ uploadQueued db kind i = false

theorem removeAbsent_record (db : Database γ) (kind k : GrcKind) (i : String)
    (ids : List String) :
    (removeAbsent db kind ids).grc k i = db.grc k i ∨
      k = kind ∧ Open db kind i ∧ i ∉ ids ∧ (removeAbsent db kind ids).grc k i = none := by
  simp only [removeAbsent]
  cases before : db.grc k i with
  | none => exact Or.inl rfl
  | some r =>
    by_cases gone : k = kind ∧ r.synced ∧ i ∉ ids ∧ ¬ uploadQueued db kind i
    · obtain ⟨rfl, synced, absent, free⟩ := gone
      refine Or.inr ⟨rfl, Or.inr ⟨⟨r, before, synced⟩, by simpa using free⟩, absent, ?_⟩
      simp [synced, absent, free]
    · exact Or.inl (by simp only [gone, if_false])

theorem applyRemote_record (db : Database γ) (kind k : GrcKind) (i : String)
    (item : String × γ) :
    (applyRemote kind db item).grc k i = db.grc k i ∨
      k = kind ∧ i = item.1 ∧ Open db kind i ∧ tombstoneQueued db kind i = false ∧
        (applyRemote kind db item).grc k i = some ⟨item.2, true⟩ := by
  by_cases same : k = kind ∧ i = item.1
  · obtain ⟨rfl, rfl⟩ := same
    unfold applyRemote
    split
    · exact Or.inl rfl
    · rename_i free
      have free : tombstoneQueued db k item.1 = false := by simpa using free
      split
      · rename_i absent
        exact Or.inr ⟨rfl, rfl, Or.inl absent, free, by simp [upsert]⟩
      · rename_i r before
        split
        · rename_i dirty
          exact Or.inr ⟨rfl, rfl, Or.inr ⟨⟨r, before, dirty.1⟩, by simpa using dirty.2⟩, free,
            by simp [upsert]⟩
        · exact Or.inl rfl
  · left
    unfold applyRemote
    split
    · rfl
    · split
      · exact setRecord_other same
      · split
        · exact setRecord_other same
        · rfl

theorem open_of_unchanged {before after : Database γ} (queue : after.queue = before.queue)
    (same : after.grc kind i = before.grc kind i) (free : Open after kind i) :
    Open before kind i := by
  simpa [Open, uploadQueued, queue, same] using free

/-- One record after the items have been applied: as it was, or the platform's value in a
    place that was free for it. -/
theorem foldl_applyRemote_record (kind k : GrcKind) (i : String) (items : List (String × γ)) :
    ∀ db : Database γ, (items.foldl (applyRemote kind) db).grc k i = db.grc k i ∨
      k = kind ∧ Open db kind i ∧ tombstoneQueued db kind i = false ∧
        ∃ c, (i, c) ∈ items ∧ (items.foldl (applyRemote kind) db).grc k i = some ⟨c, true⟩ := by
  induction items with
  | nil => intro db; exact Or.inl rfl
  | cons item items ih =>
    intro db
    rw [List.foldl_cons]
    have queue := queue_applyRemote kind db item
    have tombstones : tombstoneQueued (applyRemote kind db item) kind i =
        tombstoneQueued db kind i := by simp [tombstoneQueued]
    rcases applyRemote_record db kind k i item with
      same | ⟨rfl, rfl, free, alive, written⟩
    · rcases ih (applyRemote kind db item) with rest | ⟨rfl, free, alive, c, mem, written⟩
      · exact Or.inl (rest.trans same)
      · exact Or.inr ⟨rfl, open_of_unchanged queue same free, by rwa [← tombstones], c,
          List.mem_cons_of_mem item mem, written⟩
    · rcases ih (applyRemote k db item) with rest | ⟨_, _, _, c, mem, later⟩
      · exact Or.inr ⟨rfl, free, alive, item.2, List.mem_cons_self, rest.trans written⟩
      · exact Or.inr ⟨rfl, free, alive, c, List.mem_cons_of_mem item mem, later⟩

/-- All that a reconciliation can do to a record. -/
theorem reconcileRemote_record (db : Database γ) (kind k : GrcKind) (i : String)
    (items : List (String × γ)) (complete : Bool) :
    (reconcileRemote db kind items complete).grc k i = db.grc k i ∨
      k = kind ∧ Open db kind i ∧
        ((complete = true ∧ i ∉ items.map Prod.fst ∧
            (reconcileRemote db kind items complete).grc k i = none) ∨
          (tombstoneQueued db kind i = false ∧ ∃ c, (i, c) ∈ items ∧
            (reconcileRemote db kind items complete).grc k i = some ⟨c, true⟩)) := by
  unfold reconcileRemote
  cases complete with
  | false =>
    rcases foldl_applyRemote_record kind k i items db with
      same | ⟨rfl, free, alive, written⟩
    · exact Or.inl same
    · exact Or.inr ⟨rfl, free, Or.inr ⟨alive, written⟩⟩
  | true =>
    simp only [if_true, true_and]
    rcases removeAbsent_record db kind k i (items.map Prod.fst) with same | ⟨rfl, free, absent, gone⟩
    · rcases foldl_applyRemote_record kind k i items
          (removeAbsent db kind (items.map Prod.fst)) with rest | ⟨rfl, free, alive, written⟩
      · exact Or.inl (rest.trans same)
      · exact Or.inr ⟨rfl, open_of_unchanged (queue_removeAbsent db k _) same free,
          Or.inr ⟨alive, written⟩⟩
    · rcases foldl_applyRemote_record k k i items
          (removeAbsent db k (items.map Prod.fst)) with rest | ⟨_, _, _, c, mem, _⟩
      · exact Or.inr ⟨rfl, free, Or.inl ⟨absent, rest.trans gone⟩⟩
      · exact absurd (List.mem_map_of_mem mem) absent

/-! What an acknowledgement does. -/

def acknowledged (q : SyncQueue) (ids : List Nat) (kind : GrcKind) (i : String) : Prop :=
  ∃ r ∈ q, r.id ∈ ids ∧ r.entityType = kind.entity ∧ r.entityId = i

@[simp] theorem queue_markSynced (db : Database γ) (kind : GrcKind) (i : String) :
    (markSynced db kind i).queue = db.queue := by
  unfold markSynced
  split <;> rfl

theorem mem_acknowledgeOne {id : Nat} {r : SyncQueueItem} :
    r ∈ (acknowledgeOne kind db id).queue ↔
      r ∈ db.queue ∧ ¬ (r.id = id ∧ r.entityType = kind.entity) := by
  unfold acknowledgeOne
  cases found : db.queue.find id with
  | none =>
    have absent := AutoTable.find_eq_none_iff.mp found
    exact ⟨fun mem => ⟨mem, fun hit => absent r mem hit.1⟩, fun mem => mem.1⟩
  | some item =>
    obtain ⟨member, rfl⟩ := AutoTable.find_eq_some_iff.mp found
    by_cases type : item.entityType = kind.entity
    · simp only [type, if_true, queue_markSynced, mem_remove, List.mem_singleton]
      apply and_congr_right
      intro mem
      rw [not_iff_not]
      refine ⟨fun hit => ⟨hit, ?_⟩, fun hit => hit.1⟩
      rwa [AutoTable.row_unique mem member hit]
    · simp only [type, if_false]
      refine ⟨fun mem => ⟨mem, fun hit => type ?_⟩, fun mem => mem.1⟩
      rw [← AutoTable.row_unique mem member hit.1]
      exact hit.2

theorem mem_acknowledgeGrc {r : SyncQueueItem} (ids : List Nat) :
    ∀ db : Database γ, r ∈ (acknowledgeGrc db ids kind).queue ↔
      r ∈ db.queue ∧ ¬ (r.id ∈ ids ∧ r.entityType = kind.entity) := by
  induction ids with
  | nil => intro db; simp [acknowledgeGrc]
  | cons id ids ih =>
    intro db
    change r ∈ (acknowledgeGrc (acknowledgeOne kind db id) ids kind).queue ↔ _
    rw [ih, mem_acknowledgeOne, List.mem_cons]
    tauto

@[simp] theorem next_acknowledgeOne (kind : GrcKind) (db : Database γ) (id : Nat) :
    (acknowledgeOne kind db id).queue.next = db.queue.next := by
  unfold acknowledgeOne
  split
  · rfl
  · split
    · rw [queue_markSynced, next_remove]
    · rfl

@[simp] theorem next_acknowledgeGrc (ids : List Nat) (kind : GrcKind) :
    ∀ db : Database γ, (acknowledgeGrc db ids kind).queue.next = db.queue.next := by
  induction ids with
  | nil => intro db; rfl
  | cons id ids ih => intro db; exact (ih _).trans (next_acknowledgeOne kind db id)

def marked (record : Option (GrcRecord γ)) : Option (GrcRecord γ) :=
  record.map (fun r => { r with synced := true })

theorem markSynced_record : (markSynced db kind i).grc kind i =
    if uploadQueued db kind i then db.grc kind i else marked (db.grc kind i) := by
  unfold markSynced
  split
  · rfl
  · simp [marked]

theorem markSynced_other {j : String} (other : ¬ (k = kind ∧ i = j)) :
    (markSynced db kind j).grc k i = db.grc k i := by
  unfold markSynced
  split
  · rfl
  · exact setRecord_other other

/-- One acknowledged id: nothing to acknowledge of this record, or its row is gone and the
    record is marked when that was the last one. -/
theorem acknowledgeOne_record (db : Database γ) (kind : GrcKind) (i : String) (id : Nat) :
    (¬ acknowledged db.queue [id] kind i ∧
        (acknowledgeOne kind db id).grc kind i = db.grc kind i) ∨
      (acknowledged db.queue [id] kind i ∧ (acknowledgeOne kind db id).grc kind i =
        if uploadQueued (acknowledgeOne kind db id) kind i then db.grc kind i
        else marked (db.grc kind i)) := by
  unfold acknowledgeOne acknowledged
  cases found : db.queue.find id with
  | none =>
    have absent := AutoTable.find_eq_none_iff.mp found
    refine Or.inl ⟨?_, rfl⟩
    rintro ⟨r, mem, hit, _⟩
    exact absent r mem (List.mem_singleton.mp hit)
  | some item =>
    obtain ⟨member, rfl⟩ := AutoTable.find_eq_some_iff.mp found
    by_cases type : item.entityType = kind.entity
    · simp only [type, if_true]
      by_cases same : i = item.entityId
      · subst same
        refine Or.inr ⟨⟨item, member, by simp, type, rfl⟩, ?_⟩
        rw [markSynced_record]
        simp only [uploadQueued, queue_markSynced]
        rfl
      · refine Or.inl ⟨?_, markSynced_other (fun both => same both.2)⟩
        rintro ⟨r, mem, hit, _, named⟩
        have equal := AutoTable.row_unique mem member (List.mem_singleton.mp hit)
        exact same (by rw [← named, equal])
    · simp only [type, if_false]
      refine Or.inl ⟨?_, trivial⟩
      rintro ⟨r, mem, hit, kindred, _⟩
      have equal := AutoTable.row_unique mem member (List.mem_singleton.mp hit)
      exact type (by rw [← equal, kindred])

theorem acknowledgeGrc_other_kind (ids : List Nat) (other : k ≠ kind) :
    ∀ db : Database γ, (acknowledgeGrc db ids kind).grc k i = db.grc k i := by
  induction ids with
  | nil => intro db; rfl
  | cons id ids ih =>
    intro db
    refine (ih _).trans ?_
    unfold acknowledgeOne
    split
    · rfl
    · split
      · exact markSynced_other (fun both => other both.1)
      · rfl

theorem uploadQueued_iff : uploadQueued db kind i = true ↔
    ∃ r ∈ db.queue, r.entityType = kind.entity ∧ r.entityId = i := queued_iff

/-- A record is marked exactly when an upload of it was acknowledged and none is left. -/
theorem acknowledgeGrc_record (kind : GrcKind) (i : String) (ids : List Nat) :
    ∀ db : Database γ,
      (¬ acknowledged db.queue ids kind i ∧
          (acknowledgeGrc db ids kind).grc kind i = db.grc kind i) ∨
        (acknowledged db.queue ids kind i ∧ (acknowledgeGrc db ids kind).grc kind i =
          if uploadQueued (acknowledgeGrc db ids kind) kind i then db.grc kind i
          else marked (db.grc kind i)) := by
  induction ids with
  | nil =>
    intro db
    refine Or.inl ⟨?_, rfl⟩
    rintro ⟨r, _, hit, _⟩
    cases hit
  | cons id ids ih =>
    intro db
    let one := acknowledgeOne kind db id
    have left : ∀ r, r ∈ one.queue ↔
        r ∈ db.queue ∧ ¬ (r.id = id ∧ r.entityType = kind.entity) := fun r => mem_acknowledgeOne
    have split : acknowledged db.queue (id :: ids) kind i ↔
        acknowledged db.queue [id] kind i ∨ acknowledged one.queue ids kind i := by
      constructor
      · rintro ⟨r, mem, hit, type, named⟩
        by_cases first : r.id = id
        · exact Or.inl ⟨r, mem, by simp [first], type, named⟩
        · refine Or.inr ⟨r, (left r).mpr ⟨mem, fun both => first both.1⟩, ?_, type, named⟩
          exact (List.mem_cons.mp hit).resolve_left first
      · rintro (⟨r, mem, hit, rest⟩ | ⟨r, mem, hit, rest⟩)
        · exact ⟨r, mem, by simp [List.mem_singleton.mp hit], rest⟩
        · exact ⟨r, ((left r).mp mem).1, List.mem_cons_of_mem id hit, rest⟩
    change (_ ∧ (acknowledgeGrc one ids kind).grc kind i = _) ∨
      (_ ∧ (acknowledgeGrc one ids kind).grc kind i =
        if uploadQueued (acknowledgeGrc one ids kind) kind i then _ else _)
    rw [split]
    rcases acknowledgeOne_record db kind i id with
      ⟨none, same⟩ | ⟨first, written⟩
    · rcases ih one with ⟨noneLater, rest⟩ | ⟨later, rest⟩
      · exact Or.inl ⟨by tauto, rest.trans same⟩
      · refine Or.inr ⟨Or.inr later, rest.trans ?_⟩
        rw [show one.grc kind i = db.grc kind i from same]
    · refine Or.inr ⟨Or.inl first, ?_⟩
      rcases ih one with ⟨noneLater, rest⟩ | ⟨later, rest⟩
      · -- No further row of the record is named, so what is queued now stays queued.
        have stays : uploadQueued (acknowledgeGrc one ids kind) kind i =
            uploadQueued one kind i := by
          rw [Bool.eq_iff_iff, uploadQueued_iff, uploadQueued_iff]
          constructor
          · rintro ⟨r, mem, named⟩
            exact ⟨r, ((mem_acknowledgeGrc ids one).mp mem).1, named⟩
          · rintro ⟨r, mem, type, named⟩
            refine ⟨r, (mem_acknowledgeGrc ids one).mpr ⟨mem, fun hit => ?_⟩, type, named⟩
            exact noneLater ⟨r, mem, hit.1, type, named⟩
        rw [rest, stays]
        exact written
      · -- A further row is named, so the first one was not the last.
        obtain ⟨r, mem, _, type, named⟩ := later
        have busy : uploadQueued one kind i = true := uploadQueued_iff.mpr ⟨r, mem, type, named⟩
        have kept : one.grc kind i = db.grc kind i := by
          have unmarked := written
          rw [show uploadQueued (acknowledgeOne kind db id) kind i = true from busy] at unmarked
          exact unmarked
        rw [rest, kept]

end SentinelAgent.Storage
