import SentinelAgent.Sync.GrcSync

/-!
Which local edits still reach the platform. A record whose `synced` flag is 0 is uploaded only
through a queued row that carries its content and has attempts left. The condition below names
the steps that take the last such row away, and the one command that never queues one. It is a
statement about what can still be sent, not about how soon the platform is reachable.
-/
namespace SentinelAgent.Sync
open AutoTables Storage

variable {γ : Type} {f : RecordFormat γ} {s : State γ} {kind : GrcKind} {id : String} {c : γ}

/-- A queued upload of this record with this content. -/
structure Carries (f : RecordFormat γ) (q : SyncQueue) (kind : GrcKind) (id : String) (c : γ)
    (item : SyncQueueItem) : Prop where
  mem : item ∈ q
  type : item.entityType = kind.entity
  named : item.entityId = id
  reads : f.fromJson item.payload = .ok c
  retryable : item.Retryable

/-- What depends on the queue alone: an unsynced record with no save of it to come. -/
def Waiting (s : State γ) (kind : GrcKind) (id : String) (c : γ) : Prop :=
  Unsynced s kind id c ∧ ¬ SaveCarries s kind id c

/-- No local edit is stranded: what is not synchronised and not being saved is in the queue,
    in a row that will be returned. -/
def NoneStranded (f : RecordFormat γ) (s : State γ) : Prop :=
  ∀ kind id c, Unsynced s kind id c → ¬ SaveUnderWay s kind id →
    ∃ item, item ∈ s.queue ∧ item.entityType = kind.entity ∧ item.entityId = id ∧
      f.fromJson item.payload = .ok c ∧ ReturnedLater s.queue kind.entity batchLimit item

/-- After the removal of other rows each waiting record still has a row that carries it. -/
def LeavesCarried (f : RecordFormat γ) (s : State γ) (kept : SyncQueue) : Prop :=
  ∀ kind id c, Waiting s kind id c → ∃ item ∈ kept, Carries f s.queue kind id c item

/-- The condition, step by step, on the state before. -/
def KeepsCarried (f : RecordFormat γ) (s : State γ) : Action γ → Prop
  | .togglePlaybook id enabled => ∀ r, s.db.grc .playbook id = some r →
      SaveCarries s .playbook id (f.withEnabled enabled r.content) ∨
        ∃ item, Carries f s.queue .playbook id (f.withEnabled enabled r.content) item
  | .endSave _ _ => LeavesCarried f s (makeRoom s.queue)
  | .requeueUnsynced _ _ _ => LeavesCarried f s (makeRoom s.queue)
  | .enqueueOther _ _ => LeavesCarried f s (makeRoom s.queue)
  | .enforceQueueLimit => LeavesCarried f s (Storage.enforceQueueLimit s.queue)
  | .answerUpload _ (.failed _) => ∀ u, s.upload = some u → ∀ kind id c, Waiting s kind id c →
      ∃ item, Carries f s.queue kind id c item ∧
        (item.id ∈ u.batch.map (·.rowId) → item.attempts + 1 < item.maxAttempts)
  | .answerUpload _ (.received count) => ∀ u, s.upload = some u → count = u.batch.length →
      ∀ id c, Waiting s u.kind id c →
        (∃ item, Carries f s.queue u.kind id c item ∧ item.id ∉ u.batch.map (·.rowId)) ∨
          ∀ r ∈ s.queue, r.entityType = u.kind.entity → r.entityId = id →
            r.id ∈ u.batch.map (·.rowId)
  | _ => True

structure Cared (f : RecordFormat γ) (s : State γ) : Prop where
  known : Known s
  distinct : BatchNodup s
  carried : ∀ kind id c, Waiting s kind id c → ∃ item, Carries f s.queue kind id c item

theorem noneStranded_of_cared (cared : Cared f s) : NoneStranded f s := by
  intro kind id c unsynced quiet
  obtain ⟨item, carries⟩ := cared.carried kind id c ⟨unsynced, fun saved => quiet ⟨c, saved⟩⟩
  exact ⟨item, carries.mem, carries.type, carries.named, carries.reads,
    returned_later (by decide) carries.mem carries.retryable carries.type⟩

theorem initial_cared (begins : Initial s) : Cared f s := by
  refine ⟨initial_known begins, ?_, ?_⟩
  · intro u sent
    rw [begins.2.2.2.1] at sent
    cases sent
  · intro kind id c waiting
    have unsynced := waiting.1
    rw [Unsynced, begins.1] at unsynced
    cases unsynced

/-! What carries an edit survives. -/

theorem carries_survivor {q q' : SyncQueue} {item new : SyncQueueItem}
    (carries : Carries f q kind id c item) (mem : new ∈ q') (same : SameRequest new item)
    (retryable : new.Retryable) : Carries f q' kind id c new :=
  ⟨mem, same.entityType.trans carries.type, same.entityId.trans carries.named,
    by rw [same.payload]; exact carries.reads, retryable⟩

theorem carries_kept {q q' : SyncQueue} {item : SyncQueueItem}
    (carries : Carries f q kind id c item) (mem : item ∈ q') : Carries f q' kind id c item :=
  carries_survivor carries mem SameRequest.rfl carries.retryable

theorem carries_enqueue {q : SyncQueue} {item : SyncQueueItem} {now : Nat} {e : SyncQueueEntry}
    (carries : Carries f q kind id c item) (spared : item ∈ makeRoom q) :
    Carries f (Storage.enqueue q now e).1 kind id c item :=
  carries_kept carries (mem_enqueue.mpr (Or.inl spared))

/-- What a save queues carries what it saved. -/
theorem carries_uploadEntry (q : SyncQueue) (now : Nat) :
    Carries f (Storage.enqueue q now (uploadEntry f kind id c)).1 kind id c
      ((entryItem now (uploadEntry f kind id c)).make q.next) :=
  ⟨mem_enqueue.mpr (Or.inr rfl), rfl, rfl, f.roundTrip c, by
    change 0 < min defaultMaxAttempts i32Max
    decide⟩

theorem carries_not_deletion {q : SyncQueue} {item : SyncQueueItem}
    (carries : Carries f q kind id c item) : item.entityType.isDeletion = false := by
  rw [carries.type]
  exact kind.entity_not_isDeletion

theorem carries_not_other {q : SyncQueue} {item : SyncQueueItem}
    (carries : Carries f q kind id c item) : ¬ IsOther item.entityType :=
  fun other => other.2 kind carries.type

/-- A failure recorded for another row. -/
theorem carries_noteFailure {q : SyncQueue} {item : SyncQueueItem} {now rowId : Nat}
    {error : String} (carries : Carries f q kind id c item) (other : item.id ≠ rowId) :
    Carries f (noteFailure q now rowId error) kind id c item := by
  obtain ⟨new, mem, _, _, kept⟩ := noteFailure_survivor now rowId error carries.mem
  rw [kept other] at mem
  exact carries_kept carries mem

theorem waiting_saveRecord {k : GrcKind} {i : String} {content : γ}
    (waiting : Waiting (saveRecord k s i content) kind id c) : Waiting s kind id c := by
  obtain ⟨unsynced, unsaved⟩ := waiting
  by_cases same : kind = k ∧ id = i
  · obtain ⟨rfl, rfl⟩ := same
    have written : some (⟨content, false⟩ : GrcRecord γ) = some ⟨c, false⟩ := by
      rw [← unsynced]
      exact (setRecord_self _ _ _ _).symm
    cases written
    exact absurd (List.mem_append_right _ (List.mem_singleton_self _)) unsaved
  · exact ⟨(setRecord_other same).symm.trans unsynced,
      fun saved => unsaved (List.mem_append_left _ saved)⟩

def Action.WritesRecords (a : Action γ) : Prop := a.WritesTables ∨ a.WritesSaves

/-- Steps that leave the tables and the saves alone wait for the same rows as before. -/
theorem waiting_frame {a : Action γ} (other : ¬ a.WritesRecords)
    (waiting : Waiting (step f s a) kind id c) : Waiting s kind id c := by
  obtain ⟨unsynced, unsaved⟩ := waiting
  rw [Unsynced, grc_frame (fun tables => other (Or.inl tables))] at unsynced
  rw [SaveCarries, saving_frame (fun saves => other (Or.inr saves))] at unsaved
  exact ⟨unsynced, unsaved⟩

/-! The step, one kind of action at a time. -/

theorem carried_togglePlaybook {i : String} {enabled : Bool} (cared : Cared f s)
    (condition : KeepsCarried f s (.togglePlaybook i enabled))
    (waiting : Waiting (togglePlaybook f s i enabled) kind id c) :
    ∃ item, Carries f s.queue kind id c item := by
  unfold togglePlaybook at waiting
  split at waiting
  · exact cared.carried kind id c waiting
  · rename_i r present
    obtain ⟨unsynced, unsaved⟩ := waiting
    by_cases same : kind = .playbook ∧ id = i
    · obtain ⟨rfl, rfl⟩ := same
      have written : some (⟨f.withEnabled enabled r.content, false⟩ : GrcRecord γ) =
          some ⟨c, false⟩ := by
        rw [← unsynced]
        exact (setRecord_self _ _ _ _).symm
      cases written
      rcases condition r present with saved | carries
      · exact absurd saved unsaved
      · exact carries
    · exact cared.carried kind id c ⟨(setRecord_other same).symm.trans unsynced, unsaved⟩

theorem carried_endSave {n now : Nat} (cared : Cared f s)
    (condition : LeavesCarried f s (makeRoom s.queue))
    (waiting : Waiting (endSave f s n now) kind id c) :
    ∃ item, Carries f (endSave f s n now).queue kind id c item := by
  unfold endSave at waiting ⊢
  cases ending : s.saving[n]? with
  | none =>
    rw [ending] at waiting
    exact cared.carried kind id c waiting
  | some save =>
    rw [ending] at waiting
    obtain ⟨unsynced, unsaved⟩ := waiting
    by_cases saved : SaveCarries s kind id c
    · -- The save that carried it is the one that ends here: its row does now.
      obtain ⟨m, bound, at_m⟩ := List.getElem_of_mem saved
      have this_one : m = n := by
        by_contra ne
        exact unsaved (List.mem_eraseIdx_iff_getElem.mpr ⟨m, bound, ne, at_m⟩)
      rw [← this_one, List.getElem?_eq_getElem bound, at_m] at ending
      cases ending
      exact ⟨_, carries_uploadEntry _ _⟩
    · obtain ⟨item, spared, carries⟩ := condition kind id c ⟨unsynced, saved⟩
      exact ⟨item, carries_enqueue carries spared⟩

theorem carried_delete {k : GrcKind} {i : String} {now : Nat} (cared : Cared f s)
    (waiting : Waiting (deleteRecord s k i now) kind id c) :
    ∃ item, Carries f (deleteRecord s k i now).queue kind id c item := by
  unfold deleteRecord deleteGrc at waiting ⊢
  cases deletion : k.tombstone with
  | none =>
    rw [deletion] at waiting
    exact cared.carried kind id c waiting
  | some t =>
    rw [deletion] at waiting
    obtain ⟨unsynced, unsaved⟩ := waiting
    have other : ¬ (kind = k ∧ id = i) := by
      rintro ⟨rfl, rfl⟩
      have gone : (none : Option (GrcRecord γ)) = some ⟨c, false⟩ := by
        rw [← unsynced]
        exact (setRecord_self _ _ _ _).symm
      cases gone
    obtain ⟨item, carries⟩ := cared.carried kind id c
      ⟨(setRecord_other other).symm.trans unsynced, unsaved⟩
    refine ⟨item, carries_kept carries (AutoTable.mem_insert.mpr (Or.inl ?_))⟩
    refine AutoTable.mem_keep.mpr ⟨carries.mem, ?_⟩
    have kept : ¬ (item.entityId = i ∧ item.entityType ∈ [k.entity, t]) := by
      rintro ⟨sameId, sameType⟩
      rw [carries.type] at sameType
      rcases List.mem_cons.mp sameType with entity | last
      · exact other ⟨GrcKind.entity_injective entity, carries.named.symm.trans sameId⟩
      · exact GrcKind.tombstone_ne_entity deletion (List.mem_singleton.mp last)
    rw [decide_eq_false kept]
    rfl

theorem carried_cancelDelete {k : GrcKind} {i : String}
    (carried : ∃ item, Carries f s.queue kind id c item) :
    ∃ item, Carries f (cancelDelete s k i).queue kind id c item := by
  unfold cancelDelete cancelGrcDelete
  cases deletion : k.tombstone with
  | none => exact carried
  | some t =>
    obtain ⟨item, carries⟩ := carried
    refine ⟨item, carries_kept carries (AutoTable.mem_keep.mpr ⟨carries.mem, ?_⟩)⟩
    have kept : ¬ (item.entityId = i ∧ item.entityType ∈ [t]) := by
      rintro ⟨_, sameType⟩
      rw [carries.type] at sameType
      exact GrcKind.tombstone_ne_entity deletion (List.mem_singleton.mp sameType)
    rw [decide_eq_false kept]
    rfl

/-- The rows whose payload cannot be read carry nothing. -/
theorem carried_fetch {k : GrcKind} {now : Nat}
    (carried : ∃ item, Carries f s.queue kind id c item) :
    ∃ item, Carries f (fetch f s k now).queue kind id c item := by
  unfold fetch
  split
  · exact carried
  · obtain ⟨item, carries⟩ := carried
    have distinct := (getPendingFor_ids_nodup s.queue now k.entity batchLimit).sublist
      (unreadable_ids_sublist f _)
    obtain ⟨new, mem, _, _, kept⟩ := noteFailures_survivor now _ s.queue item distinct carries.mem
    have spared : item.id ∉ (unreadable f
        (getPendingFor s.queue now k.entity batchLimit)).map Prod.fst := by
      intro listed
      obtain ⟨r, member, same, e, broken⟩ := mem_unreadable_ids listed
      rw [AutoTable.row_unique (mem_getPendingFor member).1 carries.mem same,
        carries.reads] at broken
      cases broken
    rw [kept spared] at mem
    exact ⟨item, carries_kept carries mem⟩

theorem carried_failed {u : Upload γ} {now : Nat} {error : String} (cared : Cared f s)
    (sent : s.upload = some u)
    (condition : ∃ item, Carries f s.queue kind id c item ∧
      (item.id ∈ u.batch.map (·.rowId) → item.attempts + 1 < item.maxAttempts)) :
    ∃ item, Carries f
      (noteFailures s.queue now (u.batch.map (fun item => (item.rowId, error)))) kind id c item := by
  obtain ⟨item, carries, left⟩ := condition
  have ids : (u.batch.map (fun item => (item.rowId, error))).map Prod.fst =
      u.batch.map (·.rowId) := by simp
  obtain ⟨new, mem, same, few, kept⟩ := noteFailures_survivor now
    (u.batch.map (fun item => (item.rowId, error))) s.queue item
    (by rw [ids]; exact cared.distinct u sent) carries.mem
  rw [ids] at kept
  by_cases hit : item.id ∈ u.batch.map (·.rowId)
  · refine ⟨new, carries_survivor carries mem same ?_⟩
    have more := left hit
    have limit := same.maxAttempts
    change new.attempts < new.maxAttempts
    omega
  · rw [kept hit] at mem
    exact ⟨item, carries_kept carries mem⟩

theorem carried_acknowledged {u : Upload γ} (cared : Cared f s)
    (condition : ∀ id c, Waiting s u.kind id c →
      (∃ item, Carries f s.queue u.kind id c item ∧ item.id ∉ u.batch.map (·.rowId)) ∨
        ∀ r ∈ s.queue, r.entityType = u.kind.entity → r.entityId = id →
          r.id ∈ u.batch.map (·.rowId))
    (unsynced : (acknowledgeGrc s.db (u.batch.map (·.rowId)) u.kind).grc kind id =
      some ⟨c, false⟩) (unsaved : ¬ SaveCarries s kind id c) :
    ∃ item, Carries f (acknowledgeGrc s.db (u.batch.map (·.rowId)) u.kind).queue kind id c item := by
  have kept : ∀ item, Carries f s.queue kind id c item →
      ¬ (item.id ∈ u.batch.map (·.rowId) ∧ item.entityType = u.kind.entity) →
      ∃ item, Carries f (acknowledgeGrc s.db (u.batch.map (·.rowId)) u.kind).queue
        kind id c item :=
    fun item carries spared =>
      ⟨item, carries_kept carries ((mem_acknowledgeGrc _ _).mpr ⟨carries.mem, spared⟩)⟩
  by_cases same : kind = u.kind
  · subst same
    rcases acknowledgeGrc_record u.kind id (u.batch.map (·.rowId)) s.db with
      ⟨none, record⟩ | ⟨some, record⟩
    · obtain ⟨item, carries⟩ := cared.carried u.kind id c ⟨record.symm.trans unsynced, unsaved⟩
      exact kept item carries
        (fun hit => none ⟨item, carries.mem, hit.1, carries.type, carries.named⟩)
    · rw [record] at unsynced
      split at unsynced
      · rename_i busy
        rcases condition id c ⟨unsynced, unsaved⟩ with ⟨item, carries, spared⟩ | all
        · exact kept item carries (fun hit => spared hit.1)
        · obtain ⟨r, mem, type, named⟩ := uploadQueued_iff.mp busy
          obtain ⟨before, stays⟩ := (mem_acknowledgeGrc _ _).mp mem
          exact absurd ⟨all r before type named, type⟩ stays
      · -- The last upload was acknowledged, so the record is marked.
        unfold marked at unsynced
        cases present : s.db.grc u.kind id with
        | none => simp [present] at unsynced
        | some r => simp [present] at unsynced
  · have record := acknowledgeGrc_other_kind (i := id) (u.batch.map (·.rowId)) same s.db
    obtain ⟨item, carries⟩ := cared.carried kind id c ⟨record.symm.trans unsynced, unsaved⟩
    refine kept item carries (fun hit => same ?_)
    exact GrcKind.entity_injective (carries.type.symm.trans hit.2)

theorem unsynced_of_download {k : GrcKind} {items : List (String × γ)} {complete : Bool}
    (unsynced : (reconcileRemote s.db k items complete).grc kind id = some ⟨c, false⟩) :
    Unsynced s kind id c := by
  rcases reconcileRemote_record s.db k kind id items complete
    with same | ⟨_, _, ⟨_, _, gone⟩ | ⟨_, value, _, written⟩⟩
  · exact same.symm.trans unsynced
  · rw [gone] at unsynced
    cases unsynced
  · rw [written] at unsynced
    cases unsynced

/-- The steps that write only the queue. -/
theorem carried_queue_only (a : Action γ) (cared : Cared f s) (condition : KeepsCarried f s a)
    (waiting : Waiting s kind id c) (other : ¬ a.WritesRecords) :
    ∃ item, Carries f (step f s a).queue kind id c item := by
  obtain ⟨item, carries⟩ := cared.carried kind id c waiting
  by_cases writes : a.WritesQueue
  · cases a with
    | cancelDelete k i => exact carried_cancelDelete ⟨item, carries⟩
    | requeueUnsynced k i now =>
      obtain ⟨spare, spared, spareCarries⟩ := condition kind id c waiting
      simp only [step, requeueUnsynced]
      split
      · exact ⟨item, carries⟩
      · split
        · exact ⟨spare, carries_enqueue spareCarries spared⟩
        · exact ⟨item, carries⟩
    | enqueueOther now entry =>
      obtain ⟨spare, spared, spareCarries⟩ := condition kind id c waiting
      simp only [step]
      split
      · exact ⟨spare, carries_enqueue spareCarries spared⟩
      · exact ⟨item, carries⟩
    | otherDelivered rowId =>
      simp only [step]
      split
      · rename_i foreign
        refine ⟨item, carries_kept carries (mem_remove.mpr ⟨carries.mem, fun hit => ?_⟩)⟩
        exact carries_not_other carries
          (ofOther_row foreign carries.mem (List.mem_singleton.mp hit))
      · exact ⟨item, carries⟩
    | otherFailed now rowId error =>
      simp only [step]
      split
      · rename_i foreign
        refine ⟨item, carries_noteFailure carries (fun hit => ?_)⟩
        exact carries_not_other carries (ofOther_row foreign carries.mem hit)
      · exact ⟨item, carries⟩
    | enforceQueueLimit =>
      obtain ⟨spare, spared, spareCarries⟩ := condition kind id c waiting
      exact ⟨spare, carries_kept spareCarries spared⟩
    | purgeFailed =>
      exact ⟨item, carries_kept carries
        (mem_purgeFailed.mpr ⟨carries.mem, Or.inl carries.retryable⟩)⟩
    | fetch k now => exact carried_fetch ⟨item, carries⟩
    | answerDeletion now answer =>
      simp only [step, answerDeletion]
      split
      · exact ⟨item, carries⟩
      · rename_i first rest inFlight
        -- The row under the answered id is a deletion, so it carries no edit.
        have different : item.id ≠ first.id := by
          intro same
          obtain ⟨deletion, _, unique⟩ := cared.known first (by simp [inFlight])
          rw [← (unique item carries.mem same).1, carries_not_deletion carries] at deletion
          cases deletion
        split
        · exact ⟨item, carries_kept carries
            (mem_remove.mpr ⟨carries.mem, fun hit => different (List.mem_singleton.mp hit)⟩)⟩
        · split
          · exact ⟨item, carries⟩
          · exact ⟨item, carries_noteFailure carries different⟩
    | endSave | delete | answerUpload => exact absurd (by simp [Action.WritesRecords,
        Action.WritesTables, Action.WritesSaves]) other
    | _ => exact writes.elim
  · rw [queue_frame writes]
    exact ⟨item, carries⟩

theorem step_carried (a : Action γ) (cared : Cared f s) (condition : KeepsCarried f s a)
    (waiting : Waiting (step f s a) kind id c) :
    ∃ item, Carries f (step f s a).queue kind id c item := by
  by_cases writes : a.WritesRecords
  · cases a with
    | beginSave k i content =>
      simp only [step, save_eq] at waiting ⊢
      exact cared.carried kind id c (waiting_saveRecord waiting)
    | toggleDetectionRule i enabled =>
      simp only [step, toggleDetectionRule] at waiting ⊢
      split at waiting
      · exact cared.carried kind id c waiting
      · exact cared.carried kind id c (waiting_saveRecord waiting)
    | updateAssetLifecycle i lifecycle =>
      simp only [step, updateAssetLifecycle] at waiting ⊢
      split at waiting
      · exact cared.carried kind id c waiting
      · exact cared.carried kind id c (waiting_saveRecord waiting)
    | togglePlaybook i enabled =>
      have same : (togglePlaybook f s i enabled).queue = s.queue := by
        unfold togglePlaybook
        split <;> rfl
      simp only [step, same]
      exact carried_togglePlaybook cared condition waiting
    | endSave n now => exact carried_endSave cared condition waiting
    | delete k i now => exact carried_delete cared waiting
    | answerUpload now answer =>
      simp only [step, answerUpload] at waiting ⊢
      split at waiting
      · exact cared.carried kind id c waiting
      · rename_i u sent
        split at waiting
        · split at waiting
          · rename_i partly
            rw [if_pos partly]
            exact cared.carried kind id c waiting
          · rename_i whole
            rw [if_neg whole]
            exact carried_acknowledged cared (condition u sent (not_not.mp whole))
              waiting.1 waiting.2
        · exact carried_failed cared sent (condition u sent kind id c waiting)
    | download k items complete =>
      simp only [step, reconcile_eq, State.queue, queue_reconcileRemote] at waiting ⊢
      exact cared.carried kind id c ⟨unsynced_of_download waiting.1, waiting.2⟩
    | _ => rcases writes with writes | writes <;> exact writes.elim
  · exact carried_queue_only a cared condition (waiting_frame writes waiting) writes

theorem step_cared (f : RecordFormat γ) (s : State γ) (a : Action γ) (cared : Cared f s)
    (condition : KeepsCarried f s a) : Cared f (step f s a) :=
  ⟨step_known f s a cared.known, step_batchNodup f s a cared.distinct,
    fun _ _ _ waiting => step_carried a cared condition waiting⟩

theorem cared_along {as : List (Action γ)} (cared : Cared f s)
    (along : Runs.Along (step f) (KeepsCarried f) s as) : Cared f (Runs.run (step f) s as) :=
  Runs.run_keeps (step_cared f) cared along

/-- In every run from a new database whose steps meet the condition, every state reached has
    each unsynchronised record either being saved or in the queue, to be returned. -/
theorem none_stranded_along (begins : Initial s) (as : List (Action γ))
    (along : Runs.Along (step f) (KeepsCarried f) s as) :
    NoneStranded f (Runs.run (step f) s as) :=
  noneStranded_of_cared (cared_along (initial_cared begins) along)

def savedOnce : List (Action String) := [.beginSave .playbook "p" "on", .endSave 0 1]

theorem none_stranded_saved_once :
    NoneStranded textFormat (Runs.run (step textFormat) (start (fun _ _ => none)) savedOnce) := by
  refine none_stranded_along (start_initial _) savedOnce ⟨trivial, ?_, trivial⟩
  intro kind id c waiting
  have unsynced := (waiting_saveRecord (s := start (fun _ _ => none)) waiting).1
  cases unsynced

/-- Saved, uploaded and acknowledged, then switched off: nothing is queued for the change. -/
def toggledAfterUpload : List (Action String) :=
  [.beginSave .playbook "p" "on", .endSave 0 1, .fetch .playbook 1, .platformStores,
    .answerUpload 2 (.received 1), .togglePlaybook "p" false]

theorem toggle_strands_playbook : ¬ NoneStranded textFormat
    (Runs.run (step textFormat) (start (fun _ _ => none)) toggledAfterUpload) := by
  intro claimed
  obtain ⟨item, mem, _⟩ := claimed .playbook "p" "off" rfl (by
    rintro ⟨c, saved⟩
    cases saved)
  cases mem

end SentinelAgent.Sync
