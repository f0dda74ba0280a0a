import SentinelAgent.Sync.GrcSync

/-!
A deletion queued for the platform keeps the deleted record away until the platform has
accepted it or a re-creation has withdrawn it. The queue may overflow, be purged or fail in
between. This says nothing about how long the platform takes to accept a deletion.
-/
namespace SentinelAgent.Sync
open AutoTables Storage

variable {γ : Type} {f : RecordFormat γ} {s : State γ} {kind : GrcKind} {id : String}

/-- The two ways a deletion leaves the queue for good. -/
def Withdraws (s : State γ) (kind : GrcKind) (id : String) : Action γ → Prop
  | .cancelDelete k i => k = kind ∧ i = id
  | .answerDeletion _ answer => answer.Accepted ∧
      ∃ item, s.deletions.head? = some item ∧ kind.tombstone = some item.entityType ∧
        item.entityId = id
  | _ => False

/-- Every step but a deletion, its withdrawal and its answer leaves queued deletions alone. -/
theorem step_sparesDeletions (f : RecordFormat γ) (s : State γ) (a : Action γ)
    (notDelete : ∀ kind id now, a ≠ .delete kind id now)
    (notCancel : ∀ kind id, a ≠ .cancelDelete kind id)
    (notAnswer : ∀ now answer, a ≠ .answerDeletion now answer) :
    SparesDeletions s.queue (step f s a).queue := by
  by_cases writes : a.WritesQueue
  · cases a with
    | delete kind id now => exact absurd rfl (notDelete kind id now)
    | cancelDelete kind id => exact absurd rfl (notCancel kind id)
    | answerDeletion now answer => exact absurd rfl (notAnswer now answer)
    | endSave n now =>
      simp only [step, endSave]
      split
      · exact sparesDeletions_refl _
      · exact sparesDeletions_enqueue _ _ _
    | requeueUnsynced kind id now =>
      simp only [step, requeueUnsynced]
      split
      · exact sparesDeletions_refl _
      · split
        · exact sparesDeletions_enqueue _ _ _
        · exact sparesDeletions_refl _
    | enqueueOther now entry =>
      simp only [step]
      split
      · exact sparesDeletions_enqueue _ _ _
      · exact sparesDeletions_refl _
    | otherDelivered rowId =>
      simp only [step]
      split
      · rename_i other
        intro r mem deletion
        refine ⟨r, mem_remove.mpr ⟨mem, fun hit => ?_⟩, SameRequest.rfl⟩
        -- The row under that id is of another sender, and a deletion is not.
        have foreign := ofOther_row other mem (List.mem_singleton.mp hit)
        rw [foreign.1] at deletion
        cases deletion
      · exact sparesDeletions_refl _
    | otherFailed now rowId error =>
      simp only [step]
      split
      · exact sparesDeletions_noteFailure _ _ _ _
      · exact sparesDeletions_refl _
    | enforceQueueLimit => exact sparesDeletions_enforceQueueLimit _
    | purgeFailed => exact sparesDeletions_purgeFailed _
    | fetch kind now =>
      simp only [step, fetch]
      split
      · exact sparesDeletions_refl _
      · exact sparesDeletions_noteFailures _ _ _
    | answerUpload now answer =>
      simp only [step, answerUpload]
      split
      · exact sparesDeletions_refl _
      · split
        · split
          · exact sparesDeletions_refl _
          · intro r mem deletion
            refine ⟨r, (mem_acknowledgeGrc _ _).mpr ⟨mem, fun hit => ?_⟩, SameRequest.rfl⟩
            rw [hit.2, GrcKind.entity_not_isDeletion] at deletion
            cases deletion
        · exact sparesDeletions_noteFailures _ _ _
    | _ => exact writes.elim
  · rw [queue_frame writes]
    exact sparesDeletions_refl _

def TombstonePending (s : State γ) (kind : GrcKind) (id : String) : Prop :=
  tombstoneQueued s.db kind id = true

theorem tombstonePending_iff : TombstonePending s kind id ↔
    ∃ r ∈ s.queue, kind.tombstone = some r.entityType ∧ r.entityId = id := by
  unfold TombstonePending tombstoneQueued
  cases deletion : kind.tombstone with
  | none => simp
  | some t =>
    rw [queued_iff]
    constructor
    · rintro ⟨r, mem, rfl, named⟩
      exact ⟨r, mem, rfl, named⟩
    · rintro ⟨r, mem, type, named⟩
      exact ⟨r, mem, (Option.some.inj type).symm, named⟩

theorem pending_of_spared {s' : State γ} (spared : SparesDeletions s.queue s'.queue)
    (pending : TombstonePending s kind id) : TombstonePending s' kind id := by
  rw [tombstonePending_iff] at pending ⊢
  obtain ⟨r, mem, type, named⟩ := pending
  obtain ⟨new, member, same⟩ := spared r mem (GrcKind.tombstone_isDeletion type)
  exact ⟨new, member, by rw [same.entityType]; exact type, same.entityId.trans named⟩

/-- A second deletion of a record takes the place of the first one. -/
theorem pending_after_delete (other : GrcKind) (i : String) (now : Nat)
    (pending : TombstonePending s kind id) :
    TombstonePending (deleteRecord s other i now) kind id := by
  rw [tombstonePending_iff] at pending ⊢
  obtain ⟨r, mem, type, named⟩ := pending
  unfold deleteRecord deleteGrc
  cases deletion : other.tombstone with
  | none => exact ⟨r, mem, type, named⟩
  | some t =>
    simp only [orKeep, State.queue, AutoTable.mem_insert]
    by_cases dropped : r.entityId = i ∧ r.entityType ∈ [other.entity, t]
    · refine ⟨_, Or.inr rfl, ?_, ?_⟩
      · have sameType : r.entityType = t := by
          rcases List.mem_cons.mp dropped.2 with entity | last
          · exact absurd entity.symm (GrcKind.tombstone_ne_entity type)
          · exact List.mem_singleton.mp last
        rw [sameType] at type
        exact type
      · exact dropped.1.symm.trans named
    · refine ⟨r, Or.inl (AutoTable.mem_keep.mpr ⟨mem, ?_⟩), type, named⟩
      rw [decide_eq_false dropped]
      rfl

theorem pending_until_withdrawn (a : Action γ) (known : Known s)
    (pending : TombstonePending s kind id) (stands : ¬ Withdraws s kind id a) :
    TombstonePending (step f s a) kind id := by
  by_cases delete : ∃ k i now, a = .delete k i now
  · obtain ⟨k, i, now, rfl⟩ := delete
    exact pending_after_delete k i now pending
  by_cases cancel : ∃ k i, a = .cancelDelete k i
  · obtain ⟨k, i, rfl⟩ := cancel
    rw [tombstonePending_iff] at pending ⊢
    obtain ⟨r, mem, type, named⟩ := pending
    simp only [step, cancelDelete, cancelGrcDelete]
    cases deletion : k.tombstone with
    | none => exact ⟨r, mem, type, named⟩
    | some t =>
      refine ⟨r, AutoTable.mem_keep.mpr ⟨mem, ?_⟩, type, named⟩
      -- A row the withdrawal drops is a deletion of the record it names.
      by_contra dropped
      have hit : r.entityId = i ∧ r.entityType = t := by simpa using dropped
      rw [hit.2] at type
      exact stands ⟨GrcKind.tombstone_kind_unique deletion type, hit.1.symm.trans named⟩
  by_cases answered : ∃ now answer, a = .answerDeletion now answer
  · obtain ⟨now, answer, rfl⟩ := answered
    simp only [step, answerDeletion]
    cases inFlight : s.deletions with
    | nil => exact pending
    | cons item rest =>
      simp only
      split
      · rename_i accepted
        rw [tombstonePending_iff] at pending ⊢
        obtain ⟨r, mem, type, named⟩ := pending
        refine ⟨r, mem_remove.mpr ⟨mem, fun hit => ?_⟩, type, named⟩
        obtain ⟨sameType, sameId⟩ := (known item (by simp [inFlight])).2.2 r mem
          (List.mem_singleton.mp hit)
        exact stands ⟨accepted, item, by simp [inFlight], by rw [← sameType]; exact type,
          sameId.symm.trans named⟩
      · split
        · exact pending
        · exact pending_of_spared (sparesDeletions_noteFailure _ _ _ _) pending
  · apply pending_of_spared (step_sparesDeletions f s a ?_ ?_ ?_) pending
    · exact fun k i now same => delete ⟨k, i, now, same⟩
    · exact fun k i same => cancel ⟨k, i, same⟩
    · exact fun now answer same => answered ⟨now, answer, same⟩

theorem download_keeps_absent (k : GrcKind) (items : List (String × γ)) (complete : Bool)
    (pending : TombstonePending s kind id) (absent : s.db.grc kind id = none) :
    (step f s (.download k items complete)).db.grc kind id = none := by
  simp only [step, reconcile_eq]
  rcases reconcileRemote_record s.db k kind id items
    (complete || decide (k = .playbook ∨ k = .detectionRule)) with
    same | ⟨rfl, _, ⟨_, _, gone⟩ | ⟨free, _⟩⟩
  · exact same.trans absent
  · exact gone
  · rw [TombstonePending, free] at pending
    cases pending

/-- A deletion of a record that can be deleted: the record is gone, its uploads are dropped,
    and a deletion waits for the platform. -/
theorem delete_record {t : SyncEntityType} (deletable : kind.tombstone = some t) (now : Nat) :
    (step f s (.delete kind id now)).db.grc kind id = none ∧
      uploadQueued (step f s (.delete kind id now)).db kind id = false ∧
      TombstonePending (step f s (.delete kind id now)) kind id := by
  simp only [step, deleteRecord, deleteGrc, deletable, orKeep]
  refine ⟨setRecord_self _ _ _ _, ?_, ?_⟩
  · rw [Bool.eq_false_iff, Ne, uploadQueued_iff]
    rintro ⟨r, mem, type, named⟩
    rcases AutoTable.mem_insert.mp mem with kept | rfl
    · have := (AutoTable.mem_keep.mp kept).2
      simp [type, named] at this
    · exact GrcKind.tombstone_ne_entity deletable type.symm
  · rw [tombstonePending_iff]
    exact ⟨_, AutoTable.mem_insert.mpr (Or.inr rfl), deletable, rfl⟩

/-- A save writes the record again: the user has re-created it. -/
def Recreates (kind : GrcKind) (id : String) : Action γ → Prop
  | .beginSave k i _ => k = kind ∧ i = id
  | _ => False

theorem toggled_absent {r : GrcRecord γ} {k : GrcKind} {i : String} (content : γ)
    (present : s.db.grc k i = some r) (absent : s.db.grc kind id = none) :
    (upsert s.db k i content false).grc kind id = none := by
  have other : ¬ (kind = k ∧ id = i) := by
    rintro ⟨rfl, rfl⟩
    rw [present] at absent
    cases absent
  exact (setRecord_other other).trans absent

/-- Only a save and a download write a record that is not there. -/
theorem step_keeps_absent (a : Action γ) (pending : TombstonePending s kind id)
    (absent : s.db.grc kind id = none) (lets : ¬ Recreates kind id a) :
    (step f s a).db.grc kind id = none := by
  by_cases writes : a.WritesTables
  · cases a with
    | beginSave k i content =>
      have other : ¬ (kind = k ∧ id = i) := fun same => lets ⟨same.1.symm, same.2.symm⟩
      simp only [step, save_eq, saveRecord]
      exact (setRecord_other other).trans absent
    | togglePlaybook i enabled =>
      simp only [step, togglePlaybook]
      split
      · exact absent
      · rename_i r present
        exact toggled_absent _ present absent
    | toggleDetectionRule i enabled =>
      simp only [step, toggleDetectionRule]
      split
      · exact absent
      · rename_i r present
        exact toggled_absent _ present absent
    | updateAssetLifecycle i lifecycle =>
      simp only [step, updateAssetLifecycle]
      split
      · exact absent
      · rename_i r present
        exact toggled_absent _ present absent
    | delete k i now =>
      simp only [step, deleteRecord, deleteGrc]
      cases k.tombstone with
      | none => exact absent
      | some t =>
        simp only [orKeep]
        by_cases same : kind = k ∧ id = i
        · rw [same.1, same.2, setRecord_self]
        · exact (setRecord_other same).trans absent
    | download k items complete => exact download_keeps_absent k items complete pending absent
    | answerUpload now answer =>
      simp only [step, answerUpload]
      split
      · exact absent
      · rename_i u _
        split
        · split
          · exact absent
          · by_cases same : kind = u.kind
            · subst same
              rcases acknowledgeGrc_record u.kind id (u.batch.map (·.rowId)) s.db
                with ⟨_, kept⟩ | ⟨_, written⟩
              · exact kept.trans absent
              · refine written.trans ?_
                rw [absent]
                split <;> rfl
            · exact (acknowledgeGrc_other_kind _ same s.db).trans absent
        · exact absent
    | _ => exact writes.elim
  · rw [grc_frame writes]
    exact absent

/-- Kept as long as nobody re-creates the record and the platform has not accepted the
    deletion. -/
structure Away (s : State γ) (kind : GrcKind) (id : String) : Prop where
  known : Known s
  pending : TombstonePending s kind id
  absent : s.db.grc kind id = none

theorem away_along {as : List (Action γ)} (away : Away s kind id)
    (along : Runs.Along (step f)
      (fun s a => ¬ Withdraws s kind id a ∧ ¬ Recreates kind id a) s as) :
    Away (Runs.run (step f) s as) kind id := by
  refine Runs.run_keeps (I := fun s => Away s kind id) ?_ away along
  intro s a away quiet
  exact ⟨step_known f s a away.known, pending_until_withdrawn a away.known away.pending quiet.1,
    step_keeps_absent a away.pending away.absent quiet.2⟩

theorem reachable_known (reached : Runs.Reachable (step f) Initial s) : Known s :=
  Runs.reachable_invariant (fun _ => initial_known) (fun s a => step_known f s a) reached

/-- A playbook saved and deleted offline: its deletion waits. -/
def deletedOffline : State String :=
  Runs.run (step textFormat) (start (fun _ _ => none))
    [.beginSave .playbook "p" "on", .endSave 0 1, .delete .playbook "p" 2]

end SentinelAgent.Sync
