import SentinelAgent.Core.Incidents

/-!
What becomes of an accepted incident. It is lost in two ways: the overflow of the queue evicts
its row, or its tenth failure leaves a row that is never returned again. The condition below
rules these out, step by step. That a refused incident does not hold up the others needs no
such condition on the refused one: its failures are limited, and each leaves it behind.
-/
namespace SentinelAgent.Core
open AutoTables Storage

variable {J : Type} {f : JsonFormat J} {s : State} {q : SyncQueue} {r x : SyncQueueItem}

/-- Every incident that was accepted is delivered, or queued and returned later. -/
def NoneLost (s : State) : Prop :=
  ∀ receipt ∈ s.accepted, receipt ∈ s.delivered ∨
    ∃ q, s.db = some q ∧ ∃ item ∈ q, receipt = .of item ∧ item.entityType = .incident ∧
      ReturnedLater q .incident incidentFlushBatch item

/-- A row the platform is still owed. -/
structure Owed (s : State) (q : SyncQueue) (r : SyncQueueItem) : Prop where
  mem : r ∈ q
  incident : r.entityType = .incident
  retryable : r.Retryable
  undelivered : .of r ∉ s.delivered

def LeavesOwed (s : State) (evict : SyncQueue → SyncQueue) : Prop :=
  ∀ q, s.db = some q → ∀ r, Owed s q r → r ∈ evict q

/-- The condition, on the state before the step and on the answer of the platform. -/
def KeepsIncidents (f : JsonFormat J) (s : State) : Action J → Prop
  | .report r => Queues s r → LeavesOwed s makeRoom
  | .enqueueOther _ entry => entry.entityType ≠ .incident → LeavesOwed s makeRoom
  | .enforceQueueLimit => LeavesOwed s enforceQueueLimit
  | .flushPost _ answer refusal => refusal = none →
      ∀ item rest, s.flushing = item :: rest → (∃ e, outcome f item answer = .error e) →
      ∀ q, s.db = some q → ∀ r, Owed s q r → r.id = item.id → r.attempts + 1 < r.maxAttempts
  | _ => True

/-! What a run knows about the rows and the batch in flight. -/

structure Known (f : JsonFormat J) (s : State) : Prop where
  platform : s.standalone = false
  written : ∀ q, s.db = some q → ∀ r ∈ q, r.entityType = .incident → Written f r
  inFlight : ∀ item ∈ s.flushing, item.entityType = .incident ∧ Written f item ∧
    ∀ q, s.db = some q → item.id < q.next ∧ ∀ r ∈ q, r.id = item.id → SameRequest r item
  distinct : (s.flushing.map (·.id)).Nodup

theorem initial_known (begins : Initial s) : Known f s := by
  obtain ⟨platform, opened, idle, _, _⟩ := begins
  refine ⟨platform, ?_, by simp [idle], by simp [idle]⟩
  intro q present r mem
  rcases opened with none | empty
  · rw [none] at present
    cases present
  · rw [empty] at present
    cases present
    cases mem

theorem flushBegin_cases (s : State) (now : Nat) (refusal : Option String) :
    flushBegin s now refusal = s ∨
    ∃ q, s.db = some q ∧ s.flushing = [] ∧ flushBegin s now refusal =
      { s with flushing := getPendingFor q now .incident incidentFlushBatch } := by
  unfold flushBegin
  split
  · exact Or.inl rfl
  · split
    · rename_i q opened idle
      exact Or.inr ⟨q, opened, idle, rfl⟩
    · exact Or.inl rfl

theorem delivered_orLog (s : State) (refusal : Option String) (change : SyncQueue → SyncQueue) :
    (orLog s refusal change).delivered = s.delivered := by
  cases refusal <;> rfl

theorem accepted_orLog (s : State) (refusal : Option String) (change : SyncQueue → SyncQueue) :
    (orLog s refusal change).accepted = s.accepted := by
  cases refusal <;> rfl

theorem standalone_orLog (s : State) (refusal : Option String)
    (change : SyncQueue → SyncQueue) : (orLog s refusal change).standalone = s.standalone := by
  cases refusal <;> rfl

/-- What no step takes back. -/
theorem step_frame (f : JsonFormat J) (s : State) (a : Action J)
    (platform : s.standalone = false) :
    (step f s a).standalone = false ∧ ∀ receipt ∈ s.delivered,
      receipt ∈ (step f s a).delivered := by
  cases a with
  | report r =>
    rcases report_cases f r platform with
      ⟨payload, result⟩ | ⟨q, resumeAt, _, _, result⟩ | ⟨resumeAt, result⟩
    · rw [step, result]
      exact ⟨platform, fun receipt mem => List.mem_append_left _ mem⟩
    · rw [step, result]
      exact ⟨platform, fun receipt mem => mem⟩
    · rw [step, result]
      exact ⟨platform, fun receipt mem => mem⟩
  | flushBegin now refusal =>
    rcases flushBegin_cases s now refusal with result | ⟨q, _, _, result⟩
    · rw [step, result]
      exact ⟨platform, fun receipt mem => mem⟩
    · rw [step, result]
      exact ⟨platform, fun receipt mem => mem⟩
  | flushPost now answer refusal =>
    rcases flushPost_cases f s now answer refusal with
      ⟨_, result⟩ | ⟨item, rest, _, ⟨_, result⟩ | ⟨e, _, result⟩⟩
    · rw [step, result]
      exact ⟨platform, fun receipt mem => mem⟩
    · rw [step, result]
      exact ⟨(standalone_orLog _ _ _).trans platform,
        fun receipt mem => List.mem_append_left _ mem⟩
    · rw [step, result]
      refine ⟨(standalone_orLog _ _ _).trans platform, fun receipt mem => ?_⟩
      change receipt ∈ (orLog (suspendUploads s now) refusal _).delivered
      rw [delivered_orLog]
      exact mem
  | enqueueOther now entry | insertOther now entry =>
    simp only [step]
    split
    · exact ⟨platform, fun receipt mem => mem⟩
    · exact ⟨platform, fun receipt mem => mem⟩
  | _ => exact ⟨platform, fun receipt mem => mem⟩

/-- The batch in flight only shrinks, unless a new flush begins. -/
theorem flushing_step (f : JsonFormat J) (s : State) (a : Action J)
    (platform : s.standalone = false) :
    (step f s a).flushing.Sublist s.flushing ∨ ∃ now q, s.db = some q ∧
      (step f s a).db = some q ∧
      (step f s a).flushing = getPendingFor q now .incident incidentFlushBatch := by
  cases a with
  | report r =>
    rcases report_cases f r platform with
      ⟨payload, result⟩ | ⟨q, resumeAt, _, _, result⟩ | ⟨resumeAt, result⟩
    · exact Or.inl (by rw [step, result])
    · exact Or.inl (by rw [step, result])
    · exact Or.inl (by rw [step, result])
  | flushBegin now refusal =>
    rcases flushBegin_cases s now refusal with result | ⟨q, opened, _, result⟩
    · exact Or.inl (by rw [step, result])
    · exact Or.inr ⟨now, q, opened, by rw [step, result]; exact opened, by rw [step, result]⟩
  | flushPost now answer refusal =>
    rcases flushPost_cases f s now answer refusal with
      ⟨_, result⟩ | ⟨item, rest, batch, ⟨_, result⟩ | ⟨e, _, result⟩⟩
    · exact Or.inl (by rw [step, result])
    · exact Or.inl (by rw [step, result, batch]; exact List.sublist_cons_self _ _)
    · exact Or.inl (by rw [step, result]; exact List.nil_sublist _)
  | enqueueOther now entry | insertOther now entry =>
    simp only [step]
    split
    · exact Or.inl (List.Sublist.refl _)
    · exact Or.inl (List.Sublist.refl _)
  | restart => exact Or.inl (List.nil_sublist _)
  | _ => exact Or.inl (List.Sublist.refl _)

theorem none_step (f : JsonFormat J) (s : State) (a : Action J)
    (platform : s.standalone = false) (closed : s.db = none) : (step f s a).db = none := by
  cases a with
  | report r =>
    rcases report_cases f r platform with
      ⟨payload, result⟩ | ⟨q, resumeAt, opened, _, result⟩ | ⟨resumeAt, result⟩
    · rw [step, result, closed]
    · rw [closed] at opened
      cases opened
    · rw [step, result, closed]
  | flushBegin now refusal =>
    rcases flushBegin_cases s now refusal with result | ⟨q, _, _, result⟩
    · rw [step, result, closed]
    · rw [step, result, closed]
  | flushPost now answer refusal =>
    rcases flushPost_cases f s now answer refusal with
      ⟨_, result⟩ | ⟨item, rest, _, ⟨_, result⟩ | ⟨e, _, result⟩⟩
    · rw [step, result, closed]
    · rw [step, result]
      cases refusal <;> simp [orLog, closed]
    · rw [step, result]
      cases refusal <;> simp [orLog, suspendUploads, closed]
  | enqueueOther now entry | insertOther now entry =>
    simp only [step]
    split
    · exact closed
    · simp [onQueue, closed]
  | restart => exact closed
  | _ => simp [step, onQueue, closed]

theorem step_known (f : JsonFormat J) (s : State) (a : Action J) (known : Known f s) :
    Known f (step f s a) := by
  cases opened : s.db with
  | none =>
    have closed := none_step f s a known.platform opened
    have sublist : (step f s a).flushing.Sublist s.flushing := by
      rcases flushing_step f s a known.platform with less | ⟨_, q, open', _⟩
      · exact less
      · rw [opened] at open'
        cases open'
    refine ⟨(step_frame f s a known.platform).1, by simp [closed], ?_,
      known.distinct.sublist (sublist.map _)⟩
    intro item mem
    obtain ⟨incident, written, _⟩ := known.inFlight item (sublist.subset mem)
    exact ⟨incident, written, by simp [closed]⟩
  | some q =>
    obtain ⟨q', after, grows⟩ := step_grows f s a known.platform opened
    refine ⟨(step_frame f s a known.platform).1, ?_, ?_, ?_⟩
    · intro q₁ same r mem incident
      rw [after] at same
      cases same
      rcases grows.written r mem incident with ⟨old, member, request⟩ | written
      · have before := known.written q opened old member (request.entityType.symm.trans incident)
        exact before.same request
      · exact written
    · intro item mem
      rcases flushing_step f s a known.platform with less | ⟨now, q₁, open', same, batch⟩
      · obtain ⟨incident, written, current⟩ := known.inFlight item (less.subset mem)
        obtain ⟨before, rows⟩ := current q opened
        refine ⟨incident, written, fun q₁ same => ?_⟩
        rw [after] at same
        cases same
        exact ⟨Nat.lt_of_lt_of_le before grows.evolves.next_le, fun r member id =>
          evolves_same_request grows.evolves before rows member id⟩
      · rw [opened] at open'
        cases open'
        rw [batch] at mem
        obtain ⟨member, _, _, incident⟩ := mem_getPendingFor mem
        refine ⟨incident, known.written q opened item member incident, fun q₁ same' => ?_⟩
        rw [same] at same'
        cases same'
        refine ⟨AutoTable.key_lt_next member, fun r rows id => ?_⟩
        rw [AutoTable.row_unique rows member id]
        exact SameRequest.rfl
    · rcases flushing_step f s a known.platform with less | ⟨now, q₁, _, _, batch⟩
      · exact known.distinct.sublist (less.map _)
      · rw [batch]
        exact getPendingFor_ids_nodup q₁ now .incident incidentFlushBatch

/-! What is owed stays queued until it is delivered. -/

/-- After a step the row is still there with attempts left, or it is delivered. -/
def Survives (s' : State) (r : SyncQueueItem) : Prop :=
  .of r ∈ s'.delivered ∨
    ∃ q', s'.db = some q' ∧ ∃ new ∈ q', SameRequest new r ∧ new.Retryable

theorem receipt_of_same {a b : SyncQueueItem} (same : SameRequest a b) :
    Receipt.of a = Receipt.of b := by
  simp only [Receipt.of, same.id, same.payload]

theorem survives_onQueue {change : SyncQueue → SyncQueue} (opened : s.db = some q)
    (owed : Owed s q r) (kept : r ∈ change q) : Survives (onQueue s change) r :=
  Or.inr ⟨change q, by simp [onQueue, opened], r, kept, SameRequest.rfl, owed.retryable⟩

theorem survives_same {s' : State} (opened : s'.db = some q) (owed : Owed s q r) :
    Survives s' r :=
  Or.inr ⟨q, opened, r, owed.mem, SameRequest.rfl, owed.retryable⟩

theorem isOther_row {row : Nat} (other : isOther q row = true) (mem : r ∈ q)
    (id : r.id = row) : r.entityType ≠ .incident := by
  have found : q.find row = some r := AutoTable.find_eq_some_iff.mpr ⟨mem, id⟩
  simp only [isOther, found, decide_eq_true_eq] at other
  exact other

theorem survives_delivered {item : SyncQueueItem} {rest : List SyncQueueItem}
    {refusal : Option String} (known : Known f s) (opened : s.db = some q) (owed : Owed s q r)
    (batch : s.flushing = item :: rest) :
    Survives { orLog s refusal (fun q => remove q [item.id]) with
      delivered := s.delivered ++ [.of item]
      flushing := rest } r := by
  by_cases sent : r.id = item.id
  · have same := ((known.inFlight item (by simp [batch])).2.2 q opened).2 r owed.mem sent
    left
    rw [receipt_of_same same]
    exact List.mem_append_right _ (List.mem_singleton_self _)
  · cases refusal with
    | none =>
      refine Or.inr ⟨remove q [item.id], by simp [orLog, opened], r, ?_, SameRequest.rfl,
        owed.retryable⟩
      exact mem_remove.mpr ⟨owed.mem, fun hit => sent (List.mem_singleton.mp hit)⟩
    | some error => exact survives_same opened owed

theorem survives_refused {item : SyncQueueItem} {now : Nat} {e : CommonError}
    {refusal : Option String} (opened : s.db = some q) (owed : Owed s q r)
    (left : refusal = none → r.id = item.id → r.attempts + 1 < r.maxAttempts) :
    Survives { orLog (suspendUploads s now) refusal
        (fun q => noteFailure q now item.id e.display) with
      flushing := [] } r := by
  cases refusal with
  | none =>
    obtain ⟨new, mem, same, few, kept⟩ := noteFailure_survivor now item.id e.display owed.mem
    refine Or.inr ⟨noteFailure q now item.id e.display,
      by simp [orLog, suspendUploads, opened], new, mem, same, ?_⟩
    by_cases hit : r.id = item.id
    · have more := left rfl hit
      have limit := same.maxAttempts
      change new.attempts < new.maxAttempts
      omega
    · rw [kept hit]
      exact owed.retryable
  | some error => exact survives_same opened owed

theorem owed_survives (a : Action J) (known : Known f s) (opened : s.db = some q)
    (owed : Owed s q r) (condition : KeepsIncidents f s a) : Survives (step f s a) r := by
  cases a with
  | report rep =>
    rcases report_cases f rep known.platform with
      ⟨payload, result⟩ | ⟨q', resumeAt, open', queues, result⟩ | ⟨resumeAt, result⟩
    · rw [step, result]
      exact survives_same opened owed
    · rw [opened] at open'
      cases open'
      rw [step, result]
      refine Or.inr ⟨_, rfl, r, mem_enqueue.mpr (Or.inl ?_), SameRequest.rfl, owed.retryable⟩
      exact condition queues q opened r owed
    · rw [step, result]
      exact survives_same opened owed
  | flushBegin now refusal =>
    rcases flushBegin_cases s now refusal with result | ⟨q', _, _, result⟩
    · rw [step, result]
      exact survives_same opened owed
    · rw [step, result]
      exact survives_same opened owed
  | flushPost now answer refusal =>
    rcases flushPost_cases f s now answer refusal with
      ⟨_, result⟩ | ⟨item, rest, batch, ⟨_, result⟩ | ⟨e, refused, result⟩⟩
    · rw [step, result]
      exact survives_same opened owed
    · rw [step, result]
      exact survives_delivered known opened owed batch
    · rw [step, result]
      refine survives_refused opened owed fun stored hit => ?_
      exact condition stored item rest batch ⟨e, refused⟩ q opened r owed hit
  | enqueueOther now entry =>
    simp only [step]
    split
    · exact survives_same opened owed
    · rename_i other
      exact survives_onQueue opened owed
        (mem_enqueue.mpr (Or.inl (condition other q opened r owed)))
  | insertOther now entry =>
    simp only [step]
    split
    · exact survives_same opened owed
    · exact survives_onQueue opened owed (AutoTable.mem_insert.mpr (Or.inl owed.mem))
  | otherDelivered row =>
    refine survives_onQueue opened owed ?_
    split
    · rename_i other
      refine mem_remove.mpr ⟨owed.mem, fun hit => ?_⟩
      exact isOther_row other owed.mem (List.mem_singleton.mp hit) owed.incident
    · exact owed.mem
  | otherFailed now row error =>
    refine survives_onQueue opened owed ?_
    split
    · rename_i other
      obtain ⟨new, mem, _, _, kept⟩ := noteFailure_survivor now row error owed.mem
      have different : r.id ≠ row := fun hit => isOther_row other owed.mem hit owed.incident
      rwa [kept different] at mem
    · exact owed.mem
  | enforceQueueLimit => exact survives_onQueue opened owed (condition q opened r owed)
  | purgeFailed =>
    exact survives_onQueue opened owed (mem_purgeFailed.mpr ⟨owed.mem, Or.inl owed.retryable⟩)
  | restart => exact survives_same opened owed

/-- An accepted incident is delivered, or there is a row of it with attempts left. -/
def Kept (s : State) (receipt : Receipt) : Prop :=
  receipt ∈ s.delivered ∨ ∃ q, s.db = some q ∧ ∃ item ∈ q, receipt = .of item ∧
    item.entityType = .incident ∧ item.Retryable

theorem kept_step (a : Action J) {receipt : Receipt} (known : Known f s)
    (condition : KeepsIncidents f s a) (kept : Kept s receipt) :
    Kept (step f s a) receipt := by
  have stays := (step_frame f s a known.platform).2
  by_cases delivered : receipt ∈ s.delivered
  · exact Or.inl (stays receipt delivered)
  · rcases kept with done | ⟨q, opened, item, mem, rfl, incident, retryable⟩
    · exact absurd done delivered
    · have owed : Owed s q item := ⟨mem, incident, retryable, delivered⟩
      rcases owed_survives a known opened owed condition with
        now | ⟨q', after, new, member, same, left⟩
      · exact Or.inl now
      · exact Or.inr ⟨q', after, new, member, (receipt_of_same same).symm,
          same.entityType.trans incident, left⟩

/-- `Ok` is returned for what was delivered and for what was queued. -/
theorem accepted_step (f : JsonFormat J) (s : State) (a : Action J) {receipt : Receipt}
    (platform : s.standalone = false) (mem : receipt ∈ (step f s a).accepted) :
    receipt ∈ s.accepted ∨ Kept (step f s a) receipt := by
  cases a with
  | report r =>
    rcases report_cases f r platform with
      ⟨payload, result⟩ | ⟨q, resumeAt, opened, _, result⟩ | ⟨resumeAt, result⟩
    · rw [step, result] at mem ⊢
      rcases List.mem_append.mp mem with old | new
      · exact Or.inl old
      · exact Or.inr (Or.inl (List.mem_append_right _ new))
    · rw [step, result] at mem ⊢
      rcases List.mem_append.mp mem with old | new
      · exact Or.inl old
      · refine Or.inr (Or.inr ⟨_, rfl, _, mem_enqueue.mpr (Or.inr rfl), ?_, rfl, ?_⟩)
        · exact List.mem_singleton.mp new
        · change 0 < min defaultMaxAttempts i32Max
          decide
    · rw [step, result] at mem
      exact Or.inl mem
  | flushBegin now refusal =>
    rcases flushBegin_cases s now refusal with result | ⟨q, _, _, result⟩
    · rw [step, result] at mem
      exact Or.inl mem
    · rw [step, result] at mem
      exact Or.inl mem
  | flushPost now answer refusal =>
    rcases flushPost_cases f s now answer refusal with
      ⟨_, result⟩ | ⟨item, rest, _, ⟨_, result⟩ | ⟨e, _, result⟩⟩
    · rw [step, result] at mem
      exact Or.inl mem
    · rw [step, result] at mem
      exact Or.inl ((accepted_orLog _ _ _) ▸ mem)
    · rw [step, result] at mem
      change receipt ∈ (orLog (suspendUploads s now) refusal _).accepted at mem
      rw [accepted_orLog] at mem
      exact Or.inl mem
  | enqueueOther now entry | insertOther now entry =>
    simp only [step] at mem
    split at mem
    · exact Or.inl mem
    · exact Or.inl mem
  | _ => exact Or.inl mem

structure Cared (f : JsonFormat J) (s : State) : Prop where
  known : Known f s
  kept : ∀ receipt ∈ s.accepted, Kept s receipt

theorem step_cared (f : JsonFormat J) (s : State) (a : Action J) (cared : Cared f s)
    (condition : KeepsIncidents f s a) : Cared f (step f s a) := by
  refine ⟨step_known f s a cared.known, fun receipt mem => ?_⟩
  rcases accepted_step f s a cared.known.platform mem with before | new
  · exact kept_step a cared.known condition (cared.kept receipt before)
  · exact new

theorem noneLost_of_cared (cared : Cared f s) : NoneLost s := by
  intro receipt mem
  rcases cared.kept receipt mem with done | ⟨q, opened, item, member, same, incident, left⟩
  · exact Or.inl done
  · exact Or.inr ⟨q, opened, item, member, same, incident,
      returned_later (by decide) member left incident⟩

theorem noneLost_along {s₀ : State} {as : List (Action J)} (begins : Initial s₀)
    (along : Runs.Along (step f) (KeepsIncidents f) s₀ as) :
    NoneLost (Runs.run (step f) s₀ as) := by
  have start : Cared f s₀ := ⟨initial_known begins, by simp [begins.2.2.2.1]⟩
  exact noneLost_of_cared (Runs.run_keeps (step_cared f) start along)

end SentinelAgent.Core
