import SentinelAgent.Core.IncidentDelivery

/-!
One refused incident does not hold up the others. A post of the flush delivers an incident that
is ahead of the waiting one, or it uses up one of the attempts of the refused one. Both are
finite, and what is reported later comes behind. So the posts before the waiting incident is
delivered are bounded, and a flush always has something to post.
-/
namespace SentinelAgent.Core
open AutoTables Storage

variable {J : Type} {f : JsonFormat J} {s : State} {q q' : SyncQueue} {r x : SyncQueueItem}
  {p : Nat}

/-- The incidents that are sent before `x`. -/
def Ahead (x r : SyncQueueItem) : Prop :=
  r.entityType = .incident ∧ r.createdAt ≤ x.createdAt

instance (x r : SyncQueueItem) : Decidable (Ahead x r) :=
  inferInstanceAs (Decidable (r.entityType = .incident ∧ r.createdAt ≤ x.createdAt))

/-- How many posts the row can still take before `x` is delivered. -/
def weight (p : Nat) (x r : SyncQueueItem) : Nat :=
  if Ahead x r then if r.id = p then r.maxAttempts - r.attempts else 1 else 0

/-- Down this batch, all are ahead of `x` until `x` comes. -/
def Leads (x : SyncQueueItem) : List SyncQueueItem → Prop
  | [] => True
  | item :: rest => item = x ∨ (Ahead x item ∧ Leads x rest)

def LeavesIncidents (s : State) (evict : SyncQueue → SyncQueue) : Prop :=
  ∀ q, s.db = some q → ∀ r ∈ q, r.entityType = .incident → r.Retryable → r ∈ evict q

/-- The platform may refuse the row `p`, and takes every other incident. The database takes what
    the flush writes, no incident is evicted, and the clock is past the second of `x`. -/
def RefusesOnly (p : Nat) (x : SyncQueueItem) (s : State) : Action J → Prop
  | .report r => x.createdAt < r.answered ∧ (Queues s r → LeavesIncidents s makeRoom)
  | .enqueueOther _ entry => entry.entityType ≠ .incident → LeavesIncidents s makeRoom
  | .enforceQueueLimit => LeavesIncidents s enforceQueueLimit
  | .flushBegin now _ => x.nextRetryAt ≤ now
  | .flushPost _ answer refusal => refusal = none ∧
      ∀ item rest, s.flushing = item :: rest → item.id ≠ p → ∃ id, postIncident answer = .ok id
  | _ => True

def posts (s : State) : Action J → Nat
  | .flushPost _ _ _ => if s.flushing = [] then 0 else 1
  | _ => 0

/-- While `x` is not delivered the flush made no more posts than this, and it makes another. -/
def OthersDelivered (f : JsonFormat J) (s : State) : Prop :=
  ∀ q p x (later : List (Action J)), s.db = some q → s.flushing = [] → x ∈ q →
    x.entityType = .incident → x.Retryable → x.id ≠ p →
    Runs.Along (step f) (RefusesOnly p x) s later →
    .of x ∈ (Runs.run (step f) s later).delivered ∨
      (Runs.total (step f) posts s later ≤ q.size * defaultMaxAttempts ∧
        ∀ now, x.nextRetryAt ≤ now →
          (flushBegin (Runs.run (step f) s later) now none).flushing ≠ [])

/-! Weights. -/

theorem weight_failedOnce_le (p : Nat) (x r : SyncQueueItem) (now delay : Nat)
    (message : String) : weight p x (failedOnce now delay message r) ≤ weight p x r := by
  unfold weight
  by_cases ahead : Ahead x r
  · have same : Ahead x (failedOnce now delay message r) := ahead
    rw [if_pos ahead, if_pos same]
    by_cases hit : r.id = p
    · rw [if_pos hit, if_pos (by exact hit)]
      exact Nat.sub_le_sub_left (Nat.le_succ _) _
    · rw [if_neg hit, if_neg (by exact hit)]
  · have same : ¬ Ahead x (failedOnce now delay message r) := ahead
    rw [if_neg ahead, if_neg same]

theorem weight_refused_lt (now delay : Nat) (message : String) (ahead : Ahead x r)
    (retryable : r.Retryable) :
    weight r.id x (failedOnce now delay message r) < weight r.id x r := by
  have same : Ahead x (failedOnce now delay message r) := ahead
  have before : weight r.id x r = r.maxAttempts - r.attempts := by simp [weight, ahead]
  have after : weight r.id x (failedOnce now delay message r) =
      r.maxAttempts - (r.attempts + 1) := by
    unfold weight
    rw [if_pos same]
    exact if_pos rfl
  have left : r.attempts < r.maxAttempts := retryable
  omega

theorem weight_pos (ahead : Ahead x r) (retryable : r.Retryable) : 1 ≤ weight p x r := by
  have left : r.attempts < r.maxAttempts := retryable
  unfold weight
  rw [if_pos ahead]
  split
  · omega
  · exact Nat.le_refl 1

theorem weight_le (limit : Ahead x r → r.maxAttempts = defaultMaxAttempts) :
    weight p x r ≤ defaultMaxAttempts := by
  unfold weight
  split
  · rename_i ahead
    rw [limit ahead]
    split
    · exact Nat.sub_le _ _
    · decide
  · exact Nat.zero_le _

theorem weigh_evict_le (w : SyncQueueItem → Nat) (q : SyncQueue) (excess : Nat) :
    (evict q excess).weigh w ≤ q.weigh w := by
  simp only [evict]
  split
  · exact Nat.le_trans (AutoTable.weigh_removeRows_le _ _) (AutoTable.weigh_removeRows_le _ _)
  · exact AutoTable.weigh_removeRows_le _ _

theorem weigh_makeRoom_le (w : SyncQueueItem → Nat) (q : SyncQueue) :
    (makeRoom q).weigh w ≤ q.weigh w := by
  unfold makeRoom
  split
  · exact weigh_evict_le w q _
  · exact Nat.le_refl _

theorem weigh_enforceQueueLimit_le (w : SyncQueueItem → Nat) (q : SyncQueue) :
    (enforceQueueLimit q).weigh w ≤ q.weigh w := by
  unfold enforceQueueLimit
  split
  · exact Nat.le_refl _
  · exact AutoTable.weigh_removeRows_le _ _

theorem weigh_enqueue_le {w : SyncQueueItem → Nat} {now : Nat} {e : SyncQueueEntry}
    (light : w ((entryItem now e).make q.next) = 0) :
    (enqueue q now e).1.weigh w ≤ q.weigh w := by
  have room := weigh_makeRoom_le w q
  simp only [enqueue, AutoTable.weigh_insert, next_makeRoom]
  omega

theorem weigh_noteFailure_le (p : Nat) (x : SyncQueueItem) (q : SyncQueue) (now id : Nat)
    (message : String) :
    (noteFailure q now id message).weigh (weight p x) ≤ q.weigh (weight p x) := by
  obtain ⟨e, same, edits⟩ := noteFailure_eq q now id message
  rw [same]
  refine AutoTable.weigh_update_le fun r _ => ?_
  rcases edits r with kept | ⟨_, delay, failed⟩
  · rw [kept]
  · rw [failed]
    exact weight_failedOnce_le p x r now delay message

theorem weigh_refused_lt (now : Nat) (message : String) (mem : r ∈ q) (ahead : Ahead x r)
    (retryable : r.Retryable) (few : r.attempts + 1 < 64) :
    (noteFailure q now r.id message).weigh (weight r.id x) < q.weigh (weight r.id x) := by
  obtain ⟨delay, same⟩ := noteFailure_counts now message mem few
  rw [same]
  refine AutoTable.weigh_update_lt (fun other _ => ?_) mem ?_
  · by_cases hit : other.id = r.id
    · have edited : (failureEdit r.id now delay message).edit other =
          failedOnce now delay message other := if_pos hit
      rw [edited]
      exact weight_failedOnce_le r.id x other now delay message
    · have edited : (failureEdit r.id now delay message).edit other = other := if_neg hit
      rw [edited]
  · have edited : (failureEdit r.id now delay message).edit r =
        failedOnce now delay message r := if_pos rfl
    rw [edited]
    exact weight_refused_lt now delay message ahead retryable

/-! The batch of a flush that begins when `x` is due. -/

theorem leads_of_all {batch : List SyncQueueItem} (all : ∀ item ∈ batch, Ahead x item) :
    Leads x batch := by
  induction batch with
  | nil => trivial
  | cons item rest ih =>
    exact Or.inr ⟨all item List.mem_cons_self, ih fun r mem => all r (List.mem_cons_of_mem _ mem)⟩

theorem leads_of_sorted {batch : List SyncQueueItem} (turn : x ∈ batch)
    (sorted : batch.Pairwise (fun a b => mostUrgentFirst a b = true))
    (ahead : ∀ item ∈ batch, mostUrgentFirst item x = true → Ahead x item) :
    Leads x batch := by
  induction batch with
  | nil => cases turn
  | cons item rest ih =>
    have order := List.pairwise_cons.mp sorted
    rcases List.mem_cons.mp turn with here | later
    · exact Or.inl here.symm
    · refine Or.inr ⟨ahead item List.mem_cons_self (order.1 x later), ?_⟩
      exact ih later order.2 (fun r mem => ahead r (List.mem_cons_of_mem _ mem))

theorem leads_getPendingFor {now limit : Nat}
    (written : ∀ r ∈ q, r.entityType = .incident → Written f r) (mem : x ∈ q)
    (incident : x.entityType = .incident) (retryable : x.Retryable) (due : x.nextRetryAt ≤ now) :
    Leads x (getPendingFor q now .incident limit) := by
  have ahead : ∀ item ∈ getPendingFor q now .incident limit,
      mostUrgentFirst item x = true → Ahead x item := by
    intro item chosen before
    obtain ⟨member, _, _, type⟩ := mem_getPendingFor chosen
    have mine := (written x mem incident).priority
    have theirs := (written item member type).priority
    simp only [mostUrgentFirst, decide_eq_true_eq] at before
    exact ⟨type, by omega⟩
  by_cases turn : x ∈ getPendingFor q now .incident limit
  · exact leads_of_sorted turn
      (firstBy_pairwise mostUrgentFirst_total mostUrgentFirst_trans) ahead
  · refine leads_of_all fun item chosen => ahead item chosen ?_
    exact firstBy_le_rest mostUrgentFirst_total mostUrgentFirst_trans chosen
      (mem_eligible.mpr ⟨mem, retryable, due, incident⟩) turn

/-! The step. -/

structure Pending (f : JsonFormat J) (x : SyncQueueItem) (s : State) : Prop where
  known : Known f s
  incident : x.entityType = .incident
  retryable : x.Retryable
  queue : ∃ q, s.db = some q ∧ x ∈ q ∧ ∀ item ∈ s.flushing, item ∈ q ∧ item.Retryable
  batch : Leads x s.flushing

def potential (p : Nat) (x : SyncQueueItem) (s : State) : Nat :=
  match s.db with
  | none => 0
  | some q => q.weigh (weight p x)

theorem potential_some (p : Nat) (x : SyncQueueItem) (opened : s.db = some q) :
    potential p x s = q.weigh (weight p x) := by
  simp only [potential, opened]

/-- Either `x` is delivered, or it waits on and the step was paid for. -/
def Advances (f : JsonFormat J) (p : Nat) (x : SyncQueueItem) (s : State) (a : Action J) : Prop :=
  .of x ∈ (step f s a).delivered ∨
    (Pending f x (step f s a) ∧ potential p x (step f s a) + posts s a ≤ potential p x s)

/-- Steps that make no post, keep the incidents and add none ahead of `x`. -/
theorem advances_calm {a : Action J} (pending : Pending f x s) (opened : s.db = some q)
    (after : (step f s a).db = some q')
    (kept : ∀ r ∈ q, r.entityType = .incident → r.Retryable → r ∈ q')
    (lighter : q'.weigh (weight p x) ≤ q.weigh (weight p x))
    (batch : (step f s a).flushing = s.flushing ∨ (step f s a).flushing = [])
    (free : posts s a = 0) : Advances f p x s a := by
  obtain ⟨q₀, open', mem, inQueue⟩ := pending.queue
  rw [opened] at open'
  cases open'
  right
  constructor
  · refine ⟨step_known f s a pending.known, pending.incident, pending.retryable,
      ⟨q', after, kept x mem pending.incident pending.retryable, ?_⟩, ?_⟩
    · intro item flying
      rcases batch with same | empty
      · rw [same] at flying
        obtain ⟨member, left⟩ := inQueue item flying
        exact ⟨kept item member (pending.known.inFlight item flying).1 left, left⟩
      · rw [empty] at flying
        cases flying
    · rcases batch with same | empty
      · rw [same]
        exact pending.batch
      · rw [empty]
        trivial
  · rw [potential_some p x opened, potential_some p x after, free]
    exact lighter

theorem advances_report {rep : Report J} (pending : Pending f x s) (opened : s.db = some q)
    (condition : RefusesOnly p x s (.report rep)) : Advances f p x s (.report rep) := by
  obtain ⟨later, spares⟩ := condition
  rcases report_cases f rep pending.known.platform with
    ⟨payload, result⟩ | ⟨q₀, resumeAt, open', queues, result⟩ | ⟨resumeAt, result⟩
  · exact advances_calm pending opened (by rw [step, result, opened]) (fun _ mem _ _ => mem)
      (Nat.le_refl _) (Or.inl (by rw [step, result])) rfl
  · rw [opened] at open'
    cases open'
    refine advances_calm pending opened (by rw [step, result]) ?_ (weigh_enqueue_le ?_)
      (Or.inl (by rw [step, result])) rfl
    · exact fun r mem incident left =>
        mem_enqueue.mpr (Or.inl (spares queues q opened r mem incident left))
    · refine if_neg fun ahead => ?_
      have early : rep.answered ≤ x.createdAt := ahead.2
      omega
  · exact advances_calm pending opened (by rw [step, result, opened]) (fun _ mem _ _ => mem)
      (Nat.le_refl _) (Or.inl (by rw [step, result])) rfl

theorem advances_flushBegin {now : Nat} {refusal : Option String} (pending : Pending f x s)
    (opened : s.db = some q) (due : x.nextRetryAt ≤ now) :
    Advances f p x s (.flushBegin now refusal) := by
  rcases flushBegin_cases s now refusal with result | ⟨q₀, open', _, result⟩
  · exact advances_calm pending opened (by rw [step, result, opened]) (fun _ mem _ _ => mem)
      (Nat.le_refl _) (Or.inl (by rw [step, result])) rfl
  · rw [opened] at open'
    cases open'
    obtain ⟨q₁, open', mem, _⟩ := pending.queue
    rw [opened] at open'
    cases open'
    have after : (step f s (.flushBegin now refusal)).db = some q := by rw [step, result, opened]
    have batch : (step f s (.flushBegin now refusal)).flushing =
        getPendingFor q now .incident incidentFlushBatch := by rw [step, result]
    right
    constructor
    · refine ⟨step_known f s _ pending.known, pending.incident, pending.retryable,
        ⟨q, after, mem, ?_⟩, ?_⟩
      · intro item flying
        rw [batch] at flying
        have chosen := mem_getPendingFor flying
        exact ⟨chosen.1, chosen.2.1⟩
      · rw [batch]
        exact leads_getPendingFor (pending.known.written q opened) mem pending.incident
          pending.retryable due
    · rw [potential_some p x opened, potential_some p x after]
      exact Nat.le_refl _

/-- A delivered incident that was ahead of `x`. -/
theorem advances_sent {now : Nat} {answer : PostAnswer} {item : SyncQueueItem}
    {rest : List SyncQueueItem} (pending : Pending f x s) (opened : s.db = some q)
    (inFlight : s.flushing = item :: rest)
    (result : flushPost f s now answer none =
      { orLog s none (fun q => remove q [item.id]) with
        delivered := s.delivered ++ [.of item]
        flushing := rest }) :
    Advances f p x s (.flushPost now answer none) := by
  obtain ⟨q₀, open', mem, inQueue⟩ := pending.queue
  rw [opened] at open'
  cases open'
  have turn := pending.batch
  have distinct := pending.known.distinct
  rw [inFlight] at turn distinct
  rcases turn with rfl | ⟨ahead, leads⟩
  · left
    rw [step, result]
    exact List.mem_append_right _ (List.mem_singleton_self _)
  · obtain ⟨member, left⟩ := inQueue item (by simp [inFlight])
    by_cases same : x = item
    · left
      rw [step, result, same]
      exact List.mem_append_right _ (List.mem_singleton_self _)
    · have after : (step f s (.flushPost now answer none)).db = some (remove q [item.id]) := by
        rw [step, result]
        simp [orLog, opened]
      have others : ∀ r ∈ q, r.id ≠ item.id → r ∈ remove q [item.id] := fun r mem other =>
        mem_remove.mpr ⟨mem, fun hit => other (List.mem_singleton.mp hit)⟩
      right
      constructor
      · refine ⟨step_known f s _ pending.known, pending.incident, pending.retryable,
          ⟨_, after, others x mem fun id => same (AutoTable.row_unique mem member id), ?_⟩, ?_⟩
        · intro other flying
          have behind : other ∈ rest := by rwa [step, result] at flying
          obtain ⟨before, able⟩ := inQueue other (by simp [inFlight, behind])
          refine ⟨others other before fun id => ?_, able⟩
          have head := (List.nodup_cons.mp distinct).1
          exact head (List.mem_map.mpr ⟨other, behind, id⟩)
        · rw [step, result]
          exact leads
      · have lighter : (remove q [item.id]).weigh (weight p x) + weight p x item ≤
            q.weigh (weight p x) := AutoTable.weigh_keep_lt member (by simp)
        have one : 1 ≤ weight p x item := weight_pos ahead left
        have cost : posts s (.flushPost now answer none : Action J) = 1 := by
          simp [posts, inFlight]
        rw [potential_some p x opened, potential_some p x after, cost]
        omega

/-- A failure of the refused incident. -/
theorem advances_refused {now : Nat} {answer : PostAnswer} {item : SyncQueueItem}
    {rest : List SyncQueueItem} {e : CommonError} (pending : Pending f x s)
    (opened : s.db = some q) (inFlight : s.flushing = item :: rest) (other : x.id ≠ item.id)
    (result : flushPost f s now answer none =
      { orLog (suspendUploads s now) none (fun q => noteFailure q now item.id e.display) with
        flushing := [] }) :
    Advances f item.id x s (.flushPost now answer none) := by
  obtain ⟨q₀, open', mem, inQueue⟩ := pending.queue
  rw [opened] at open'
  cases open'
  have turn := pending.batch
  rw [inFlight] at turn
  rcases turn with rfl | ⟨ahead, _⟩
  · exact absurd rfl other
  · obtain ⟨member, left⟩ := inQueue item (by simp [inFlight])
    have after : (step f s (.flushPost now answer none)).db =
        some (noteFailure q now item.id e.display) := by
      rw [step, result]
      simp [orLog, suspendUploads, opened]
    have few : item.attempts + 1 < 64 := by
      have limit := (pending.known.written q opened item member ahead.1).maxAttempts
      have able : item.attempts < item.maxAttempts := left
      rw [limit] at able
      have ten : defaultMaxAttempts = 10 := rfl
      omega
    right
    constructor
    · refine ⟨step_known f s _ pending.known, pending.incident, pending.retryable,
        ⟨_, after, ?_, ?_⟩, ?_⟩
      · obtain ⟨new, survives, _, _, kept⟩ := noteFailure_survivor now item.id e.display mem
        rwa [kept other] at survives
      · intro r flying
        rw [step, result] at flying
        cases flying
      · rw [step, result]
        trivial
    · have lighter := weigh_refused_lt now e.display member ahead left few
      have cost : posts s (.flushPost now answer none : Action J) = 1 := by
        simp [posts, inFlight]
      rw [potential_some item.id x opened, potential_some item.id x after, cost]
      omega

theorem advances_flushPost {now : Nat} {answer : PostAnswer} {refusal : Option String}
    (pending : Pending f x s) (opened : s.db = some q) (other : x.id ≠ p)
    (condition : RefusesOnly p x s (.flushPost now answer refusal : Action J)) :
    Advances f p x s (.flushPost now answer refusal) := by
  obtain ⟨rfl, takes⟩ := condition
  rcases flushPost_cases f s now answer none with
    ⟨idle, result⟩ | ⟨item, rest, inFlight, ⟨_, result⟩ | ⟨e, refused, result⟩⟩
  · exact advances_calm pending opened (by rw [step, result, opened]) (fun _ mem _ _ => mem)
      (Nat.le_refl _) (Or.inl (by rw [step, result])) (by simp [posts, idle])
  · exact advances_sent pending opened inFlight result
  · by_cases hit : item.id = p
    · subst hit
      exact advances_refused pending opened inFlight other result
    · -- The platform takes it and its payload can be read, so the post does not fail.
      obtain ⟨id, taken⟩ := takes item rest inFlight hit
      obtain ⟨v, text⟩ := (pending.known.inFlight item (by simp [inFlight])).2.1.payload
      obtain ⟨w, read⟩ := f.reads v
      simp only [outcome, text, read, taken] at refused
      cases refused

theorem step_advances (a : Action J) (pending : Pending f x s) (other : x.id ≠ p)
    (condition : RefusesOnly p x s a) : Advances f p x s a := by
  obtain ⟨q, opened, mem, inQueue⟩ := pending.queue
  have onQueue_db : ∀ change, (onQueue s change).db = some (change q) := by
    simp [onQueue, opened]
  cases a with
  | report rep => exact advances_report pending opened condition
  | flushBegin now refusal => exact advances_flushBegin pending opened condition
  | flushPost now answer refusal => exact advances_flushPost pending opened other condition
  | enqueueOther now entry =>
    by_cases incident : entry.entityType = .incident
    · exact advances_calm pending opened (by rw [step, if_pos incident, opened])
        (fun _ mem _ _ => mem) (Nat.le_refl _) (Or.inl (by rw [step, if_pos incident])) rfl
    · refine advances_calm pending opened (by rw [step, if_neg incident]; exact onQueue_db _)
        (fun r mem type left => ?_) (weigh_enqueue_le (if_neg fun ahead => incident ahead.1))
        (Or.inl (by rw [step, if_neg incident]; rfl)) rfl
      exact mem_enqueue.mpr (Or.inl (condition incident q opened r mem type left))
  | insertOther now entry =>
    by_cases incident : entry.entityType = .incident
    · exact advances_calm pending opened (by rw [step, if_pos incident, opened])
        (fun _ mem _ _ => mem) (Nat.le_refl _) (Or.inl (by rw [step, if_pos incident])) rfl
    · refine advances_calm pending opened (by rw [step, if_neg incident]; exact onQueue_db _)
        (fun r mem _ _ => AutoTable.mem_insert.mpr (Or.inl mem)) ?_
        (Or.inl (by rw [step, if_neg incident]; rfl)) rfl
      have light : weight p x ((entryItem now entry).make q.next) = 0 :=
        if_neg fun ahead => incident ahead.1
      rw [AutoTable.weigh_insert, light]
      exact Nat.le_refl _
  | otherDelivered row =>
    refine advances_calm pending opened (onQueue_db _) (fun r mem type _ => ?_) ?_
      (Or.inl rfl) rfl
    · split
      · rename_i foreign
        refine mem_remove.mpr ⟨mem, fun hit => ?_⟩
        exact isOther_row foreign mem (List.mem_singleton.mp hit) type
      · exact mem
    · split
      · exact AutoTable.weigh_keep_le _ _
      · exact Nat.le_refl _
  | otherFailed now row error =>
    refine advances_calm pending opened (onQueue_db _) (fun r mem type _ => ?_) ?_
      (Or.inl rfl) rfl
    · split
      · rename_i foreign
        obtain ⟨new, survives, _, _, kept⟩ := noteFailure_survivor now row error mem
        rwa [kept fun hit => isOther_row foreign mem hit type] at survives
      · exact mem
    · split
      · exact weigh_noteFailure_le p x q now row error
      · exact Nat.le_refl _
  | enforceQueueLimit =>
    exact advances_calm pending opened (onQueue_db _) (condition q opened)
      (weigh_enforceQueueLimit_le _ q) (Or.inl rfl) rfl
  | purgeFailed =>
    exact advances_calm pending opened (onQueue_db _)
      (fun r mem _ left => mem_purgeFailed.mpr ⟨mem, Or.inl left⟩)
      (AutoTable.weigh_keep_le _ _) (Or.inl rfl) rfl
  | restart =>
    exact advances_calm pending opened opened (fun _ mem _ _ => mem) (Nat.le_refl _)
      (Or.inr rfl) rfl

/-! Runs. -/

theorem flush_posts (pending : Pending f x s) {now : Nat} (due : x.nextRetryAt ≤ now) :
    (flushBegin s now none).flushing ≠ [] := by
  obtain ⟨q, opened, mem, _⟩ := pending.queue
  cases inFlight : s.flushing with
  | cons item rest => simp [flushBegin, opened, inFlight, pending.known.platform]
  | nil =>
    have begun : (flushBegin s now none).flushing =
        getPendingFor q now .incident incidentFlushBatch := by
      simp [flushBegin, opened, inFlight, pending.known.platform]
    rw [begun]
    intro empty
    have taken := length_firstBy incidentFlushBatch mostUrgentFirst (eligible q now .incident)
    have some := List.length_pos_of_mem
      (mem_eligible.mpr ⟨mem, pending.retryable, due, pending.incident⟩)
    change (getPendingFor q now .incident incidentFlushBatch).length = _ at taken
    have room : incidentFlushBatch = 20 := rfl
    rw [empty, List.length_nil] at taken
    omega

theorem others_delivered (known : Known f s) : OthersDelivered f s := by
  intro q p x later opened idle mem incident retryable other along
  have start : Pending f x s :=
    ⟨known, incident, retryable, ⟨q, opened, mem, by simp [idle]⟩, by rw [idle]; trivial⟩
  have progress := Runs.run_progress
    (fun s => s.standalone = false ∧ .of x ∈ s.delivered) (Pending f x) (potential p x) posts
    (fun s a reached => by
      have frame := step_frame f s a reached.1
      exact ⟨frame.1, frame.2 _ reached.2⟩)
    (fun s a pending condition => by
      rcases step_advances a pending other condition with done | more
      · exact Or.inl ⟨(step_frame f s a pending.known.platform).1, done⟩
      · exact Or.inr more)
    start along
  rcases progress with ⟨_, done⟩ | ⟨pending, paid⟩
  · exact Or.inl done
  · refine Or.inr ⟨?_, fun now due => flush_posts pending due⟩
    have bound : q.weigh (weight p x) ≤ q.size * defaultMaxAttempts :=
      AutoTable.weigh_le_size fun r member =>
        weight_le fun ahead => (known.written q opened r member ahead.1).maxAttempts
    rw [potential_some p x opened] at paid
    omega

/-- In every run from a new database: if its steps meet the condition no accepted incident is
    lost, and from the state reached an incident that is refused does not hold up the others. -/
theorem no_incident_lost_along {s₀ : State} (begins : Initial s₀) (as : List (Action J)) :
    (Runs.Along (step f) (KeepsIncidents f) s₀ as → NoneLost (Runs.run (step f) s₀ as)) ∧
      OthersDelivered f (Runs.run (step f) s₀ as) := by
  refine ⟨noneLost_along begins, others_delivered ?_⟩
  exact Runs.run_invariant (step_known f) (initial_known begins) as

def start : State :=
  { standalone := false, db := some (AutoTable.empty _), resumeAt := 0, flushing := [],
    accepted := [], delivered := [] }

theorem start_initial : Initial start := ⟨rfl, Or.inr rfl, rfl, rfl, rfl⟩

/-- JSON texts as they are; strings in quotes, without escapes. -/
def textJson : JsonFormat String where
  string s := "\"" ++ s ++ "\""
  number n := toString n
  object fields := "\x7b" ++
    ",".intercalate (fields.map fun field => "\"" ++ field.1 ++ "\":" ++ field.2) ++ "\x7d"
  toText v := v
  fromText text := .ok text
  toRfc3339 n := toString n
  reads v := ⟨v, rfl⟩

def canary : SecurityIncident String :=
  { incidentType := .malware, severity := .critical, title := "Ransomware canary touched",
    description := "", evidence := "null", confidence := 90, detectedAt := 0 }

def unreachable (now : Nat) : Report String :=
  { incident := canary, uuid := "i", asked := now, answered := now, answer := .timedOut,
    refusal := none }

def reportedTwice : List (Action String) :=
  [.report (unreachable 1), .flushBegin 2 none, .flushPost 2 .timedOut none,
    .report (unreachable 3), .flushBegin 9 none, .flushPost 9 (.response none) none]

theorem no_incident_lost_reported_twice :
    NoneLost (Runs.run (step textJson) start reportedTwice) := by
  refine (no_incident_lost_along start_initial reportedTwice).1 ⟨?_, trivial, ?_, ?_, trivial, ?_,
    trivial⟩
  · intro _ q opened r owed
    cases opened
    cases owed.mem
  · intro _ item rest batch _ q opened r owed _
    cases opened
    cases owed.mem with
    | head => decide
    | tail _ later => cases later
  · intro _ q opened r owed
    cases opened
    exact owed.mem
  · intro _ item rest batch failed
    obtain ⟨e, failed⟩ := failed
    cases batch
    cases failed

/-- The platform is away for ten flushes. -/
def outage : List (Action String) :=
  .report (unreachable 1) ::
    (List.range 10).flatMap (fun n =>
      [.flushBegin (4000 * (n + 1)) none, .flushPost (4000 * (n + 1)) .timedOut none])

theorem outage_loses_incident : ¬ NoneLost (Runs.run (step textJson) start outage) := by
  intro claimed
  have accepted : (Runs.run (step textJson) start outage).accepted ≠ [] := by decide
  obtain ⟨receipt, mem⟩ := List.exists_mem_of_ne_nil _ accepted
  rcases claimed receipt mem with done | ⟨q, opened, item, member, _, _, returned⟩
  · cases done
  · have exhausted : ∀ q, (Runs.run (step textJson) start outage).db = some q →
        ∀ item ∈ q.rows, ¬ item.Retryable := by
      intro q opened
      cases opened
      decide
    exact exhausted q opened item member (retryable_of_returnedLater returned)

end SentinelAgent.Core
