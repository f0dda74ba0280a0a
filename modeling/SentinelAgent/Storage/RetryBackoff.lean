import SentinelAgent.Storage.Grc

/-!
How long an item waits after a failed attempt. The wait doubles with each attempt up to one
hour; the power it is taken from has 64 bits, and from the 64th failure on it overflows.
-/
namespace SentinelAgent.Storage
open AutoTables

variable {q : SyncQueue} {item : SyncQueueItem}

/- Recording a failure succeeds and puts the next attempt off by so many seconds. -/
def Postpones (q : SyncQueue) (item : SyncQueueItem) (delay : Nat) : Prop :=
  ∀ now message, ∃ q', recordFailure q now item.id message = .ok q' ∧
    ∃ postponed ∈ q', postponed.id = item.id ∧ postponed.nextRetryAt = now + delay

/- A failure puts the item off, by two seconds at least and an hour at most, and no item with
   fewer attempts is put off for longer. -/
def BacksOff (q : SyncQueue) (item : SyncQueueItem) : Prop :=
  ∃ delay, Postpones q item delay ∧ 2 ≤ delay ∧ delay ≤ 3600 ∧
    ∀ q₂ : SyncQueue, ∀ earlier ∈ q₂, earlier.attempts ≤ item.attempts →
      ∀ shorter, Postpones q₂ earlier shorter → shorter ≤ delay

theorem retryDelay_bounds {attempts delay : Nat} (computed : retryDelay attempts = some delay) :
    2 ≤ delay ∧ delay ≤ 3600 := by
  unfold retryDelay at computed
  split at computed
  · have same := Option.some.inj computed
    have power : 2 ≤ 2 ^ (attempts + 1) := Nat.le_self_pow (Nat.succ_ne_zero attempts) 2
    omega
  · cases computed

theorem retryDelay_mono {fewer attempts shorter delay : Nat} (le : fewer ≤ attempts)
    (computed : retryDelay fewer = some shorter) (computed' : retryDelay attempts = some delay) :
    shorter ≤ delay := by
  unfold retryDelay at computed computed'
  split at computed
  · split at computed'
    · rw [← Option.some.inj computed, ← Option.some.inj computed']
      exact min_le_min_right 3600 (Nat.pow_le_pow_right (by decide) (Nat.succ_le_succ le))
    · cases computed'
  · cases computed

theorem recordFailure_delay {delay : Nat} (member : item ∈ q)
    (computed : retryDelay item.attempts = some delay) : Postpones q item delay := by
  intro now message
  have found : q.find item.id = some item := AutoTable.find_eq_some_iff.mpr ⟨member, rfl⟩
  refine ⟨q.update (failureEdit item.id now delay message), ?_,
    failedOnce now delay message item, ?_, rfl, rfl⟩
  · simp only [recordFailure, found, computed]
  · rw [AutoTable.mem_update]
    exact ⟨item, member, by simp [failureEdit]⟩

/- What is postponed is postponed by the delay of its attempts. -/
theorem postpones_delay {delay : Nat} (member : item ∈ q) (postpones : Postpones q item delay) :
    retryDelay item.attempts = some delay := by
  have found : q.find item.id = some item := AutoTable.find_eq_some_iff.mpr ⟨member, rfl⟩
  obtain ⟨q', recorded, postponed, member', same, wait⟩ := postpones 0 ""
  cases computed : retryDelay item.attempts with
  | none => simp only [recordFailure, found, computed] at recorded; cases recorded
  | some delay' =>
    obtain ⟨q'', recorded', other, member'', same', wait'⟩ :=
      recordFailure_delay member computed 0 ""
    rw [recorded] at recorded'
    cases recorded'
    have one := AutoTable.row_unique member' member'' (same.trans same'.symm)
    subst one
    congr 1
    omega

/-- A failure backs off exactly where the item has failed fewer than 63 times before. -/
theorem backs_off_iff (member : item ∈ q) : BacksOff q item ↔ item.attempts < 63 := by
  constructor
  · rintro ⟨delay, postpones, -⟩
    have computed := postpones_delay member postpones
    unfold retryDelay at computed
    split at computed
    · omega
    · cases computed
  · intro few
    have computed : retryDelay item.attempts = some (min (2 ^ (item.attempts + 1)) 3600) :=
      if_pos (by omega)
    obtain ⟨low, high⟩ := retryDelay_bounds computed
    refine ⟨_, recordFailure_delay member computed, low, high, ?_⟩
    intro q₂ earlier member' fewer shorter postpones
    exact retryDelay_mono fewer (postpones_delay member' postpones) computed

/- Another client computes its wait with saturating arithmetic, and there nothing overflows. -/
def saturating (n : Nat) : Nat := min n (2 ^ 64 - 1)

def initialRetryDelaySecs : Nat := 1
def maxRetryDelaySecs : Nat := 3600

def calculateNextRetry (now attempts : Nat) : Nat :=
  now + min (saturating (initialRetryDelaySecs * saturating (2 ^ attempts))) maxRetryDelaySecs

theorem saturating_backoff (now : Nat) {fewer attempts : Nat} (le : fewer ≤ attempts) :
    now + initialRetryDelaySecs ≤ calculateNextRetry now fewer ∧
      calculateNextRetry now fewer ≤ calculateNextRetry now attempts ∧
      calculateNextRetry now attempts ≤ now + maxRetryDelaySecs := by
  have grows : 2 ^ fewer ≤ 2 ^ attempts := Nat.pow_le_pow_right (by decide) le
  have positive : 1 ≤ 2 ^ fewer := Nat.one_le_two_pow
  simp only [calculateNextRetry, saturating, initialRetryDelaySecs, maxRetryDelaySecs]
  omega

/-! A deletion that the platform does not answer. -/

def deletionQueued : SyncQueue :=
  (AutoTable.empty SyncQueueItem.id).insert (tombstoneItem 0 .playbookDelete "playbook")

def failedTimes (n : Nat) : SyncQueue := (noteFailure · 0 1 "unreachable")^[n] deletionQueued

theorem backs_off_first : ∃ item ∈ deletionQueued, BacksOff deletionQueued item := by
  have member : (tombstoneItem 0 .playbookDelete "playbook").make 1 ∈ deletionQueued := by
    rw [deletionQueued, AutoTable.mem_insert]
    exact .inr rfl
  exact ⟨_, member, (backs_off_iff member).mpr (by decide)⟩

theorem failed_63_times : ∃ item ∈ (failedTimes 63).rows, item.attempts = 63 ∧ item.Retryable ∧
    item.maxAttempts = i32Max := by decide +kernel

/- Its 64th failure is not recorded: the power does not fit 64 bits. -/
theorem deletion_overflows : ∃ item ∈ failedTimes 63, item.Retryable ∧
    item.maxAttempts = i32Max ∧
    (∀ now message, recordFailure (failedTimes 63) now item.id message =
      .error (.overflow "attempt to multiply with overflow")) ∧
    ¬ BacksOff (failedTimes 63) item := by
  obtain ⟨item, row, attempts, retryable, bounded⟩ := failed_63_times
  have member : item ∈ failedTimes 63 := row
  have found : (failedTimes 63).find item.id = some item :=
    AutoTable.find_eq_some_iff.mpr ⟨member, rfl⟩
  have overflows : retryDelay item.attempts = none := by
    have many : ¬ item.attempts + 1 < 64 := by omega
    exact if_neg many
  refine ⟨item, member, retryable, bounded, ?_, ?_⟩
  · intro now message
    simp only [recordFailure, found, overflows]
  · rintro ⟨delay, postpones, -⟩
    have computed := postpones_delay member postpones
    rw [overflows] at computed
    cases computed

end SentinelAgent.Storage
