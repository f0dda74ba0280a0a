import Mathlib.Data.List.Induction
import SentinelAgent.Storage.SyncQueue

/-!
Which items a full queue gives up for a new one, and how many are left. The new item always
enters, whatever its priority.
-/
namespace SentinelAgent.Storage
open AutoTables

variable {q : SyncQueue}

theorem oldestFirst_total (a b : SyncQueueItem) :
    oldestFirst a b = true ∨ oldestFirst b a = true := by
  simp only [oldestFirst, decide_eq_true_eq]
  omega

theorem oldestFirst_trans (a b c : SyncQueueItem) (ab : oldestFirst a b = true)
    (bc : oldestFirst b c = true) : oldestFirst a c = true := by
  simp only [oldestFirst, decide_eq_true_eq] at ab bc ⊢
  omega

theorem leastUrgentFirst_total (a b : SyncQueueItem) :
    leastUrgentFirst a b = true ∨ leastUrgentFirst b a = true := by
  simp only [leastUrgentFirst, decide_eq_true_eq]
  omega

theorem leastUrgentFirst_trans (a b c : SyncQueueItem) (ab : leastUrgentFirst a b = true)
    (bc : leastUrgentFirst b c = true) : leastUrgentFirst a c = true := by
  simp only [leastUrgentFirst, decide_eq_true_eq] at ab bc ⊢
  omega

/- What goes before what: items of priority 0 before all others, then the less urgent before the
   more urgent, and of two of one priority the older one. -/
structure GoesBefore (gone stays : SyncQueueItem) : Prop where
  urgency : gone.priority ≤ stays.priority ∨ gone.priority = 0
  age : gone.priority = stays.priority → gone.createdAt ≤ stays.createdAt

/- The rows of a selection that one pass takes. -/
theorem taken_before {n : Nat} {le : SyncQueueItem → SyncQueueItem → Bool}
    {p : SyncQueueItem → Bool} (total : ∀ a b, le a b = true ∨ le b a = true)
    (trans : ∀ a b c, le a b = true → le b c = true → le a c = true)
    {gone stays : SyncQueueItem} (taken : gone ∈ firstBy n le (q.rows.filter p))
    (member : stays ∈ q) (selected : p stays = true)
    (left : stays ∈ q.removeRows (firstBy n le (q.rows.filter p))) : le gone stays = true :=
  firstBy_le_rest total trans taken (List.mem_filter.mpr ⟨member, selected⟩)
    (mem_of_mem_removeChosen.mp left).2

theorem taken_of_gone {n : Nat} {le : SyncQueueItem → SyncQueueItem → Bool}
    {p : SyncQueueItem → Bool} {r : SyncQueueItem} (queued : r ∈ q)
    (gone : r ∉ q.removeRows (firstBy n le (q.rows.filter p))) :
    r ∈ firstBy n le (q.rows.filter p) := by
  by_contra spared
  exact gone (mem_of_mem_removeChosen.mpr ⟨queued, spared⟩)

/- The first pass: the oldest of the items of priority 0. -/
def lowItems (q : SyncQueue) (excess : Nat) : List SyncQueueItem :=
  firstBy excess oldestFirst
    (q.rows.filter (fun r => decide (r.priority = 0) && !r.entityType.isDeletion))

theorem evict_eq (q : SyncQueue) (excess : Nat) : evict q excess =
    if 0 < excess - (lowItems q excess).length then
      evictLeastUrgent (q.removeRows (lowItems q excess)) (excess - (lowItems q excess).length)
    else q.removeRows (lowItems q excess) := rfl

theorem low_order {excess : Nat} {gone stays : SyncQueueItem} (taken : gone ∈ lowItems q excess)
    (member : stays ∈ q) (left : stays ∈ q.removeRows (lowItems q excess))
    (evictable : stays.entityType.isDeletion = false) : GoesBefore gone stays := by
  have zero : gone.priority = 0 := by
    have selected := (List.mem_filter.mp (mem_of_mem_firstBy taken)).2
    simp only [Bool.and_eq_true, decide_eq_true_eq] at selected
    exact selected.1
  refine ⟨.inr zero, fun same => ?_⟩
  have before := taken_before oldestFirst_total oldestFirst_trans taken member
    (by simp [← same, zero, evictable]) left
  simpa [oldestFirst] using before

theorem leastUrgent_order {excess : Nat} {gone stays : SyncQueueItem} (queued : gone ∈ q)
    (evicted : gone ∉ evictLeastUrgent q excess) (member : stays ∈ q)
    (left : stays ∈ evictLeastUrgent q excess)
    (evictable : stays.entityType.isDeletion = false) : GoesBefore gone stays := by
  have before := taken_before leastUrgentFirst_total leastUrgentFirst_trans
    (taken_of_gone queued evicted) member (by simp [evictable]) left
  simp only [leastUrgentFirst, decide_eq_true_eq] at before
  exact ⟨by omega, by omega⟩

/-- All that is evicted goes before what could have been evicted and stays. -/
theorem evict_order {excess : Nat} {gone stays : SyncQueueItem} (queued : gone ∈ q)
    (evicted : gone ∉ evict q excess) (member : stays ∈ q) (left : stays ∈ evict q excess)
    (evictable : stays.entityType.isDeletion = false) : GoesBefore gone stays := by
  rw [evict_eq] at evicted left
  split at evicted
  · rename_i more
    rw [if_pos more] at left
    obtain ⟨kept, -⟩ := mem_of_mem_removeChosen.mp left
    by_cases first : gone ∈ q.removeRows (lowItems q excess)
    · exact leastUrgent_order first evicted kept left evictable
    · exact low_order (taken_of_gone queued first) member kept evictable
  · rename_i enough
    rw [if_neg enough] at left
    exact low_order (taken_of_gone queued evicted) member left evictable

/-! How many are left. -/

def deletions (q : SyncQueue) : Nat := (q.rows.filter (·.entityType.isDeletion)).length

def evictables (q : SyncQueue) : Nat := (q.rows.filter (!·.entityType.isDeletion)).length

theorem size_split (q : SyncQueue) : q.size = deletions q + evictables q := by
  have parts := List.length_eq_length_filter_add (l := q.rows) (·.entityType.isDeletion)
  exact parts

theorem size_removeChosen (n : Nat) (le : SyncQueueItem → SyncQueueItem → Bool)
    (p : SyncQueueItem → Bool) :
    (q.removeRows (firstBy n le (q.rows.filter p))).size + min n (q.rows.filter p).length =
      q.size := by
  rw [← length_firstBy n le]
  apply AutoTable.size_removeRows
  · intro x chosen
    exact (List.mem_filter.mp (mem_of_mem_firstBy chosen)).1
  · exact firstBy_keys_nodup ((AutoTable.keys_nodup q).sublist (List.filter_sublist.map _))

/- A pass that takes no deletions leaves all of them. -/
theorem deletions_removeChosen (n : Nat) (le : SyncQueueItem → SyncQueueItem → Bool)
    {p : SyncQueueItem → Bool} (spares : ∀ r, r.entityType.isDeletion = true → p r = false) :
    deletions (q.removeRows (firstBy n le (q.rows.filter p))) = deletions q := by
  unfold deletions
  have same : (q.removeRows (firstBy n le (q.rows.filter p))).rows.filter
      (·.entityType.isDeletion) = q.rows.filter (·.entityType.isDeletion) := by
    change (q.rows.filter _).filter _ = _
    rw [List.filter_filter]
    refine List.filter_congr fun r member => ?_
    cases deletion : r.entityType.isDeletion with
    | false => rfl
    | true =>
      have kept : r ∈ q.removeRows (firstBy n le (q.rows.filter p)) :=
        spared_of_not_chosen member (spares r deletion)
      exact (Bool.and_eq_true_iff.mpr ⟨rfl, (List.mem_filter.mp kept).2⟩)
  rw [same]

theorem deletions_low (excess : Nat) :
    deletions (q.removeRows (lowItems q excess)) = deletions q :=
  deletions_removeChosen _ _ fun r deletion => by simp [deletion]

theorem size_evictLeastUrgent (excess : Nat) :
    (evictLeastUrgent q excess).size + min excess (evictables q) = q.size :=
  size_removeChosen _ _ _

/- Room is made, unless only deletions are left. -/
theorem size_evict (excess : Nat) :
    (evict q excess).size ≤ max (q.size - excess) (deletions q) := by
  have first : (q.removeRows (lowItems q excess)).size + (lowItems q excess).length = q.size := by
    rw [lowItems, length_firstBy]
    exact size_removeChosen _ _ _
  rw [evict_eq]
  split
  · have second := size_evictLeastUrgent (q := q.removeRows (lowItems q excess))
      (excess - (lowItems q excess).length)
    have parts := size_split (q.removeRows (lowItems q excess))
    rw [deletions_low] at parts
    omega
  · omega

/- What was queued is queued afterwards where room was made without it. -/
theorem queued_enqueue {now : Nat} {e : SyncQueueEntry} {r : SyncQueueItem} (queued : r ∈ q) :
    r ∈ (enqueue q now e).1 ↔ r ∈ makeRoom q := by
  rw [mem_enqueue]
  refine or_iff_left fun new => ?_
  have old := AutoTable.key_lt_next queued
  rw [new, (entryItem now e).keyed] at old
  exact lt_irrefl _ old

/-- Room is made of what is least urgent and oldest and no deletion, items of priority 0 first;
    and there are no more items than the limit, or than the deletions and the new item. -/
theorem enqueue_evicts (q : SyncQueue) (now : Nat) (e : SyncQueueEntry) :
    (∀ gone ∈ q, gone ∉ (enqueue q now e).1 → gone.entityType.isDeletion = false ∧
      ∀ stays ∈ q, stays ∈ (enqueue q now e).1 → stays.entityType.isDeletion = false →
        GoesBefore gone stays) ∧
    (enqueue q now e).1.size ≤ max maxSyncQueueSize (deletions q + 1) := by
  constructor
  · intro gone queued evicted
    have evicted' : gone ∉ makeRoom q := fun kept => evicted ((queued_enqueue queued).mpr kept)
    have no_deletion : gone.entityType.isDeletion = false := by
      by_contra deletion
      exact evicted' (makeRoom_spares_deletions queued (by simpa using deletion))
    refine ⟨no_deletion, fun stays member left evictable => ?_⟩
    have left' : stays ∈ makeRoom q := (queued_enqueue member).mp left
    unfold makeRoom at evicted' left'
    split at evicted'
    · rename_i full
      rw [if_pos full] at left'
      exact evict_order queued evicted' member left' evictable
    · exact absurd queued evicted'
  · rw [enqueue, AutoTable.size_insert, makeRoom]
    split
    · have room := size_evict (q := q) (q.size - maxSyncQueueSize + 1)
      omega
    · omega

/-! What a full queue gives up although it is more urgent than what is in it afterwards. -/

def fill (entries : List SyncQueueEntry) : SyncQueue :=
  entries.foldl (fun q e => (enqueue q 0 e).1) (AutoTable.empty SyncQueueItem.id)

/- Up to the limit every entry has its item. -/
theorem fill_items (entries : List SyncQueueEntry) (few : entries.length ≤ maxSyncQueueSize) :
    (fill entries).rows.map (fun r => (r.priority, r.entityType)) =
      entries.map fun e => (e.priority, e.entityType) := by
  induction entries using List.reverseRecOn with
  | nil => rfl
  | append_singleton entries e ih =>
    rw [List.length_append, List.length_singleton] at few
    have before := ih (by omega)
    have size : (fill entries).size = entries.length := by
      simpa [AutoTable.size] using congrArg List.length before
    have room : makeRoom (fill entries) = fill entries := if_neg (by omega)
    have step : fill (entries ++ [e]) = (fill entries).insert (entryItem 0 e) := by
      rw [fill, List.foldl_append]
      change (makeRoom (fill entries)).insert _ = _
      rw [room]
    rw [step, AutoTable.insert, List.map_append, before, List.map_append]
    rfl

theorem fill_size (entries : List SyncQueueEntry) (few : entries.length ≤ maxSyncQueueSize) :
    (fill entries).size = entries.length := by
  simpa [AutoTable.size] using congrArg List.length (fill_items entries few)

def heartbeatEntry (priority : Int) : SyncQueueEntry :=
  (SyncQueueEntry.new .heartbeat "agent" "\x7b\x7d").withPriority priority

/- A queue full of urgent items, and one of items of priority -1 with a last one of priority 0. -/
def urgentQueue : SyncQueue := fill (List.replicate maxSyncQueueSize (heartbeatEntry 5))

def negativeQueue : SyncQueue :=
  fill (List.replicate (maxSyncQueueSize - 1) (heartbeatEntry (-1)) ++ [heartbeatEntry 0])

theorem fill_mem {entries : List SyncQueueEntry} (few : entries.length ≤ maxSyncQueueSize)
    {r : SyncQueueItem} (member : r ∈ fill entries) :
    ∃ e ∈ entries, r.priority = e.priority ∧ r.entityType = e.entityType := by
  have listed : (r.priority, r.entityType) ∈ entries.map fun e => (e.priority, e.entityType) := by
    rw [← fill_items entries few]
    exact List.mem_map_of_mem member
  obtain ⟨e, entered, same⟩ := List.mem_map.mp listed
  exact ⟨e, entered, (Prod.mk.inj same).1.symm, (Prod.mk.inj same).2.symm⟩

theorem fill_entered {entries : List SyncQueueEntry} (few : entries.length ≤ maxSyncQueueSize)
    {e : SyncQueueEntry} (entered : e ∈ entries) :
    ∃ r ∈ fill entries, r.priority = e.priority ∧ r.entityType = e.entityType := by
  have listed : (e.priority, e.entityType) ∈
      (fill entries).rows.map fun r => (r.priority, r.entityType) := by
    rw [fill_items entries few]
    exact List.mem_map_of_mem entered
  obtain ⟨r, member, same⟩ := List.mem_map.mp listed
  exact ⟨r, member, (Prod.mk.inj same).1, (Prod.mk.inj same).2⟩

theorem gone_of_smaller {left : SyncQueue} (smaller : left.size < q.size) :
    ∃ gone ∈ q, gone ∉ left := by
  by_contra none
  push Not at none
  have within : q.rows ⊆ left.rows := fun r member => none r member
  have nodup : q.rows.Nodup := (AutoTable.keys_nodup q).of_map
  exact absurd (List.subperm_of_subset nodup within).length_le (Nat.not_le.mpr smaller)

theorem makeRoom_full (full : q.size = maxSyncQueueSize) : makeRoom q = evict q 1 := by
  rw [makeRoom, if_pos full.ge, full, Nat.sub_self]

/- An item of priority 5 is evicted for one of priority 0. -/
theorem urgent_gone : ∃ gone ∈ urgentQueue,
    gone ∉ (enqueue urgentQueue 0 (heartbeatEntry 0)).1 ∧ gone.priority = 5 := by
  have few : (List.replicate maxSyncQueueSize (heartbeatEntry 5)).length ≤ maxSyncQueueSize :=
    (List.length_replicate ..).le
  have full : urgentQueue.size = maxSyncQueueSize :=
    (fill_size _ few).trans (List.length_replicate ..)
  have items : ∀ r ∈ urgentQueue, r.priority = 5 ∧ r.entityType = .heartbeat := by
    intro r member
    obtain ⟨e, entered, priority, type⟩ := fill_mem few member
    rw [List.eq_of_mem_replicate entered] at priority type
    exact ⟨priority, type⟩
  have no_deletions : deletions urgentQueue = 0 := by
    rw [deletions, List.length_eq_zero_iff, List.filter_eq_nil_iff]
    intro r member
    rw [(items r member).2]
    decide
  have smaller : (makeRoom urgentQueue).size < urgentQueue.size := by
    rw [makeRoom_full full]
    have room := size_evict (q := urgentQueue) 1
    rw [full, no_deletions] at room
    rw [full]
    have limit : maxSyncQueueSize = 10000 := rfl
    omega
  obtain ⟨gone, queued, evicted⟩ := gone_of_smaller smaller
  exact ⟨gone, queued, fun kept => evicted ((queued_enqueue queued).mp kept),
    (items gone queued).1⟩

/- An item of priority 0 is evicted where one of priority -1 stays. -/
theorem zero_gone : ∃ gone ∈ negativeQueue,
    gone ∉ (enqueue negativeQueue 0 (heartbeatEntry 0)).1 ∧ gone.priority = 0 ∧
    ∃ stays ∈ negativeQueue, stays ∈ (enqueue negativeQueue 0 (heartbeatEntry 0)).1 ∧
      stays.priority = -1 ∧ stays.entityType.isDeletion = false := by
  have length : (List.replicate (maxSyncQueueSize - 1) (heartbeatEntry (-1)) ++
      [heartbeatEntry 0]).length = maxSyncQueueSize := by
    rw [List.length_append, List.length_replicate]
    rfl
  have full : negativeQueue.size = maxSyncQueueSize := (fill_size _ length.le).trans length
  obtain ⟨zero, queued, priority, type⟩ := fill_entered length.le
    (List.mem_append_right _ (List.mem_singleton_self (heartbeatEntry 0)))
  obtain ⟨stays, member, negative, type'⟩ := fill_entered length.le
    (List.mem_append_left _ (List.mem_replicate.mpr ⟨by decide, rfl⟩))
  have selected : zero ∈ negativeQueue.rows.filter
      (fun r => decide (r.priority = 0) && !r.entityType.isDeletion) := by
    refine List.mem_filter.mpr ⟨queued, ?_⟩
    rw [priority, type]
    decide
  have one : (lowItems negativeQueue 1).length = 1 := by
    rw [lowItems, length_firstBy]
    exact min_eq_left (List.length_pos_of_mem selected)
  have room : makeRoom negativeQueue = negativeQueue.removeRows (lowItems negativeQueue 1) := by
    rw [makeRoom_full full, evict_eq, one]
    rfl
  obtain ⟨gone, taken⟩ := List.exists_mem_of_length_pos (one.symm ▸ Nat.one_pos)
  have low : ∀ r ∈ lowItems negativeQueue 1, r ∈ negativeQueue ∧ r.priority = 0 := by
    intro r taken
    have selected := List.mem_filter.mp (mem_of_mem_firstBy taken)
    simp only [Bool.and_eq_true, decide_eq_true_eq] at selected
    exact ⟨selected.1, selected.2.1⟩
  obtain ⟨queued', zero'⟩ := low gone taken
  refine ⟨gone, queued', ?_, zero', stays, member, ?_, negative, by rw [type']; decide⟩
  · rw [queued_enqueue queued', room]
    exact fun kept => (mem_of_mem_removeChosen.mp kept).2 taken
  · rw [queued_enqueue (q := negativeQueue) member, room]
    refine mem_of_mem_removeChosen.mpr ⟨member, fun taken => ?_⟩
    have same := (low stays taken).2
    rw [negative] at same
    exact absurd same (by decide)

theorem enqueue_evicts_zero : ∃ gone ∈ negativeQueue, ∃ stays ∈ negativeQueue,
    stays.priority < gone.priority ∧ gone.entityType.isDeletion = false ∧
      GoesBefore gone stays := by
  obtain ⟨gone, queued, evicted, zero, stays, member, left, negative, evictable⟩ := zero_gone
  obtain ⟨no_deletion, before⟩ :=
    (enqueue_evicts negativeQueue 0 (heartbeatEntry 0)).1 gone queued evicted
  exact ⟨gone, queued, stays, member, by omega, no_deletion,
    before stays member left evictable⟩

theorem urgent_evicted : (∃ gone ∈ urgentQueue,
      gone ∉ (enqueue urgentQueue 0 (heartbeatEntry 0)).1 ∧ gone.priority = 5 ∧
      ∃ entered ∈ (enqueue urgentQueue 0 (heartbeatEntry 0)).1, entered.priority = 0 ∧
        entered.entityType.isDeletion = false) ∧
    ∃ gone ∈ negativeQueue, gone ∉ (enqueue negativeQueue 0 (heartbeatEntry 0)).1 ∧
      gone.priority = 0 ∧ ∃ stays ∈ negativeQueue,
        stays ∈ (enqueue negativeQueue 0 (heartbeatEntry 0)).1 ∧ stays.priority = -1 ∧
        stays.entityType.isDeletion = false := by
  obtain ⟨gone, queued, evicted, urgent⟩ := urgent_gone
  exact ⟨⟨gone, queued, evicted, urgent, _, mem_enqueue.mpr (.inr rfl), rfl, rfl⟩, zero_gone⟩

end SentinelAgent.Storage
