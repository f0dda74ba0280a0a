import SentinelAgent.Sync.ResultUpload

/-!
What becomes of the rows of the table over any number of calls. A server that accepts or
refuses each measurement by a fixed rule takes the accepted rows of every batch; the refused
ones stand in the same place of the next query, and enough of them hide all younger rows.
-/
namespace SentinelAgent.ResultUpload
open AutoTables Oldest Runs SentinelAgent.CheckResults

variable {V : Type} (f : Formats V) (d : Lookups) (accept : CheckResultPayload V → Bool)

def accepts (row : CheckResultRow) : Bool := accept (payloadOf f d (rowToCheckResult row))

/- A server that names what it accepts. -/
def respond (payloads : List (CheckResultPayload V)) : ResultUploadResponse where
  accepted := payloads.countP accept
  acceptedResultIds := some ((payloads.filter accept).map CheckResultPayload.resultId)
  rejected := payloads.countP fun payload => !accept payload

def answered (batch : List CheckResultRow) : Upload where
  batch := batch
  answer := some (respond accept ((batch.map rowToCheckResult).map (payloadOf f d)))

def callStep (t : CheckResultsTable) (batch : List CheckResultRow) : CheckResultsTable :=
  uploadStep f t (answered f d accept batch)

/-- As many calls as there are unsynced rows leave every accepted row synced, in whatever
    order the database gives rows of one second. -/
def ReachesPlatform (t : CheckResultsTable) : Prop :=
  ∀ batches, Along (callStep f d accept) (GetUnsynced maxBatchSize) t batches →
    (unsynced t).length ≤ batches.length →
      ∀ row ∈ run (callStep f d accept) t batches,
        accepts f d accept row = true → row.synced = true

/-- Before each accepted row fewer than a batch of unsynced rows are refused. -/
def NotStarved (t : CheckResultsTable) : Prop :=
  NotBlocked (accepts f d accept) CheckResultRow.executedAt maxBatchSize (unsynced t)

instance (t : CheckResultsTable) : Decidable (NotStarved f d accept t) :=
  inferInstanceAs (Decidable (NotBlocked _ _ _ _))

/-- The digest tells the measurements of the table apart. -/
def DigestsApart (t : CheckResultsTable) : Prop :=
  ∀ a ∈ t, ∀ b ∈ t, measurementId f (rowToCheckResult a) = measurementId f (rowToCheckResult b) →
    measurementText f (rowToCheckResult a) = measurementText f (rowToCheckResult b)

/-- The server named the row's own measurement, or took the whole batch without naming any. -/
def Acknowledged (row : CheckResultRow) (u : Upload) : Prop :=
  row.id ∈ u.batch.map CheckResultRow.id ∧ ∃ response, u.answer = some response ∧
    match response.acceptedResultIds with
    | some ids => measurementId f (rowToCheckResult row) ∈ ids
    | none => response.rejected = 0 ∧ response.accepted = u.batch.length

variable {f d accept} {t : CheckResultsTable} {batch : List CheckResultRow}

/-- One row a measurement. -/
theorem measurement_unique (apart : DigestsApart f t) {a b : CheckResultRow} (here : a ∈ t)
    (there : b ∈ t)
    (same : measurementId f (rowToCheckResult a) = measurementId f (rowToCheckResult b)) :
    a = b :=
  AutoTable.row_unique here there (measurementText_injective (apart a here b there same))

/-- A row of the table after a call is one of the table before it, marked or not. -/
theorem row_kept {u : Upload} {row : CheckResultRow} (member : row ∈ uploadStep f t u) :
    ∃ old ∈ t, old.id = row.id ∧
      measurementText f (rowToCheckResult old) = measurementText f (rowToCheckResult row) := by
  rw [uploadStep_eq, mem_markSynced] at member
  obtain ⟨old, there, rfl⟩ := member
  refine ⟨old, there, ?_⟩
  split
  · exact ⟨rfl, rfl⟩
  · exact ⟨rfl, rfl⟩

theorem row_kept_run (us : List Upload) {row : CheckResultRow}
    (member : row ∈ run (uploadStep f) t us) :
    ∃ old ∈ t, old.id = row.id ∧
      measurementText f (rowToCheckResult old) = measurementText f (rowToCheckResult row) := by
  induction us generalizing t with
  | nil => exact ⟨row, member, rfl, rfl⟩
  | cons u us ih =>
    obtain ⟨later, there, number, text⟩ := ih member
    obtain ⟨old, first, number', text'⟩ := row_kept there
    exact ⟨old, first, number'.trans number, text'.trans text⟩

theorem digestsApart_step (apart : DigestsApart f t) (u : Upload) :
    DigestsApart f (uploadStep f t u) := by
  intro a here b there same
  obtain ⟨oldA, hereA, _, textA⟩ := row_kept here
  obtain ⟨oldB, thereB, _, textB⟩ := row_kept there
  rw [← textA, ← textB]
  apply apart oldA hereA oldB thereB
  rwa [measurementId, measurementId, textA, textB]

@[simp] theorem resultId_payloadOf (result : CheckResult) :
    (payloadOf f d result).resultId = measurementId f result := by
  unfold payloadOf CheckResultPayload.withProof CheckResultPayload.withRule
  split <;> split <;> rfl

theorem filterMap_id (rows : List CheckResultRow) :
    (rows.map rowToCheckResult).filterMap CheckResult.id = rows.map CheckResultRow.id := by
  induction rows with
  | nil => rfl
  | cons row rows ih => rw [List.map_cons, List.filterMap_cons, ih]; rfl

/-- Which rows of a batch an answer acknowledges. -/
theorem mem_acknowledgedIds {response : ResultUploadResponse} {id : Nat} :
    id ∈ acknowledgedIds f (batch.map rowToCheckResult) response ↔
      ∃ row ∈ batch, row.id = id ∧
        match response.acceptedResultIds with
        | some ids => measurementId f (rowToCheckResult row) ∈ ids
        | none => response.rejected = 0 ∧ response.accepted = batch.length := by
  unfold acknowledgedIds
  cases response.acceptedResultIds with
  | some ids =>
    simp only [List.filter_map, filterMap_id, List.mem_map, List.mem_filter, Function.comp_apply,
      List.contains_iff_mem]
    constructor
    · rintro ⟨row, ⟨member, named⟩, same⟩
      exact ⟨row, member, same, named⟩
    · rintro ⟨row, member, same, named⟩
      exact ⟨row, ⟨member, named⟩, same⟩
  | none =>
    simp only [filterMap_id, List.length_map]
    split
    · rename_i all
      simp [all]
    · rename_i some_refused
      simp [some_refused]

/-- Of a batch the naming server's rows are the accepted ones. -/
theorem mem_acknowledgedIds_respond (apart : DigestsApart f t) (within : ∀ row ∈ batch, row ∈ t)
    {row : CheckResultRow} (member : row ∈ t) :
    row.id ∈ acknowledgedIds f (batch.map rowToCheckResult)
        (respond accept ((batch.map rowToCheckResult).map (payloadOf f d))) ↔
      accepts f d accept row = true ∧ row ∈ batch := by
  have named : ∀ text, text ∈ (((batch.map rowToCheckResult).map (payloadOf f d)).filter
      accept).map CheckResultPayload.resultId ↔
      ∃ q ∈ batch, accepts f d accept q = true ∧ measurementId f (rowToCheckResult q) = text := by
    intro text
    simp only [List.map_map, List.filter_map, List.mem_map, List.mem_filter, Function.comp_apply,
      resultId_payloadOf, accepts, and_assoc]
  rw [mem_acknowledgedIds]
  simp only [respond, named]
  constructor
  · rintro ⟨other, carried, number, q, taken, accepted, same⟩
    have here := AutoTable.row_unique (within other carried) member number
    have there := measurement_unique apart (within q taken) (within other carried) same
    rw [there, here] at accepted
    rw [here] at carried
    exact ⟨accepted, carried⟩
  · rintro ⟨accepted, carried⟩
    exact ⟨row, carried, rfl, row, carried, accepted, rfl⟩

/-- A call with a naming server hands the accepted rows of the batch over. -/
theorem unsynced_callStep (apart : DigestsApart f t) (taken : GetUnsynced maxBatchSize t batch) :
    unsynced (callStep f d accept t batch) =
      handOver (accepts f d accept) (unsynced t) batch := by
  have within : ∀ row ∈ batch, row ∈ t := fun row member =>
    (mem_unsynced.mp (taken.within row member)).1
  rw [callStep, uploadStep_eq, answered, Option.map_some, Option.getD_some, unsynced_markSynced,
    handOver]
  apply List.filter_congr
  intro row member
  rw [Bool.eq_iff_iff, decide_eq_true_iff, mem_acknowledgedIds_respond apart within
    (mem_unsynced.mp member).1]
  cases accepts f d accept row <;> simp

/-- The calls of a run are the batches of a run of the queue. -/
theorem calls_refine (d : Lookups) (accept : CheckResultPayload V → Bool)
    (apart : DigestsApart f t) (batches : List (List CheckResultRow)) :
    (Along (callStep f d accept) (GetUnsynced maxBatchSize) t batches ↔
      Along (handOver (accepts f d accept)) (Taken CheckResultRow.executedAt maxBatchSize)
        (unsynced t) batches) ∧
    (Along (callStep f d accept) (GetUnsynced maxBatchSize) t batches →
      unsynced (run (callStep f d accept) t batches) =
        run (handOver (accepts f d accept)) (unsynced t) batches) := by
  induction batches generalizing t with
  | nil => exact ⟨Iff.rfl, fun _ => rfl⟩
  | cons batch batches ih =>
    obtain ⟨along, same⟩ := ih (digestsApart_step apart (answered f d accept batch))
    have first : ∀ taken : GetUnsynced maxBatchSize t batch,
        unsynced (uploadStep f t (answered f d accept batch)) =
          handOver (accepts f d accept) (unsynced t) batch := unsynced_callStep apart
    constructor
    · constructor
      · rintro ⟨taken, rest⟩
        have later := along.mp rest
        rw [first taken] at later
        exact ⟨taken, later⟩
      · rintro ⟨taken, rest⟩
        rw [← first taken] at rest
        exact ⟨taken, along.mpr rest⟩
    · rintro ⟨taken, rest⟩
      have later := same rest
      rw [first taken] at later
      exact later

theorem reachesPlatform_iff (apart : DigestsApart f t) :
    ReachesPlatform f d accept t ↔ NotStarved f d accept t := by
  rw [NotStarved, ← allHandedOver_iff (unsynced_nodup t)]
  constructor
  · intro reaches batches along enough row member
    obtain ⟨same_calls, same⟩ := calls_refine d accept apart batches
    have calls := same_calls.mpr along
    rw [← same calls] at member
    obtain ⟨there, waits⟩ := mem_unsynced.mp member
    refine Bool.eq_false_iff.mpr fun accepted => ?_
    rw [reaches batches calls enough row there accepted] at waits
    exact Bool.noConfusion waits
  · intro handed batches calls enough row member accepted
    obtain ⟨same_calls, same⟩ := calls_refine d accept apart batches
    by_contra not_synced
    have waits : row ∈ unsynced (run (callStep f d accept) t batches) :=
      mem_unsynced.mpr ⟨member, Bool.eq_false_iff.mpr not_synced⟩
    rw [same calls] at waits
    rw [handed batches (same_calls.mp calls) enough row waits] at accepted
    exact Bool.noConfusion accepted

/-- A call marks what its answer acknowledged. -/
theorem marked_by_call {u : Upload} {row : CheckResultRow}
    (taken : GetUnsynced maxBatchSize t u.batch) (member : row ∈ uploadStep f t u)
    (marked : row.synced = true) :
    (∃ old ∈ t, old.id = row.id ∧ old.synced = true) ∨ Acknowledged f row u := by
  rw [uploadStep_eq, mem_markSynced] at member
  obtain ⟨old, there, rfl⟩ := member
  split at marked
  · rename_i named
    right
    rw [if_pos named]
    cases answer : u.answer with
    | none =>
      rw [answer] at named
      cases named
    | some response =>
      rw [answer, Option.map_some, Option.getD_some, mem_acknowledgedIds] at named
      obtain ⟨carried, member, number, acknowledged⟩ := named
      have same := AutoTable.row_unique (mem_unsynced.mp (taken.within carried member)).1 there
        number
      rw [same] at member acknowledged
      exact ⟨List.mem_map.mpr ⟨old, member, rfl⟩, response, answer, acknowledged⟩
  · rename_i unnamed
    left
    rw [if_neg unnamed]
    exact ⟨old, there, rfl, marked⟩

theorem marked_by_run {us : List Upload} {row : CheckResultRow}
    (along : Along (uploadStep f) (fun t u => GetUnsynced maxBatchSize t u.batch) t us)
    (member : row ∈ run (uploadStep f) t us) (marked : row.synced = true) :
    (∃ old ∈ t, old.id = row.id ∧ old.synced = true) ∨ ∃ u ∈ us, Acknowledged f row u := by
  induction us generalizing t with
  | nil => exact Or.inl ⟨row, member, rfl, marked⟩
  | cons u us ih =>
    rcases ih along.2 member with ⟨old, there, number, synced⟩ | ⟨later, called, acknowledged⟩
    · rcases marked_by_call along.1 there synced with ⟨first, start, number', was⟩ | acknowledged
      · exact Or.inl ⟨first, start, number'.trans number, was⟩
      · refine Or.inr ⟨u, List.mem_cons_self, ?_⟩
        -- The row keeps its measurement to the end of the run.
        obtain ⟨other, there', number', text⟩ := row_kept_run us member
        have same := AutoTable.row_unique there' there (number'.trans number.symm)
        rw [same] at text
        unfold Acknowledged measurementId at acknowledged ⊢
        rwa [text, number] at acknowledged
    · exact Or.inr ⟨later, List.mem_cons_of_mem _ called, acknowledged⟩

/-- Every accepted measurement reaches the platform exactly where no accepted row waits behind
    a batch of refused ones; a row is marked only by an acknowledgement of its own
    measurement, which no other row has and which it keeps over all calls. -/
theorem accepted_reach_platform (f : Formats V) (d : Lookups)
    (accept : CheckResultPayload V → Bool) (t : CheckResultsTable) (apart : DigestsApart f t) :
    (ReachesPlatform f d accept t ↔ NotStarved f d accept t) ∧
    (∀ us, Along (uploadStep f) (fun t u => GetUnsynced maxBatchSize t u.batch) t us →
      ∀ row ∈ run (uploadStep f) t us, row.synced = true →
        (∃ old ∈ t, old.id = row.id ∧ old.synced = true) ∨ ∃ u ∈ us, Acknowledged f row u) ∧
    (∀ a ∈ t, ∀ b ∈ t,
      measurementId f (rowToCheckResult a) = measurementId f (rowToCheckResult b) → a = b) ∧
    (∀ us, ∀ row ∈ run (uploadStep f) t us, ∃ old ∈ t, old.id = row.id ∧
      measurementId f (rowToCheckResult old) = measurementId f (rowToCheckResult row)) := by
  refine ⟨reachesPlatform_iff apart, ?_, ?_, ?_⟩
  · intro us along row member marked
    exact marked_by_run along member marked
  · intro a here b there same
    exact measurement_unique apart here there same
  · intro us row member
    obtain ⟨old, there, number, text⟩ := row_kept_run us member
    exact ⟨old, there, number, congrArg f.digest text⟩

section Tables

def resultRow (status : String) (id : Nat) : CheckResultRow where
  id := id
  checkRuleId := "disk_encryption"
  status := status
  score := none
  message := none
  rawData := none
  executedAt := 1767600000
  durationMs := none
  synced := false

/- Rows number one to `n`, the last of them a passed check and the others failed ones. -/
def failedThenPassed (n : Nat) : CheckResultsTable where
  rows := (List.range n).map fun i => resultRow (if i + 1 = n then "pass" else "error") (i + 1)
  next := n + 1
  ascending := by
    rw [List.pairwise_map]
    exact List.pairwise_lt_range.imp fun before => Nat.succ_lt_succ before
  fresh := by
    intro row member
    obtain ⟨i, before, rfl⟩ := List.mem_map.mp member
    exact Nat.succ_lt_succ (List.mem_range.mp before)

/- The digests of the two measurements of the table of two rows. -/
def twoDigests : Formats Unit where
  digest text :=
    if text = "disk_encryption|2026-01-05T08:00:00+00:00|1" then
      "dc92fd4e5cb69830263e7dadff6ef44eff993b04b386a1870c2ba71e82bf6a61"
    else if text = "disk_encryption|2026-01-05T08:00:00+00:00|2" then
      "f4b137bd3f4146bad7892873b57df62b7898f3ab7a77b4087a31c1a59e068be1"
    else ""
  toRfc3339 _ := "2026-01-05T08:00:00+00:00"
  fromStr _ := none

def noLookups : Lookups where
  rule _ := none
  proofHashes _ := []

/- A server that takes no result of a check that could not be made. -/
def refusesErrors (payload : CheckResultPayload Unit) : Bool := payload.status != "error"

theorem accepted_reach_platform_two :
    (ReachesPlatform twoDigests noLookups refusesErrors (failedThenPassed 2) ↔
      NotStarved twoDigests noLookups refusesErrors (failedThenPassed 2)) ∧
    NotStarved twoDigests noLookups refusesErrors (failedThenPassed 2) :=
  ⟨(accepted_reach_platform twoDigests noLookups refusesErrors (failedThenPassed 2)
    (by unfold DigestsApart; decide)).1, by decide⟩

/- A digest that tells every two texts apart. -/
def plainTexts : Formats Unit where
  digest text := text
  toRfc3339 _ := "2026-01-05T08:00:00+00:00"
  fromStr _ := none

/-- A hundred refused rows of the same second keep an accepted one from ever being sent. -/
theorem not_reach_platform :
    ¬ ReachesPlatform plainTexts noLookups refusesErrors (failedThenPassed 101) := by
  have apart : DigestsApart plainTexts (failedThenPassed 101) := fun _ _ _ _ same => same
  rw [reachesPlatform_iff apart]
  decide +kernel

end Tables

end SentinelAgent.ResultUpload
