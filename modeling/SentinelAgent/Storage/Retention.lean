import Mathlib.Data.List.Dedup
import SentinelAgent.Library.Text
import SentinelAgent.Storage.Evidence

/-!
The retention policy: proofs older than the period are deleted, then the check results that
lost their last proof, with the queue entries of both. A dry run counts the same rows with
queries of its own.
-/
namespace SentinelAgent.Storage
open AutoTables

structure RetentionConfig where
  retentionDays : Int
  deleteOrphanedResults : Bool
  dryRun : Bool

def RetentionConfig.default : RetentionConfig := ⟨proofRetentionDays, true, false⟩

structure RetentionDb where
  evidence : EvidenceDb
  queue : SyncQueue

structure RetentionResult where
  proofsDeleted : Nat
  checkResultsDeleted : Nat
  syncQueueDeleted : Nat
  cutoffDate : Int
  oldestRemaining : Option Int
  newestProof : Option Int
  totalProofsRemaining : Nat
  totalResultsRemaining : Nat

def retentionCutoff (config : RetentionConfig) (now : Int) : Int :=
  now - config.retentionDays * 86400

/- Times are compared as texts. That of a proof is in whole seconds, and it is below that of the
   cutoff, whatever the fraction of its second, where its second is. -/
def Proof.expired (cutoff : Int) (p : Proof) : Bool := decide (p.createdAt < cutoff)

/- The result of every expired proof that no other proof of the same result outlives
   (`check_results` joined with `proofs`). -/
def orphanedJoin (db : EvidenceDb) (cutoff : Int) : List Nat :=
  db.results.rows.flatMap fun r =>
    (db.proofs.rows.filter fun p => decide (p.checkResultId = r.id) && p.expired cutoff &&
      !db.proofs.rows.any fun other =>
        decide (other.checkResultId = r.id) && decide (cutoff ≤ other.createdAt)).map fun _ => r.id

def oldestProof (proofs : List Proof) : Option Int := (proofs.map Proof.createdAt).min?

def newestProof (proofs : List Proof) : Option Int := (proofs.map Proof.createdAt).max?

/- A number that is bound to a statement is compared with the text of an entry as its digits. -/
def entryOf (type : SyncEntityType) (ids : List Nat) (r : SyncQueueItem) : Bool :=
  decide (r.entityType = type) && ids.any fun id => toString id == r.entityId

/- The entries deleted are counted. -/
def deleteEntries (q : SyncQueue) (type : SyncEntityType) (ids : List Nat) : SyncQueue × Nat :=
  if ids = [] then (q, 0)
  else (q.keep fun r => !entryOf type ids r, (q.rows.filter (entryOf type ids)).length)

/- One transaction. -/
def executeRetention (config : RetentionConfig) (cutoff : Int) (s : RetentionDb) :
    RetentionDb × RetentionResult :=
  let db := s.evidence
  let proofIds := (db.proofs.rows.filter (Proof.expired cutoff)).map Proof.id
  let orphanedResultIds :=
    if config.deleteOrphanedResults then (orphanedJoin db cutoff).dedup else []
  let (queue, proofEntries) := deleteEntries s.queue .proof proofIds
  let (queue, resultEntries) := deleteEntries queue .checkResult orphanedResultIds
  let proofsDeleted := (db.proofs.rows.filter (Proof.expired cutoff)).length
  let pruned := db.deleteProofs fun p => !p.expired cutoff
  let orphaned (r : CheckResult) := decide (r.id ∈ orphanedResultIds)
  let checkResultsDeleted := (pruned.results.rows.filter orphaned).length
  let cleaned := if orphanedResultIds = [] then pruned else pruned.deleteResults fun r => !orphaned r
  (⟨cleaned, queue⟩,
    { proofsDeleted := proofsDeleted
      checkResultsDeleted := checkResultsDeleted
      syncQueueDeleted := proofEntries + resultEntries
      cutoffDate := cutoff
      oldestRemaining := oldestProof cleaned.proofs.rows
      newestProof := newestProof cleaned.proofs.rows
      totalProofsRemaining := cleaned.proofs.size
      totalResultsRemaining := cleaned.results.size })

section Policy

/- What the text of an entry is as a number. A column of numbers that a query selects is compared
   with the numbers that the texts are read as, by the rules of the database. -/
variable (numeral : String → Option Nat)

def executeDryRun (config : RetentionConfig) (cutoff : Int) (s : RetentionDb) : RetentionResult :=
  let db := s.evidence
  let proofIds := (db.proofs.rows.filter (Proof.expired cutoff)).map Proof.id
  let checkResultsDeleted :=
    if config.deleteOrphanedResults then (orphanedJoin db cutoff).dedup.length else 0
  let remaining := db.proofs.rows.filter fun p => decide (cutoff ≤ p.createdAt)
  { proofsDeleted := (db.proofs.rows.filter (Proof.expired cutoff)).length
    checkResultsDeleted := checkResultsDeleted
    syncQueueDeleted := (s.queue.rows.filter fun r => decide (r.entityType = .proof) &&
      (numeral r.entityId).any fun id => decide (id ∈ proofIds)).length
    cutoffDate := cutoff
    oldestRemaining := oldestProof remaining
    newestProof := newestProof db.proofs.rows
    totalProofsRemaining := remaining.length
    totalResultsRemaining := db.results.size - checkResultsDeleted }

def RetentionPolicy.execute (config : RetentionConfig) (now : Int) (s : RetentionDb) :
    RetentionDb × RetentionResult :=
  let cutoff := retentionCutoff config now
  if config.dryRun then (s, executeDryRun numeral config cutoff s)
  else executeRetention config cutoff s

/-! What a real run leaves. -/

variable {config : RetentionConfig} {cutoff : Int} {s : RetentionDb}

def orphanedIds (config : RetentionConfig) (db : EvidenceDb) (cutoff : Int) : List Nat :=
  if config.deleteOrphanedResults then (orphanedJoin db cutoff).dedup else []

theorem mem_orphanedJoin {db : EvidenceDb} {id : Nat} (member : id ∈ orphanedJoin db cutoff) :
    (∃ r ∈ db.results, r.id = id) ∧
      ∀ p ∈ db.proofs, p.checkResultId = id → p.expired cutoff = true := by
  obtain ⟨r, of_result, joined⟩ := List.mem_flatMap.mp member
  obtain ⟨p, selected, rfl⟩ := List.mem_map.mp joined
  have conditions := (List.mem_filter.mp selected).2
  simp only [Bool.and_eq_true, Bool.not_eq_true', List.any_eq_false, decide_eq_true_eq,
    not_and] at conditions
  refine ⟨⟨r, of_result, rfl⟩, fun other proof of => ?_⟩
  exact decide_eq_true (Int.not_le.mp (conditions.2 other proof of))

theorem mem_orphanedIds {db : EvidenceDb} {id : Nat} (member : id ∈ orphanedIds config db cutoff) :
    id ∈ orphanedJoin db cutoff := by
  unfold orphanedIds at member
  split at member
  · exact List.mem_dedup.mp member
  · cases member

theorem nodup_orphanedIds (db : EvidenceDb) : (orphanedIds config db cutoff).Nodup := by
  unfold orphanedIds
  split
  · exact List.nodup_dedup _
  · exact List.nodup_nil

theorem size_without {R : Type} {key : R → Nat} (t : AutoTable key) (gone : R → Bool) :
    (t.keep fun r => !gone r).size + (t.rows.filter gone).length = t.size := by
  have parts := List.length_eq_length_filter_add (l := t.rows) gone
  rw [Nat.add_comm]
  exact parts.symm

/- As many results have the ids as there are ids. -/
theorem orphaned_results (db : EvidenceDb) :
    (db.results.rows.filter fun r => decide (r.id ∈ orphanedIds config db cutoff)).length =
      (orphanedIds config db cutoff).length := by
  rw [← List.length_map CheckResult.id]
  refine ((List.perm_ext_iff_of_nodup ?_ (nodup_orphanedIds db)).mpr fun id => ?_).length_eq
  · exact (AutoTable.keys_nodup db.results).sublist (List.filter_sublist.map _)
  · constructor
    · intro listed
      obtain ⟨r, selected, rfl⟩ := List.mem_map.mp listed
      exact of_decide_eq_true (List.mem_filter.mp selected).2
    · intro orphaned
      obtain ⟨r, member, same⟩ := (mem_orphanedJoin (mem_orphanedIds orphaned)).1
      subst same
      exact List.mem_map_of_mem (List.mem_filter.mpr ⟨member, decide_eq_true orphaned⟩)

theorem deleteEntries_queue (q : SyncQueue) (type : SyncEntityType) (ids : List Nat) :
    (deleteEntries q type ids).1 = q.keep fun r => !entryOf type ids r := by
  unfold deleteEntries
  split
  · rename_i none
    subst none
    symm
    cases q
    simp [AutoTable.keep, entryOf]
  · rfl

/- The evidence that is left. -/
def cleaned (config : RetentionConfig) (cutoff : Int) (db : EvidenceDb) : EvidenceDb :=
  let pruned := db.deleteProofs fun p => !p.expired cutoff
  if orphanedIds config db cutoff = [] then pruned
  else pruned.deleteResults fun r => !decide (r.id ∈ orphanedIds config db cutoff)

theorem cleaned_results (db : EvidenceDb) : (cleaned config cutoff db).results =
    db.results.keep fun r => !decide (r.id ∈ orphanedIds config db cutoff) := by
  unfold cleaned
  split
  · rename_i none
    obtain ⟨rules, results, proofs, ruled, proven⟩ := db
    cases results
    simp [AutoTable.keep, EvidenceDb.deleteProofs, none]
  · rfl

/- A result that is deleted takes no proof with it: all its proofs are expired. -/
theorem cleaned_proofs (db : EvidenceDb) :
    (cleaned config cutoff db).proofs = db.proofs.keep fun p => !p.expired cutoff := by
  unfold cleaned
  split
  · rfl
  · have all : ∀ p ∈ db.proofs.keep fun p => !p.expired cutoff,
        (((db.results.keep fun r => !decide (r.id ∈ orphanedIds config db cutoff)).find
          p.checkResultId).isSome) = true := by
      intro p member
      obtain ⟨stored, kept⟩ := AutoTable.mem_keep.mp member
      obtain ⟨r, of_result, same⟩ := db.proven p stored
      have stays : r.id ∉ orphanedIds config db cutoff := by
        intro orphaned
        have gone := (mem_orphanedJoin (mem_orphanedIds orphaned)).2 p stored same.symm
        simp [gone] at kept
      rw [Option.isSome_iff_exists]
      exact ⟨r, AutoTable.find_eq_some_iff.mpr
        ⟨AutoTable.mem_keep.mpr ⟨of_result, by simpa using stays⟩, same⟩⟩
    have filtered : ((db.proofs.keep fun p => !p.expired cutoff).rows.filter fun p =>
        ((db.results.keep fun r => !decide (r.id ∈ orphanedIds config db cutoff)).find
          p.checkResultId).isSome) = (db.proofs.keep fun p => !p.expired cutoff).rows :=
      List.filter_eq_self.mpr all
    simp only [EvidenceDb.deleteResults, EvidenceDb.deleteProofs, AutoTable.keep] at filtered ⊢
    simp only [AutoTable.mk.injEq, and_true]
    exact filtered

def expiredIds (db : EvidenceDb) (cutoff : Int) : List Nat :=
  (db.proofs.rows.filter (Proof.expired cutoff)).map Proof.id

/- The entries that a real run deletes. -/
def proofEntry (db : EvidenceDb) (cutoff : Int) : SyncQueueItem → Bool :=
  entryOf .proof (expiredIds db cutoff)

def resultEntry (config : RetentionConfig) (db : EvidenceDb) (cutoff : Int) :
    SyncQueueItem → Bool :=
  entryOf .checkResult (orphanedIds config db cutoff)

theorem executeRetention_db (config : RetentionConfig) (cutoff : Int) (s : RetentionDb) :
    (executeRetention config cutoff s).1 = ⟨cleaned config cutoff s.evidence,
      (s.queue.keep fun r => !proofEntry s.evidence cutoff r).keep fun r =>
        !resultEntry config s.evidence cutoff r⟩ := by
  rw [proofEntry, resultEntry, ← deleteEntries_queue, ← deleteEntries_queue]
  rfl

/- No entry is one of a proof and one of a result. -/
theorem entries_apart {first second : List Nat} {r : SyncQueueItem}
    (of_result : entryOf .checkResult first r = true) : entryOf .proof second r = false := by
  simp only [entryOf, Bool.and_eq_true, decide_eq_true_eq] at of_result
  simp [entryOf, of_result.1]

theorem kept_entries (config : RetentionConfig) (cutoff : Int) (s : RetentionDb) :
    (executeRetention config cutoff s).1.queue.size +
      ((s.queue.rows.filter (proofEntry s.evidence cutoff)).length +
        (s.queue.rows.filter (resultEntry config s.evidence cutoff)).length) = s.queue.size := by
  rw [executeRetention_db]
  have first := size_without s.queue (proofEntry s.evidence cutoff)
  have second := size_without (s.queue.keep fun r => !proofEntry s.evidence cutoff r)
    (resultEntry config s.evidence cutoff)
  have same : (s.queue.keep fun r => !proofEntry s.evidence cutoff r).rows.filter
      (resultEntry config s.evidence cutoff) =
        s.queue.rows.filter (resultEntry config s.evidence cutoff) := by
    rw [AutoTable.keep, List.filter_filter]
    refine List.filter_congr fun r _ => ?_
    cases of_result : resultEntry config s.evidence cutoff r with
    | false => rfl
    | true => simp [proofEntry, entries_apart of_result]
  rw [same] at second
  dsimp only
  omega

/- The entries that a dry run counts. -/
def countedEntry (numeral : String → Option Nat) (db : EvidenceDb) (cutoff : Int)
    (r : SyncQueueItem) : Bool :=
  decide (r.entityType = .proof) &&
    (numeral r.entityId).any fun id => decide (id ∈ expiredIds db cutoff)

/- An entry of an expired proof whose id it writes otherwise than in its digits. -/
def respelledEntry (numeral : String → Option Nat) (db : EvidenceDb) (cutoff : Int)
    (r : SyncQueueItem) : Bool :=
  countedEntry numeral db cutoff r && !proofEntry db cutoff r

def dryRunOf (config : RetentionConfig) : RetentionConfig := { config with dryRun := true }

def realRunOf (config : RetentionConfig) : RetentionConfig := { config with dryRun := false }

/- What the dry run counts of each table is gone after the real run, and nothing else is. -/
structure DryRunPredicts (config : RetentionConfig) (now : Int) (s : RetentionDb) : Prop where
  proofs : (RetentionPolicy.execute numeral (dryRunOf config) now s).2.proofsDeleted +
    (RetentionPolicy.execute numeral (realRunOf config) now s).1.evidence.proofs.size =
      s.evidence.proofs.size
  results : (RetentionPolicy.execute numeral (dryRunOf config) now s).2.checkResultsDeleted +
    (RetentionPolicy.execute numeral (realRunOf config) now s).1.evidence.results.size =
      s.evidence.results.size
  queue : (RetentionPolicy.execute numeral (dryRunOf config) now s).2.syncQueueDeleted +
    (RetentionPolicy.execute numeral (realRunOf config) now s).1.queue.size = s.queue.size

/- No proof inside its retention goes, no result with such a proof, and of the queue only entries
   of what goes. -/
structure DeletesExpired (config : RetentionConfig) (now : Int) (s after : RetentionDb) :
    Prop where
  proofs : ∀ p ∈ s.evidence.proofs, retentionCutoff config now ≤ p.createdAt →
    p ∈ after.evidence.proofs
  results : ∀ r ∈ s.evidence.results, r ∉ after.evidence.results →
    ∀ p ∈ s.evidence.proofs, p.checkResultId = r.id →
      p.createdAt < retentionCutoff config now ∧ p ∉ after.evidence.proofs
  queue : ∀ item ∈ s.queue, item ∉ after.queue →
    (item.entityType = .proof ∧ ∃ p ∈ s.evidence.proofs, p ∉ after.evidence.proofs ∧
      item.entityId = toString p.id) ∨
    item.entityType = .checkResult ∧ ∃ r ∈ s.evidence.results, r ∉ after.evidence.results ∧
      item.entityId = toString r.id

/- The dry run leaves the entries of results out; an entry that it counts and the real run leaves
   makes up for one. -/
def EntriesAgree (config : RetentionConfig) (now : Int) (s : RetentionDb) : Prop :=
  (s.queue.rows.filter (resultEntry config s.evidence (retentionCutoff config now))).length =
    (s.queue.rows.filter
      (respelledEntry numeral s.evidence (retentionCutoff config now))).length

theorem counted_split (canonical : ∀ id : Nat, numeral (toString id) = some id) (db : EvidenceDb)
    (cutoff : Int) (rows : List SyncQueueItem) :
    (rows.filter (countedEntry numeral db cutoff)).length =
      (rows.filter (proofEntry db cutoff)).length +
        (rows.filter (respelledEntry numeral db cutoff)).length := by
  have counted : ∀ r, proofEntry db cutoff r = true → countedEntry numeral db cutoff r = true := by
    intro r entry
    simp only [proofEntry, entryOf, Bool.and_eq_true, List.any_eq_true, beq_iff_eq] at entry
    obtain ⟨type, id, expired, same⟩ := entry
    rw [countedEntry, type, ← same, canonical, Option.any_some, Bool.true_and]
    exact decide_eq_true expired
  rw [List.length_eq_length_filter_add (l := rows.filter (countedEntry numeral db cutoff))
    (proofEntry db cutoff), List.filter_filter, List.filter_filter]
  congr 2
  · refine List.filter_congr fun r _ => ?_
    cases entry : proofEntry db cutoff r with
    | false => rfl
    | true => simp [counted r entry]
  · refine List.filter_congr fun r _ => ?_
    rw [respelledEntry, Bool.and_comm]

theorem dryRun_eq (config : RetentionConfig) (now : Int) (s : RetentionDb) :
    (RetentionPolicy.execute numeral (dryRunOf config) now s).2 =
      executeDryRun numeral config (retentionCutoff config now) s := rfl

theorem realRun_eq (config : RetentionConfig) (now : Int) (s : RetentionDb) :
    (RetentionPolicy.execute numeral (realRunOf config) now s).1 =
      (executeRetention config (retentionCutoff config now) s).1 := rfl

theorem proofs_predicted (config : RetentionConfig) (now : Int) (s : RetentionDb) :
    (RetentionPolicy.execute numeral (dryRunOf config) now s).2.proofsDeleted +
      (RetentionPolicy.execute numeral (realRunOf config) now s).1.evidence.proofs.size =
        s.evidence.proofs.size := by
  rw [dryRun_eq, realRun_eq, executeRetention_db, cleaned_proofs, Nat.add_comm]
  exact size_without s.evidence.proofs (Proof.expired (retentionCutoff config now))

theorem results_predicted (config : RetentionConfig) (now : Int) (s : RetentionDb) :
    (RetentionPolicy.execute numeral (dryRunOf config) now s).2.checkResultsDeleted +
      (RetentionPolicy.execute numeral (realRunOf config) now s).1.evidence.results.size =
        s.evidence.results.size := by
  have counted : (executeDryRun numeral config (retentionCutoff config now) s).checkResultsDeleted =
      (orphanedIds config s.evidence (retentionCutoff config now)).length := by
    simp only [executeDryRun, orphanedIds]
    split <;> rfl
  rw [dryRun_eq, realRun_eq, executeRetention_db, cleaned_results, counted, ← orphaned_results,
    Nat.add_comm]
  exact size_without s.evidence.results _

theorem queue_predicted_iff (canonical : ∀ id : Nat, numeral (toString id) = some id)
    (config : RetentionConfig) (now : Int) (s : RetentionDb) :
    (RetentionPolicy.execute numeral (dryRunOf config) now s).2.syncQueueDeleted +
        (RetentionPolicy.execute numeral (realRunOf config) now s).1.queue.size = s.queue.size ↔
      EntriesAgree numeral config now s := by
  have counted : (executeDryRun numeral config (retentionCutoff config now) s).syncQueueDeleted =
      (s.queue.rows.filter
        (countedEntry numeral s.evidence (retentionCutoff config now))).length := rfl
  have parts := counted_split numeral canonical s.evidence (retentionCutoff config now) s.queue.rows
  have kept := kept_entries config (retentionCutoff config now) s
  rw [dryRun_eq, realRun_eq, counted, EntriesAgree]
  omega

theorem deletes_expired (config : RetentionConfig) (now : Int) (s : RetentionDb) :
    DeletesExpired config now s (RetentionPolicy.execute numeral (realRunOf config) now s).1 := by
  rw [realRun_eq, executeRetention_db]
  have gone : ∀ p ∈ s.evidence.proofs, p.expired (retentionCutoff config now) = true →
      p ∉ (cleaned config (retentionCutoff config now) s.evidence).proofs := by
    intro p _ expired kept
    rw [cleaned_proofs, AutoTable.mem_keep, expired] at kept
    exact absurd kept.2 (by decide)
  constructor
  · intro p stored inside
    rw [cleaned_proofs, AutoTable.mem_keep]
    refine ⟨stored, ?_⟩
    simp [Proof.expired, inside]
  · intro r stored deleted p proof of
    rw [cleaned_results, AutoTable.mem_keep] at deleted
    have orphaned : r.id ∈ orphanedIds config s.evidence (retentionCutoff config now) := by
      by_contra stays
      exact deleted ⟨stored, by simpa using stays⟩
    have expired := (mem_orphanedJoin (mem_orphanedIds orphaned)).2 p proof of
    exact ⟨of_decide_eq_true expired, gone p proof expired⟩
  · intro item queued deleted
    simp only [AutoTable.mem_keep, queued, true_and, not_and, Bool.not_eq_true', Bool.not_eq_false]
      at deleted
    cases of_proof : proofEntry s.evidence (retentionCutoff config now) item with
    | true =>
      left
      simp only [proofEntry, entryOf, Bool.and_eq_true, decide_eq_true_eq, List.any_eq_true,
        beq_iff_eq] at of_proof
      obtain ⟨type, id, listed, same⟩ := of_proof
      obtain ⟨p, selected, rfl⟩ := List.mem_map.mp listed
      obtain ⟨stored, expired⟩ := List.mem_filter.mp selected
      exact ⟨type, p, stored, gone p stored expired, same.symm⟩
    | false =>
      right
      have of_result := deleted of_proof
      simp only [resultEntry, entryOf, Bool.and_eq_true, decide_eq_true_eq, List.any_eq_true,
        beq_iff_eq] at of_result
      obtain ⟨type, id, orphaned, same⟩ := of_result
      obtain ⟨r, stored, rfl⟩ := (mem_orphanedJoin (mem_orphanedIds orphaned)).1
      refine ⟨type, r, stored, ?_, same.symm⟩
      rw [cleaned_results, AutoTable.mem_keep]
      simp [orphaned]

/-- The real run deletes what is expired and nothing else; and it deletes as many rows of each
    table as the dry run counts exactly where the entries that only one of them sees are as
    many on both sides. -/
theorem dry_run_predicts_iff (canonical : ∀ id : Nat, numeral (toString id) = some id)
    (config : RetentionConfig) (now : Int) (s : RetentionDb) :
    DryRunPredicts numeral config now s ∧
        DeletesExpired config now s (RetentionPolicy.execute numeral (realRunOf config) now s).1 ↔
      EntriesAgree numeral config now s := by
  rw [and_iff_left (deletes_expired numeral config now s)]
  constructor
  · exact fun predicts => (queue_predicted_iff numeral canonical config now s).mp predicts.queue
  · exact fun agree => ⟨proofs_predicted numeral config now s,
      results_predicted numeral config now s,
      (queue_predicted_iff numeral canonical config now s).mpr agree⟩

end Policy

/-! A result that has lost its only proof, with an entry of the queue. -/

def anyHash : EvidenceHash := ⟨fun _ _ _ => "", fun r => toString r.id⟩

def firewallCheck : CheckDefinition := ⟨"firewall", "Firewall", "", "network", .high, []⟩

def expiredEvidence : EvidenceDb :=
  let db := seedBuiltinCheckRules EvidenceDb.empty 0 [firewallCheck]
  let db := (insertCheckResult db ⟨0, "firewall", .pass, none, none, none, 0, none, true⟩).1
  (insertCheckProof anyHash db ⟨0, 1, "\x7b\x7d", "", 0, true⟩).1

def withEntry (type : SyncEntityType) : RetentionDb :=
  ⟨expiredEvidence, (enqueue (AutoTable.empty SyncQueueItem.id) 0 (.new type "1" "\x7b\x7d")).1⟩

/- A year and a day later. -/
def afterRetention : Int := 366 * 86400

/- Digits only, as the ids of entries are written. -/
def digitsRead (text : String) : Option Nat :=
  if text.toList.all Char.isDigit then some (Nat.ofDigitChars 10 text.toList 0) else none

theorem digitsRead_toString (id : Nat) : digitsRead (toString id) = some id := by
  have digits : id.repr.toList.all Char.isDigit = true :=
    List.all_eq_true.mpr (Text.repr_digits id)
  have value : Nat.ofDigitChars 10 id.repr.toList 0 = id := by
    rw [Nat.toList_repr, Nat.ofDigitChars_ten_toDigits]
  change digitsRead id.repr = some id
  rw [digitsRead, if_pos digits, value]

theorem proof_entry_predicted :
    DryRunPredicts digitsRead .default afterRetention (withEntry .proof) :=
  ((dry_run_predicts_iff digitsRead digitsRead_toString .default afterRetention
    (withEntry .proof)).mpr (by unfold EntriesAgree; decide)).1

/- The entry of the result is deleted and was not counted. -/
theorem result_entry_not_counted :
    (RetentionPolicy.execute digitsRead (dryRunOf .default) afterRetention
        (withEntry .checkResult)).2.syncQueueDeleted = 0 ∧
      (RetentionPolicy.execute digitsRead (realRunOf .default) afterRetention
        (withEntry .checkResult)).2.syncQueueDeleted = 1 ∧
      ¬ DryRunPredicts digitsRead .default afterRetention (withEntry .checkResult) := by
  have uncounted : (RetentionPolicy.execute digitsRead (dryRunOf .default) afterRetention
      (withEntry .checkResult)).2.syncQueueDeleted = 0 := by decide
  have emptied : (RetentionPolicy.execute digitsRead (realRunOf .default) afterRetention
      (withEntry .checkResult)).1.queue.size = 0 := by decide
  have one : (withEntry .checkResult).queue.size = 1 := by decide
  refine ⟨uncounted, by decide, fun predicts => ?_⟩
  have counts := predicts.queue
  rw [uncounted, emptied, one] at counts
  cases counts

end SentinelAgent.Storage
