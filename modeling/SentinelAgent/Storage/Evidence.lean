import SentinelAgent.Library.Runs
import SentinelAgent.Storage.SyncQueue

/-!
Compliance evidence: the tables `check_rules`, `check_results` and `proofs`. Foreign keys are
enforced, and both references are `ON DELETE CASCADE`. They are fields of the database, so each
statement below has to say what its cascade takes. `INSERT OR REPLACE` deletes the row it
replaces before it inserts, and that deletion cascades like any other.
-/
namespace SentinelAgent.Storage
open AutoTables

def maxCheckResultsSize : Nat := 10000
def maxProofsSize : Nat := 10000
def proofRetentionDays : Int := 365
def maxUploadBatchSize : Nat := 100

inductive Severity where
  | critical | high | medium | low | info
  deriving DecidableEq, Repr

structure CheckRule where
  id : String
  name : String
  description : Option String
  category : String
  severity : Severity
  enabled : Bool
  checkType : String
  parameters : Option String
  frameworks : List String
  version : String
  createdAt : Int
  updatedAt : Int
  checkCommand : Option String
  expectedResult : Option String
  remediation : Option String
  platforms : Option (List String)
  controlId : Option String
  deriving DecidableEq, Repr

inductive CheckStatus where
  | pass | fail | error | skip | notApplicable
  deriving DecidableEq, Repr

structure CheckResult where
  id : Nat
  checkRuleId : String
  status : CheckStatus
  score : Option Int
  message : Option String
  rawData : Option String
  executedAt : Int
  durationMs : Option Int
  synced : Bool
  deriving DecidableEq, Repr

structure Proof where
  id : Nat
  checkResultId : Nat
  data : String
  hash : String
  createdAt : Int
  synced : Bool
  deriving DecidableEq, Repr

abbrev CheckResults := AutoTable CheckResult.id
abbrev Proofs := AutoTable Proof.id

structure EvidenceDb where
  rules : String → Option CheckRule
  results : CheckResults
  proofs : Proofs
  ruled : ∀ r ∈ results, (rules r.checkRuleId).isSome = true
  proven : ∀ p ∈ proofs, ∃ r ∈ results, r.id = p.checkResultId

inductive EvidenceError where
  | integrity (message : String)
  | query (message : String)
  deriving DecidableEq, Repr

namespace EvidenceDb

def empty : EvidenceDb where
  rules _ := none
  results := AutoTable.empty _
  proofs := AutoTable.empty _
  ruled := by simp
  proven := by simp

/-! Statements. -/

/-- The cascade of a deletion: proofs go with their result. -/
def deleteResults (db : EvidenceDb) (kept : CheckResult → Bool) : EvidenceDb where
  rules := db.rules
  results := db.results.keep kept
  proofs := db.proofs.keep (fun p => ((db.results.keep kept).find p.checkResultId).isSome)
  ruled := fun r mem => db.ruled r (AutoTable.mem_keep.mp mem).1
  proven := by
    intro p mem
    obtain ⟨r, found⟩ := Option.isSome_iff_exists.mp (AutoTable.mem_keep.mp mem).2
    exact ⟨r, AutoTable.find_eq_some_iff.mp found⟩

def deleteProofs (db : EvidenceDb) (kept : Proof → Bool) : EvidenceDb where
  rules := db.rules
  results := db.results
  proofs := db.proofs.keep kept
  ruled := db.ruled
  proven := fun p mem => db.proven p (AutoTable.mem_keep.mp mem).1

def setRule (db : EvidenceDb) (rule : CheckRule) : EvidenceDb where
  rules id := if id = rule.id then some rule else db.rules id
  results := db.results
  proofs := db.proofs
  ruled := by
    intro r mem
    split
    · rfl
    · exact db.ruled r mem
  proven := db.proven

def insertResult (db : EvidenceDb) (m : RowMaker CheckResult.id)
    (reference : (db.rules (m.make db.results.next).checkRuleId).isSome = true) :
    EvidenceDb where
  rules := db.rules
  results := db.results.insert m
  proofs := db.proofs
  ruled := by
    intro r mem
    rcases AutoTable.mem_insert.mp mem with old | rfl
    · exact db.ruled r old
    · exact reference
  proven := by
    intro p mem
    obtain ⟨r, member, same⟩ := db.proven p mem
    exact ⟨r, AutoTable.mem_insert.mpr (Or.inl member), same⟩

def insertProof (db : EvidenceDb) (m : RowMaker Proof.id)
    (reference : (db.results.find (m.make db.proofs.next).checkResultId).isSome = true) :
    EvidenceDb where
  rules := db.rules
  results := db.results
  proofs := db.proofs.insert m
  ruled := db.ruled
  proven := by
    intro p mem
    rcases AutoTable.mem_insert.mp mem with old | rfl
    · exact db.proven p old
    · obtain ⟨r, found⟩ := Option.isSome_iff_exists.mp reference
      exact ⟨r, AutoTable.find_eq_some_iff.mp found⟩

def markResult (ids : List Nat) : RowEdit CheckResult.id where
  edit r := if r.id ∈ ids then { r with synced := true } else r
  keyed r := by split <;> rfl

theorem checkRuleId_markResult (ids : List Nat) (r : CheckResult) :
    ((markResult ids).edit r).checkRuleId = r.checkRuleId := by
  unfold markResult
  simp only
  split <;> rfl

def markProof (ids : List Nat) : RowEdit Proof.id where
  edit p := if p.id ∈ ids then { p with synced := true } else p
  keyed p := by split <;> rfl

theorem checkResultId_markProof (ids : List Nat) (p : Proof) :
    ((markProof ids).edit p).checkResultId = p.checkResultId := by
  unfold markProof
  simp only
  split <;> rfl

def markResultsSynced (db : EvidenceDb) (ids : List Nat) : EvidenceDb where
  rules := db.rules
  results := db.results.update (markResult ids)
  proofs := db.proofs
  ruled := by
    intro r mem
    obtain ⟨old, member, rfl⟩ := AutoTable.mem_update.mp mem
    rw [checkRuleId_markResult]
    exact db.ruled old member
  proven := by
    intro p mem
    obtain ⟨r, member, same⟩ := db.proven p mem
    exact ⟨(markResult ids).edit r, AutoTable.mem_update.mpr ⟨r, member, rfl⟩,
      ((markResult ids).keyed r).trans same⟩

def markProofsSynced (db : EvidenceDb) (ids : List Nat) : EvidenceDb where
  rules := db.rules
  results := db.results
  proofs := db.proofs.update (markProof ids)
  ruled := db.ruled
  proven := by
    intro p mem
    obtain ⟨old, member, rfl⟩ := AutoTable.mem_update.mp mem
    rw [checkResultId_markProof]
    exact db.proven old member

end EvidenceDb

/-! Rules. -/

/-- `INSERT OR REPLACE INTO check_rules`. -/
def upsertRule (db : EvidenceDb) (rule : CheckRule) : EvidenceDb :=
  match db.rules rule.id with
  | none => db.setRule rule
  | some _ => (db.deleteResults (fun r => decide (r.checkRuleId ≠ rule.id))).setRule rule

def upsertBatch (db : EvidenceDb) (rules : List CheckRule) : EvidenceDb :=
  rules.foldl upsertRule db

structure CheckDefinition where
  id : String
  name : String
  description : String
  category : String
  severity : Severity
  frameworks : List String

def builtinRule (now : Int) (d : CheckDefinition) : CheckRule :=
  { id := d.id, name := d.name, description := some d.description, category := d.category,
    severity := d.severity, enabled := true, checkType := d.id, parameters := none,
    frameworks := d.frameworks, version := "builtin-1.0", createdAt := now, updatedAt := now,
    checkCommand := none, expectedResult := none, remediation := none, platforms := none,
    controlId := none }

/-- At every start of the agent. -/
def seedBuiltinCheckRules (db : EvidenceDb) (now : Int) (checks : List CheckDefinition) :
    EvidenceDb :=
  upsertBatch db (checks.map (builtinRule now))

/-! Results. -/

def resultMaker (r : CheckResult) : RowMaker CheckResult.id where
  make id := { r with id }
  keyed _ := rfl

def oldestResults (db : EvidenceDb) (excess : Nat) : List CheckResult :=
  firstBy excess (fun a b => decide (a.executedAt ≤ b.executedAt)) db.results.rows

def evictResults (db : EvidenceDb) (excess : Nat) : EvidenceDb :=
  db.deleteResults (fun r => decide (r.id ∉ (oldestResults db excess).map (·.id)))

def resultsRoom (db : EvidenceDb) : EvidenceDb :=
  if maxCheckResultsSize ≤ db.results.size then
    evictResults db (db.results.size - maxCheckResultsSize + 1)
  else db

/-- `CHECK (score >= 0 AND score <= 100)`, which a missing score passes. -/
def scoreAllowed (score : Option Int) : Bool :=
  match score with
  | none => true
  | some n => decide (0 ≤ n ∧ n ≤ 100)

/-- The eviction is a statement of its own: it stays when the insertion fails. -/
def insertCheckResult (db : EvidenceDb) (r : CheckResult) :
    EvidenceDb × Except EvidenceError Nat :=
  let room := resultsRoom db
  if reference : (room.rules r.checkRuleId).isSome = true then
    if scoreAllowed r.score then
      (room.insertResult (resultMaker r) reference, .ok room.results.next)
    else (room, .error (.query "Failed to insert check result: CHECK constraint failed"))
  else (room, .error (.query "Failed to insert check result: FOREIGN KEY constraint failed"))

def getUnsynced (db : EvidenceDb) (limit : Nat) : List CheckResult :=
  firstBy limit (fun a b => decide (a.executedAt ≤ b.executedAt))
    (db.results.rows.filter (fun r => !r.synced))

/-! Proofs. -/

/-- Hashes are a library's. -/
structure EvidenceHash where
  computeHash : Nat → String → Int → String
  measurementId : CheckResult → String

/-- Equality of two byte strings, all bytes compared. -/
def constantTimeEq (a b : List UInt8) : Bool :=
  decide (a.length = b.length) &&
    (a.zip b).foldl (fun acc x => acc ||| (x.1 ^^^ x.2)) 0 == 0

def verifyIntegrity (h : EvidenceHash) (p : Proof) : Bool :=
  constantTimeEq p.hash.toUTF8.data.toList
    (h.computeHash p.checkResultId p.data p.createdAt).toUTF8.data.toList

def proofMaker (p : Proof) : RowMaker Proof.id where
  make id := { p with id }
  keyed _ := rfl

def oldestProofs (db : EvidenceDb) (excess : Nat) : List Proof :=
  firstBy excess (fun a b => decide (a.createdAt ≤ b.createdAt)) db.proofs.rows

def evictProofs (db : EvidenceDb) (excess : Nat) : EvidenceDb :=
  db.deleteProofs (fun p => decide (p.id ∉ (oldestProofs db excess).map (·.id)))

def proofsRoom (db : EvidenceDb) : EvidenceDb :=
  if maxProofsSize ≤ db.proofs.size then
    evictProofs db (db.proofs.size - maxProofsSize + 1)
  else db

def insertCheckProof (h : EvidenceHash) (db : EvidenceDb) (p : Proof) :
    EvidenceDb × Except EvidenceError Nat :=
  if verifyIntegrity h p then
    let room := proofsRoom db
    if reference : (room.results.find p.checkResultId).isSome = true then
      (room.insertProof (proofMaker p) reference, .ok room.proofs.next)
    else (room, .error (.query "Failed to insert proof: FOREIGN KEY constraint failed"))
  else (db, .error (.integrity "Proof hash does not match computed hash"))

/-! Uploads. -/

structure UploadResponse where
  accepted : Nat
  acceptedResultIds : Option (List String)
  rejected : Nat
  deriving DecidableEq, Repr

def acknowledgedIds (h : EvidenceHash) (results : List CheckResult) (response : UploadResponse) :
    List Nat :=
  match response.acceptedResultIds with
  | some ids => (results.filter (fun r => decide (h.measurementId r ∈ ids))).map (·.id)
  | none =>
    if response.rejected = 0 ∧ response.accepted = results.length then results.map (·.id)
    else []

/-!
What a run of the agent keeps of its evidence. A step keeps it when a refresh of the rules
leaves results and proofs as they are, and when all other steps take rows only from a table at
its limit, the oldest first. The condition names the two cascades that take more: a replaced
rule takes the results that refer to it, and an evicted result takes its proofs.
-/

structure EvidenceState where
  db : EvidenceDb
  /- The results sent to the platform and not answered. -/
  upload : List CheckResult

inductive EvidenceAction where
  | start (checks : List CheckDefinition)
  | syncRules (rules : List CheckRule)
  | upsertRule (rule : CheckRule)
  | insertResult (r : CheckResult)
  | insertProof (p : Proof)
  | beginUpload
  | answerUpload (response : Option UploadResponse)
  | markResultsSynced (ids : List Nat)
  | markProofsSynced (ids : List Nat)

structure EvidenceEvent where
  now : Int
  action : EvidenceAction

/-- An upload that fails marks nothing. -/
def answerUpload (h : EvidenceHash) (s : EvidenceState) (response : Option UploadResponse) :
    EvidenceState :=
  match response with
  | none => { s with upload := [] }
  | some answer =>
    { db := s.db.markResultsSynced (acknowledgedIds h s.upload answer), upload := [] }

def evidenceStep (h : EvidenceHash) (s : EvidenceState) (e : EvidenceEvent) : EvidenceState :=
  match e.action with
  | .start checks => { db := seedBuiltinCheckRules s.db e.now checks, upload := [] }
  | .syncRules rules => { s with db := upsertBatch s.db rules }
  | .upsertRule rule => { s with db := upsertRule s.db rule }
  | .insertResult r => { s with db := (insertCheckResult s.db r).1 }
  | .insertProof p => { s with db := (insertCheckProof h s.db p).1 }
  | .beginUpload => { s with upload := getUnsynced s.db maxUploadBatchSize }
  | .answerUpload response => answerUpload h s response
  | .markResultsSynced ids => { s with db := s.db.markResultsSynced ids }
  | .markProofsSynced ids => { s with db := s.db.markProofsSynced ids }

/-- The rules an action writes. -/
def EvidenceEvent.rules (e : EvidenceEvent) : Option (List CheckRule) :=
  match e.action with
  | .start checks => some (checks.map (builtinRule e.now))
  | .syncRules rules => some rules
  | .upsertRule rule => some [rule]
  | _ => none

/-- The row is still there, and says the same but for its flag. -/
def ResultStays (db : EvidenceDb) (r : CheckResult) : Prop :=
  ∃ kept ∈ db.results, { kept with synced := r.synced } = r

def ProofStays (db : EvidenceDb) (p : Proof) : Prop :=
  ∃ kept ∈ db.proofs, { kept with synced := p.synced } = p

/-- Evicted from a table at its limit, with nothing older left behind. -/
def ResultEvicted (e : EvidenceEvent) (db db' : EvidenceDb) (r : CheckResult) : Prop :=
  (∃ new, e.action = .insertResult new) ∧ maxCheckResultsSize ≤ db.results.size ∧
    ∀ kept ∈ db.results, kept ∈ db'.results → r.executedAt ≤ kept.executedAt

def ProofEvicted (e : EvidenceEvent) (db db' : EvidenceDb) (p : Proof) : Prop :=
  (∃ new, e.action = .insertProof new) ∧ maxProofsSize ≤ db.proofs.size ∧
    ∀ kept ∈ db.proofs, kept ∈ db'.proofs → p.createdAt ≤ kept.createdAt

def InsideRetention (now : Int) (p : Proof) : Prop :=
  now - proofRetentionDays * 86400 ≤ p.createdAt

instance (now : Int) (p : Proof) : Decidable (InsideRetention now p) :=
  inferInstanceAs (Decidable (now - proofRetentionDays * 86400 ≤ p.createdAt))

structure StepKeeps (h : EvidenceHash) (s : EvidenceState) (e : EvidenceEvent) : Prop where
  rules : e.rules ≠ none → (evidenceStep h s e).db.results = s.db.results ∧
    (evidenceStep h s e).db.proofs = s.db.proofs
  results : ∀ r ∈ s.db.results, r.synced = false →
    ResultStays (evidenceStep h s e).db r ∨ ResultEvicted e s.db (evidenceStep h s e).db r
  proofs : ∀ p ∈ s.db.proofs, InsideRetention e.now p →
    ProofStays (evidenceStep h s e).db p ∨ ProofEvicted e s.db (evidenceStep h s e).db p

/-- No rule is written that a stored result refers to; no result is evicted that has a proof
    inside its retention. -/
def KeepsEvidence (s : EvidenceState) (e : EvidenceEvent) : Prop :=
  (∀ rules, e.rules = some rules → ∀ rule ∈ rules, ∀ r ∈ s.db.results,
    r.checkRuleId ≠ rule.id) ∧
  ∀ new, e.action = .insertResult new → ∀ p ∈ s.db.proofs, InsideRetention e.now p →
    ∃ r ∈ (resultsRoom s.db).results, r.id = p.checkResultId

variable {h : EvidenceHash} {s : EvidenceState} {e : EvidenceEvent} {db : EvidenceDb}
  {r : CheckResult} {p : Proof}

/-! What the statements keep. -/

theorem keep_all {R : Type*} {key : R → Nat} (t : AutoTable key) {kept : R → Bool}
    (all : ∀ r ∈ t, kept r = true) : t.keep kept = t := by
  cases t
  simp only [AutoTable.keep, AutoTable.mk.injEq, and_true]
  exact List.filter_eq_self.mpr all

theorem mem_deleteResults {kept : CheckResult → Bool} :
    r ∈ (db.deleteResults kept).results ↔ r ∈ db.results ∧ kept r = true :=
  AutoTable.mem_keep

/-- A proof survives the deletion of other results than its own. -/
theorem mem_proofs_deleteResults {kept : CheckResult → Bool} :
    p ∈ (db.deleteResults kept).proofs ↔ p ∈ db.proofs ∧
      ∃ r ∈ (db.deleteResults kept).results, r.id = p.checkResultId := by
  change p ∈ db.proofs.keep _ ↔ _
  rw [AutoTable.mem_keep, Option.isSome_iff_exists]
  simp only [AutoTable.find_eq_some_iff]
  rfl

theorem deleteResults_nothing {kept : CheckResult → Bool}
    (all : ∀ r ∈ db.results, kept r = true) : (db.deleteResults kept).results = db.results ∧
      (db.deleteResults kept).proofs = db.proofs := by
  have results : (db.deleteResults kept).results = db.results := keep_all db.results all
  refine ⟨results, keep_all db.proofs fun p mem => ?_⟩
  obtain ⟨r, member, same⟩ := db.proven p mem
  rw [Option.isSome_iff_exists]
  exact ⟨r, AutoTable.find_eq_some_iff.mpr ⟨AutoTable.mem_keep.mpr ⟨member, all r member⟩, same⟩⟩

/-! A refresh of the rules. -/

theorem upsertRule_results (db : EvidenceDb) (rule : CheckRule) :
    ∀ r, r ∈ (upsertRule db rule).results ↔ r ∈ db.results ∧ r.checkRuleId ≠ rule.id := by
  intro r
  unfold upsertRule
  cases present : db.rules rule.id with
  | none =>
    change r ∈ db.results ↔ _
    refine ⟨fun mem => ⟨mem, fun same => ?_⟩, And.left⟩
    have reference := db.ruled r mem
    rw [same, present] at reference
    cases reference
  | some old =>
    change r ∈ (db.deleteResults _).results ↔ _
    rw [mem_deleteResults, decide_eq_true_eq]

theorem upsertRule_keeps {rule : CheckRule} (unused : ∀ r ∈ db.results, r.checkRuleId ≠ rule.id) :
    (upsertRule db rule).results = db.results ∧ (upsertRule db rule).proofs = db.proofs := by
  unfold upsertRule
  cases db.rules rule.id with
  | none => exact ⟨rfl, rfl⟩
  | some old => exact deleteResults_nothing fun r mem => decide_eq_true (unused r mem)

theorem upsertBatch_results (rules : List CheckRule) (db : EvidenceDb) : ∀ r,
    r ∈ (upsertBatch db rules).results ↔
      r ∈ db.results ∧ ∀ rule ∈ rules, r.checkRuleId ≠ rule.id := by
  induction rules generalizing db with
  | nil =>
    intro r
    simp [upsertBatch]
  | cons rule rules ih =>
    intro r
    change r ∈ (upsertBatch (upsertRule db rule) rules).results ↔ _
    rw [ih, upsertRule_results, List.forall_mem_cons, and_assoc]

theorem upsertBatch_keeps {rules : List CheckRule}
    (unused : ∀ rule ∈ rules, ∀ r ∈ db.results, r.checkRuleId ≠ rule.id) :
    (upsertBatch db rules).results = db.results ∧ (upsertBatch db rules).proofs = db.proofs := by
  induction rules generalizing db with
  | nil => exact ⟨rfl, rfl⟩
  | cons rule rules ih =>
    obtain ⟨results, proofs⟩ := upsertRule_keeps (unused rule List.mem_cons_self)
    have rest := @ih (upsertRule db rule) (by
      intro other mem r member
      rw [results] at member
      exact unused other (List.mem_cons_of_mem _ mem) r member)
    exact ⟨rest.1.trans results, rest.2.trans proofs⟩

/-- Results and proofs stay as they are exactly when no result refers to a rule written. -/
theorem upsertBatch_keeps_iff {rules : List CheckRule} :
    ((upsertBatch db rules).results = db.results ∧ (upsertBatch db rules).proofs = db.proofs) ↔
      ∀ rule ∈ rules, ∀ r ∈ db.results, r.checkRuleId ≠ rule.id := by
  constructor
  · rintro ⟨results, _⟩ rule listed r mem
    rw [← results] at mem
    exact ((upsertBatch_results rules db r).mp mem).2 rule listed
  · exact upsertBatch_keeps

theorem step_rules {rules : List CheckRule} (writes : e.rules = some rules) :
    (evidenceStep h s e).db = upsertBatch s.db rules := by
  obtain ⟨now, action⟩ := e
  cases action with
  | start checks => cases writes; rfl
  | syncRules list => cases writes; rfl
  | upsertRule rule => cases writes; rfl
  | insertResult | insertProof | beginUpload | answerUpload | markResultsSynced
    | markProofsSynced => cases writes

/-! The insertions. What is evicted is older than what stays. -/

theorem next_resultsRoom (db : EvidenceDb) :
    (resultsRoom db).results.next = db.results.next := by
  unfold resultsRoom
  split <;> rfl

theorem mem_evictResults {excess : Nat} :
    r ∈ (evictResults db excess).results ↔ r ∈ db.results ∧ r ∉ oldestResults db excess := by
  unfold evictResults
  rw [mem_deleteResults, decide_eq_true_eq]
  refine and_congr_right fun mem => not_congr ?_
  rw [List.mem_map]
  constructor
  · rintro ⟨x, chosen, same⟩
    rwa [← AutoTable.row_unique (mem_of_mem_firstBy chosen) mem same]
  · exact fun chosen => ⟨r, chosen, rfl⟩

theorem resultsRoom_evicted (mem : r ∈ db.results) (gone : r ∉ (resultsRoom db).results) :
    maxCheckResultsSize ≤ db.results.size ∧
      ∀ kept ∈ (resultsRoom db).results, r.executedAt ≤ kept.executedAt := by
  unfold resultsRoom at gone ⊢
  split at gone
  · rename_i full
    rw [if_pos full]
    refine ⟨full, fun kept stays => ?_⟩
    obtain ⟨member, spared⟩ := mem_evictResults.mp stays
    have chosen : r ∈ oldestResults db (db.results.size - maxCheckResultsSize + 1) := by
      by_contra other
      exact gone (mem_evictResults.mpr ⟨mem, other⟩)
    exact firstBy_key_le chosen member spared
  · exact absurd mem gone

theorem next_proofsRoom (db : EvidenceDb) : (proofsRoom db).proofs.next = db.proofs.next := by
  unfold proofsRoom
  split <;> rfl

theorem results_proofsRoom (db : EvidenceDb) : (proofsRoom db).results = db.results := by
  unfold proofsRoom
  split <;> rfl

theorem mem_evictProofs {excess : Nat} :
    p ∈ (evictProofs db excess).proofs ↔ p ∈ db.proofs ∧ p ∉ oldestProofs db excess := by
  change p ∈ db.proofs.keep _ ↔ _
  rw [AutoTable.mem_keep, decide_eq_true_eq]
  refine and_congr_right fun mem => not_congr ?_
  rw [List.mem_map]
  constructor
  · rintro ⟨x, chosen, same⟩
    rwa [← AutoTable.row_unique (mem_of_mem_firstBy chosen) mem same]
  · exact fun chosen => ⟨p, chosen, rfl⟩

theorem proofsRoom_evicted (mem : p ∈ db.proofs) (gone : p ∉ (proofsRoom db).proofs) :
    maxProofsSize ≤ db.proofs.size ∧
      ∀ kept ∈ (proofsRoom db).proofs, p.createdAt ≤ kept.createdAt := by
  unfold proofsRoom at gone ⊢
  split at gone
  · rename_i full
    rw [if_pos full]
    refine ⟨full, fun kept stays => ?_⟩
    obtain ⟨member, spared⟩ := mem_evictProofs.mp stays
    have chosen : p ∈ oldestProofs db (db.proofs.size - maxProofsSize + 1) := by
      by_contra other
      exact gone (mem_evictProofs.mpr ⟨mem, other⟩)
    exact firstBy_key_le chosen member spared
  · exact absurd mem gone

theorem insertCheckResult_tables (db : EvidenceDb) (new : CheckResult) :
    (insertCheckResult db new).1.proofs = (resultsRoom db).proofs ∧
      (∀ r ∈ (resultsRoom db).results, r ∈ (insertCheckResult db new).1.results) ∧
      ∀ r ∈ (insertCheckResult db new).1.results,
        r ∈ (resultsRoom db).results ∨ r.id = db.results.next := by
  unfold insertCheckResult
  simp only
  split
  · split
    · refine ⟨rfl, fun r mem => AutoTable.mem_insert.mpr (Or.inl mem), fun r mem => ?_⟩
      rcases AutoTable.mem_insert.mp mem with old | rfl
      · exact Or.inl old
      · exact Or.inr (next_resultsRoom db)
    · exact ⟨rfl, fun r mem => mem, fun r mem => Or.inl mem⟩
  · exact ⟨rfl, fun r mem => mem, fun r mem => Or.inl mem⟩

theorem insertCheckProof_tables (h : EvidenceHash) (db : EvidenceDb) (new : Proof) :
    (insertCheckProof h db new).1.results = db.results ∧
      ((insertCheckProof h db new).1.proofs = db.proofs ∨
        ((∀ p ∈ (proofsRoom db).proofs, p ∈ (insertCheckProof h db new).1.proofs) ∧
          ∀ p ∈ (insertCheckProof h db new).1.proofs,
            p ∈ (proofsRoom db).proofs ∨ p.id = db.proofs.next)) := by
  unfold insertCheckProof
  split
  · simp only
    split
    · refine ⟨results_proofsRoom db, Or.inr ⟨fun p mem => ?_, fun p mem => ?_⟩⟩
      · exact AutoTable.mem_insert.mpr (Or.inl mem)
      · rcases AutoTable.mem_insert.mp mem with old | rfl
        · exact Or.inl old
        · exact Or.inr (next_proofsRoom db)
    · exact ⟨results_proofsRoom db, Or.inr ⟨fun p mem => mem, fun p mem => Or.inl mem⟩⟩
  · exact ⟨rfl, Or.inl rfl⟩

/-! The step. -/

theorem resultStays_of_mem {db' : EvidenceDb} (mem : r ∈ db'.results) : ResultStays db' r :=
  ⟨r, mem, rfl⟩

theorem proofStays_of_mem {db' : EvidenceDb} (mem : p ∈ db'.proofs) : ProofStays db' p :=
  ⟨p, mem, rfl⟩

theorem resultStays_marked (ids : List Nat) (mem : r ∈ db.results) :
    ResultStays (db.markResultsSynced ids) r := by
  refine ⟨(EvidenceDb.markResult ids).edit r, AutoTable.mem_update.mpr ⟨r, mem, rfl⟩, ?_⟩
  unfold EvidenceDb.markResult
  simp only
  split <;> rfl

theorem proofStays_marked (ids : List Nat) (mem : p ∈ db.proofs) :
    ProofStays (db.markProofsSynced ids) p := by
  refine ⟨(EvidenceDb.markProof ids).edit p, AutoTable.mem_update.mpr ⟨p, mem, rfl⟩, ?_⟩
  unfold EvidenceDb.markProof
  simp only
  split <;> rfl

theorem results_kept (condition : KeepsEvidence s e) (mem : r ∈ s.db.results) :
    ResultStays (evidenceStep h s e).db r ∨ ResultEvicted e s.db (evidenceStep h s e).db r := by
  cases writes : e.rules with
  | some rules =>
    left
    apply resultStays_of_mem
    rw [step_rules writes, (upsertBatch_keeps (condition.1 rules writes)).1]
    exact mem
  | none =>
    obtain ⟨now, action⟩ := e
    cases action with
    | start | syncRules | upsertRule => cases writes
    | insertResult new =>
      obtain ⟨_, stays, came⟩ := insertCheckResult_tables s.db new
      by_cases spared : r ∈ (resultsRoom s.db).results
      · exact Or.inl (resultStays_of_mem (stays r spared))
      · obtain ⟨full, oldest⟩ := resultsRoom_evicted mem spared
        refine Or.inr ⟨⟨new, rfl⟩, full, fun kept before after => ?_⟩
        rcases came kept after with room | fresh
        · exact oldest kept room
        · have := AutoTable.key_lt_next before
          omega
    | insertProof new =>
      left
      apply resultStays_of_mem
      change r ∈ (insertCheckProof h s.db new).1.results
      rw [(insertCheckProof_tables h s.db new).1]
      exact mem
    | beginUpload => exact Or.inl (resultStays_of_mem mem)
    | answerUpload response =>
      left
      cases response with
      | none => exact resultStays_of_mem mem
      | some answer => exact resultStays_marked _ mem
    | markResultsSynced ids => exact Or.inl (resultStays_marked ids mem)
    | markProofsSynced ids => exact Or.inl (resultStays_of_mem mem)

theorem proofs_kept (condition : KeepsEvidence s e) (mem : p ∈ s.db.proofs)
    (inside : InsideRetention e.now p) :
    ProofStays (evidenceStep h s e).db p ∨ ProofEvicted e s.db (evidenceStep h s e).db p := by
  cases writes : e.rules with
  | some rules =>
    left
    apply proofStays_of_mem
    rw [step_rules writes, (upsertBatch_keeps (condition.1 rules writes)).2]
    exact mem
  | none =>
    obtain ⟨now, action⟩ := e
    cases action with
    | start | syncRules | upsertRule => cases writes
    | insertResult new =>
      left
      apply proofStays_of_mem
      change p ∈ (insertCheckResult s.db new).1.proofs
      rw [(insertCheckResult_tables s.db new).1]
      have owner := condition.2 new rfl p mem inside
      unfold resultsRoom at owner ⊢
      split
      · rename_i full
        rw [if_pos full] at owner
        exact mem_proofs_deleteResults.mpr ⟨mem, owner⟩
      · exact mem
    | insertProof new =>
      rcases (insertCheckProof_tables h s.db new).2 with same | ⟨stays, came⟩
      · left
        apply proofStays_of_mem
        change p ∈ (insertCheckProof h s.db new).1.proofs
        rw [same]
        exact mem
      · by_cases spared : p ∈ (proofsRoom s.db).proofs
        · exact Or.inl (proofStays_of_mem (stays p spared))
        · obtain ⟨full, oldest⟩ := proofsRoom_evicted mem spared
          refine Or.inr ⟨⟨new, rfl⟩, full, fun kept before after => ?_⟩
          rcases came kept after with room | fresh
          · exact oldest kept room
          · have := AutoTable.key_lt_next before
            omega
    | beginUpload => exact Or.inl (proofStays_of_mem mem)
    | answerUpload response =>
      left
      cases response with
      | none => exact proofStays_of_mem mem
      | some answer => exact proofStays_of_mem mem
    | markResultsSynced ids => exact Or.inl (proofStays_of_mem mem)
    | markProofsSynced ids => exact Or.inl (proofStays_marked ids mem)

theorem stepKeeps_iff (h : EvidenceHash) (s : EvidenceState) (e : EvidenceEvent) :
    StepKeeps h s e ↔ KeepsEvidence s e := by
  constructor
  · intro keeps
    constructor
    · intro rules writes
      have same := keeps.rules (by simp [writes])
      rw [step_rules writes] at same
      exact upsertBatch_keeps_iff.mp same
    · intro new inserts p mem inside
      have tables := (insertCheckResult_tables s.db new).1
      have after : (evidenceStep h s e).db = (insertCheckResult s.db new).1 := by
        simp only [evidenceStep, inserts]
      rcases keeps.proofs p mem inside with ⟨kept, stays, same⟩ | ⟨⟨other, proof⟩, _⟩
      · rw [after, tables] at stays
        obtain ⟨r, member, owner⟩ := (resultsRoom s.db).proven kept stays
        refine ⟨r, member, owner.trans ?_⟩
        rw [← same]
      · rw [inserts] at proof
        cases proof
  · intro condition
    refine ⟨fun writes => ?_, fun r mem _ => results_kept condition mem,
      fun p mem inside => proofs_kept condition mem inside⟩
    obtain ⟨rules, written⟩ := Option.ne_none_iff_exists'.mp writes
    rw [step_rules written]
    exact upsertBatch_keeps (condition.1 rules written)

/-- In every run, from every database, each step keeps the evidence exactly when each step
    meets the condition. -/
theorem evidence_survives_iff (h : EvidenceHash) (s₀ : EvidenceState) (as : List EvidenceEvent) :
    Runs.Along (evidenceStep h) (StepKeeps h) s₀ as ↔
      Runs.Along (evidenceStep h) KeepsEvidence s₀ as :=
  Runs.along_congr (stepKeeps_iff h)

def newInstall : EvidenceState := { db := EvidenceDb.empty, upload := [] }

def textHash : EvidenceHash where
  computeHash id data createdAt := s!"{id}|{data}|{createdAt}"
  measurementId r := s!"{r.checkRuleId}|{r.executedAt}|{r.id}"

def diskEncryption : CheckDefinition :=
  { id := "disk_encryption", name := "Disk encryption", description := "", category := "encryption",
    severity := .critical, frameworks := [] }

def encrypted : CheckResult :=
  { id := 0, checkRuleId := "disk_encryption", status := .pass, score := none, message := none,
    rawData := none, executedAt := 100, durationMs := none, synced := false }

/-- The agent starts, stores a result and starts again. -/
def restarted : List EvidenceEvent :=
  [⟨1, .start [diskEncryption]⟩, ⟨100, .insertResult encrypted⟩, ⟨200, .start [diskEncryption]⟩]

theorem restart_erases_results :
    ¬ Runs.Along (evidenceStep textHash) (StepKeeps textHash) newInstall restarted := by
  intro claimed
  have same := (claimed.2.2.1.rules (by decide)).1
  have sizes := congrArg AutoTable.size same
  exact absurd sizes (by decide)

end SentinelAgent.Storage
