import SentinelAgent.Library.Lines
import SentinelAgent.Library.Text
import SentinelAgent.Storage.CheckResults

/-!
Upload of check results. What the database answers to a query with ties, and what the server
answers to a request or that it answers nothing, are inputs of a call. Compression, the rate
limit and the texts of errors are left out: they decide nothing about the table.
-/
namespace SentinelAgent.ResultUpload
open SentinelAgent.CheckResults

def maxBatchSize : Nat := 100

inductive Severity where
  | critical | high | medium | low | info
  deriving DecidableEq, Repr

def Severity.asStr : Severity → String
  | critical => "critical"
  | high => "high"
  | medium => "medium"
  | low => "low"
  | info => "info"

/- What a payload takes from a check rule. -/
structure CheckRule where
  category : String
  severity : Severity
  frameworks : List String
  deriving DecidableEq, Repr

/- `hex::encode(Sha256::digest(_))`, `DateTime::to_rfc3339` and `serde_json::from_str`. -/
structure Formats (V : Type) where
  digest : String → String
  toRfc3339 : Nat → String
  fromStr : String → Option V

/- What the rules and proofs repositories answer; a failed query is logged and ignored. -/
structure Lookups where
  rule : String → Option CheckRule
  proofHashes : Nat → List String

structure CheckResultPayload (V : Type) where
  resultId : String
  checkId : String
  status : String
  score : Option Int
  proofHash : Option String
  executedAt : Nat
  durationMs : Option Int
  rawData : Option V
  category : Option String
  severity : Option String
  framework : Option String
  controlId : Option String

structure ResultUploadResponse where
  accepted : Nat
  acceptedResultIds : Option (List String)
  rejected : Nat

structure UploadResult where
  uploaded : Nat
  rejected : Nat
  pending : Nat
  deriving DecidableEq, Repr

variable {V : Type} (f : Formats V) (d : Lookups)

def measurementText (result : CheckResult) : String :=
  result.checkRuleId ++ "|" ++ f.toRfc3339 result.executedAt ++ "|" ++ (result.id.getD 0).repr

def measurementId (result : CheckResult) : String := f.digest (measurementText f result)

def CheckResultPayload.ofCheckResult (result : CheckResult) : CheckResultPayload V where
  resultId := measurementId f result
  checkId := result.checkRuleId
  status := result.status.asStr
  score := result.score
  proofHash := none
  executedAt := result.executedAt
  durationMs := result.durationMs
  rawData := result.rawData.bind f.fromStr
  category := none
  severity := none
  framework := none
  controlId := some result.checkRuleId

def CheckResultPayload.withRule (payload : CheckResultPayload V) (rule : Option CheckRule) :
    CheckResultPayload V :=
  match rule with
  | some rule =>
    { payload with
      category := some rule.category
      severity := some rule.severity.asStr
      framework := if rule.frameworks.isEmpty then payload.framework else rule.frameworks.head? }
  | none => payload

def CheckResultPayload.withProof (payload : CheckResultPayload V) (id : Option Nat) :
    CheckResultPayload V :=
  match id.map d.proofHashes with
  | some (hash :: _) => { payload with proofHash := some hash }
  | _ => payload

def payloadOf (result : CheckResult) : CheckResultPayload V :=
  ((CheckResultPayload.ofCheckResult f result).withRule (d.rule result.checkRuleId)).withProof d
    result.id

def acknowledgedIds (results : List CheckResult) (response : ResultUploadResponse) : List Nat :=
  match response.acceptedResultIds with
  | some ids =>
    (results.filter fun r => ids.contains (measurementId f r)).filterMap CheckResult.id
  | none =>
    if response.rejected = 0 ∧ response.accepted = results.length then
      results.filterMap CheckResult.id
    else []

def uploadBatch (t : CheckResultsTable) (results : List CheckResult)
    (answer : Option ResultUploadResponse) : CheckResultsTable × Option UploadResult :=
  if results.isEmpty then (t, some { uploaded := 0, rejected := 0, pending := 0 })
  else
    match answer with
    | none => (t, none)
    | some response =>
      (markSynced (acknowledgedIds f results response) t,
        some { uploaded := (acknowledgedIds f results response).length
               rejected := response.rejected, pending := 0 })

/- One call: the rows the query gave it and the answer to its request. -/
structure Upload where
  batch : List CheckResultRow
  answer : Option ResultUploadResponse

def uploadPending (t : CheckResultsTable) (u : Upload) : CheckResultsTable × Option UploadResult :=
  if u.batch.isEmpty then (t, some { uploaded := 0, rejected := 0, pending := 0 })
  else
    match uploadBatch f t (u.batch.map rowToCheckResult) u.answer with
    | (t', none) => (t', none)
    | (t', some result) => (t', some { result with pending := min 1 (unsynced t').length })

def uploadStep (t : CheckResultsTable) (u : Upload) : CheckResultsTable := (uploadPending f t u).1

/- The loop asks again while something is pending and something was uploaded; a failed call
   ends it. -/
def uploadAll (t : CheckResultsTable) : List Upload → CheckResultsTable × Option Nat
  | [] => (t, some 0)
  | u :: us =>
    match uploadPending f t u with
    | (t', none) => (t', none)
    | (t', some result) =>
      if result.pending = 0 ∨ result.uploaded = 0 then (t', some result.uploaded)
      else ((uploadAll t' us).1, (uploadAll t' us).2.map (result.uploaded + ·))

variable {f d} {t : CheckResultsTable} {u : Upload}

@[simp] theorem acknowledgedIds_nil (response : ResultUploadResponse) :
    acknowledgedIds f [] response = [] := by
  unfold acknowledgedIds
  split
  · rfl
  · split <;> rfl

/-- What a call does to the table. -/
theorem uploadStep_eq : uploadStep f t u =
    markSynced ((u.answer.map (acknowledgedIds f (u.batch.map rowToCheckResult))).getD []) t := by
  obtain ⟨batch, answer⟩ := u
  unfold uploadStep uploadPending uploadBatch
  cases batch with
  | nil =>
    cases answer with
    | none => rfl
    | some response =>
      have nothing := acknowledgedIds_nil (f := f) response
      simp [nothing, markSynced]
  | cons row batch =>
    cases answer with
    | none => rfl
    | some response => rfl

/-- The loop makes some of the calls it could make, in their order. -/
theorem uploadAll_run (t : CheckResultsTable) (us : List Upload) :
    ∃ n, (uploadAll f t us).1 = Runs.run (uploadStep f) t (us.take n) := by
  induction us generalizing t with
  | nil => exact ⟨0, rfl⟩
  | cons u us ih =>
    unfold uploadAll
    have here : (uploadPending f t u).1 = uploadStep f t u := rfl
    split
    · rename_i t' same
      rw [same] at here
      exact ⟨1, by simpa using here⟩
    · rename_i t' result same
      rw [same] at here
      simp only at here
      split
      · exact ⟨1, by simpa using here⟩
      · obtain ⟨n, later⟩ := ih t'
        refine ⟨n + 1, ?_⟩
        rw [List.take_succ_cons, Runs.run_cons, ← here]
        exact later

/-- The text of a measurement ends in its row's number, behind its last bar. -/
theorem measurementText_injective {a b : CheckResult}
    (same : measurementText f a = measurementText f b) : a.id.getD 0 = b.id.getD 0 := by
  have no_bar : ∀ n : Nat, '|' ∉ n.repr.toList := by
    intro n member
    have digit := Text.repr_digits n '|' member
    exact absurd digit (by decide)
  have cut : ∀ r : CheckResult, (measurementText f r).toList =
      (r.checkRuleId.toList ++ '|' :: (f.toRfc3339 r.executedAt).toList) ++
        '|' :: (r.id.getD 0).repr.toList := by
    intro r
    have bar : "|".toList = ['|'] := by decide
    simp [measurementText, String.toList_append, bar]
  have lists := congrArg String.toList same
  rw [cut, cut] at lists
  have numbers := (Lines.cut_last (no_bar _) (no_bar _) lists).2
  exact Text.repr_injective (String.toList_injective numbers)

end SentinelAgent.ResultUpload
