import SentinelAgent.Library.Oldest

/-!
The table of check results (`check_results`). Times are whole seconds, as `insert` stores
them; stored as text of one width they sort as the numbers do.
-/
namespace SentinelAgent.CheckResults
open AutoTables Oldest

inductive CheckStatus where
  | pass | fail | error | skip | notApplicable
  deriving DecidableEq, Repr

namespace CheckStatus

def asStr : CheckStatus → String
  | pass => "pass"
  | fail => "fail"
  | error => "error"
  | skip => "skip"
  | notApplicable => "not_applicable"

def parseStr (s : String) : Option CheckStatus :=
  if s = "pass" then some pass
  else if s = "fail" then some fail
  else if s = "error" then some error
  else if s = "skip" then some skip
  else if s = "not_applicable" then some notApplicable
  else none

theorem parseStr_asStr (status : CheckStatus) : parseStr status.asStr = some status := by
  cases status <;> decide

end CheckStatus

structure CheckResultRow where
  id : Nat
  checkRuleId : String
  status : String
  score : Option Int
  message : Option String
  rawData : Option String
  executedAt : Nat
  durationMs : Option Int
  synced : Bool
  deriving DecidableEq, Repr

structure CheckResult where
  id : Option Nat
  checkRuleId : String
  status : CheckStatus
  score : Option Int
  message : Option String
  rawData : Option String
  executedAt : Nat
  durationMs : Option Int
  synced : Bool
  deriving DecidableEq, Repr

def rowToCheckResult (row : CheckResultRow) : CheckResult where
  id := some row.id
  checkRuleId := row.checkRuleId
  status := (CheckStatus.parseStr row.status).getD .error
  score := row.score
  message := row.message
  rawData := row.rawData
  executedAt := row.executedAt
  durationMs := row.durationMs
  synced := row.synced

abbrev CheckResultsTable := AutoTable CheckResultRow.id

def unsynced (t : CheckResultsTable) : List CheckResultRow := t.rows.filter fun row => !row.synced

/- `WHERE synced = 0 ORDER BY executed_at ASC LIMIT ?`: the statement does not say how rows of
   one second are ordered. -/
def GetUnsynced (limit : Nat) (t : CheckResultsTable) (batch : List CheckResultRow) : Prop :=
  Taken CheckResultRow.executedAt limit (unsynced t) batch

def setSynced (ids : List Nat) : RowEdit CheckResultRow.id where
  edit row := if row.id ∈ ids then { row with synced := true } else row
  keyed := by
    intro row
    split <;> rfl

def markSynced (ids : List Nat) (t : CheckResultsTable) : CheckResultsTable :=
  if ids.isEmpty then t else t.update (setSynced ids)

variable {t : CheckResultsTable} {row : CheckResultRow} {ids : List Nat}

@[simp] theorem mem_unsynced : row ∈ unsynced t ↔ row ∈ t ∧ row.synced = false := by
  simp [unsynced]

theorem unsynced_nodup (t : CheckResultsTable) : (unsynced t).Nodup :=
  (List.Nodup.of_map CheckResultRow.id t.keys_nodup).filter _

/-- A marked row differs in nothing but the mark. -/
theorem mem_markSynced : row ∈ markSynced ids t ↔
    ∃ old ∈ t, row = if old.id ∈ ids then { old with synced := true } else old := by
  unfold markSynced
  split
  · rename_i none_named
    rw [List.isEmpty_iff.mp none_named]
    simp
  · rw [AutoTable.mem_update]
    exact exists_congr fun old => and_congr_right fun _ => eq_comm

theorem unsynced_markSynced (ids : List Nat) (t : CheckResultsTable) :
    unsynced (markSynced ids t) = (unsynced t).filter fun row => decide (row.id ∉ ids) := by
  unfold markSynced
  split
  · rename_i none_named
    rw [List.isEmpty_iff.mp none_named]
    simp
  · rw [unsynced, unsynced, AutoTable.update, List.filter_map, List.filter_filter]
    have kept : ∀ old : CheckResultRow, ((fun row => !row.synced) ∘ (setSynced ids).edit) old =
        (decide (old.id ∉ ids) && !old.synced) := by
      intro old
      by_cases named : old.id ∈ ids <;> simp [setSynced, named]
    rw [funext kept]
    refine (List.map_congr_left fun old member => ?_).trans (List.map_id _)
    have named : old.id ∉ ids := by
      have both := (List.mem_filter.mp member).2
      rw [Bool.and_eq_true] at both
      exact of_decide_eq_true both.1
    exact if_neg named

end SentinelAgent.CheckResults
