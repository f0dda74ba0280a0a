import SentinelAgent.Library.Maps
import SentinelAgent.Library.Tasks

/-!
The configuration of the agent: local overrides and the values of the platform in one table, the
first of which a merge does not touch. A synchronisation, a pushed configuration and an override
are tasks of their own, whose steps are calls of the database or downloads. Beside the table
stands what was decided: the overrides that were set and not removed, and the configuration of
the platform that was last applied.
-/
namespace SentinelAgent.ConfigSync

open Maps

inductive ConfigSource where
  | «local» | remote
  deriving DecidableEq

/- A row, under its key. The value is JSON, in its text. -/
structure ConfigEntry where
  value : String
  updatedAt : Nat
  syncedAt : Option Nat
  source : ConfigSource
  deriving DecidableEq

abbrev Table := Map String ConfigEntry

/-! The repository. Each of these is one call of the database. -/

def setWithSource (key value : String) (source : ConfigSource) (now : Nat) (t : Table) : Table :=
  t.insert key
    { value := value
      updatedAt := now
      syncedAt := if source = .remote then some now else none
      source := source }

def getLocalOverrides (t : Table) : Table := t.retain fun _ e => decide (e.source = .local)

def deleteRemoteConfig (t : Table) : Table := t.retain fun _ e => decide (e.source ≠ .remote)

def hasLocalOverride (key : String) (t : Table) : Bool :=
  (t.lookup key).any fun e => decide (e.source = .local)

/- A map of keys to values, in the order in which it is gone through. -/
structure Config where
  entries : List (String × String)
  distinct : (entries.map Prod.fst).Nodup

structure MergeResult where
  added : Nat
  updated : Nat
  skipped : Nat
  skippedKeys : List String
  deriving DecidableEq

/- `merge_remote_config` under way: the overrides as they were read, and the entries gone
   through and left. -/
structure Merge where
  config : Config
  localKeys : Table
  passed : List (String × String)
  rest : List (String × String)
  result : MergeResult

def Merge.start (config : Config) (overrides : Table) : Merge where
  config := config
  localKeys := overrides
  passed := []
  rest := config.entries
  result := { added := 0, updated := 0, skipped := 0, skippedKeys := [] }

def Merge.skip (m : Merge) (key value : String) : Merge :=
  { m with
    passed := m.passed ++ [(key, value)]
    result := { m.result with
      skipped := m.result.skipped + 1
      skippedKeys := m.result.skippedKeys ++ [key] } }

def Merge.written (m : Merge) (key value : String) (existing : Bool) : Merge :=
  { m with
    passed := m.passed ++ [(key, value)]
    result :=
      if existing then { m.result with updated := m.result.updated + 1 }
      else { m.result with added := m.result.added + 1 } }

/- The event for those that follow the configuration: the rows whose value is not what it was. -/
structure ConfigChangeEvent where
  changed : Table
  timestamp : Nat

def changedKeys (previous current : Table) : Table :=
  current.retain fun key e => decide ((previous.lookup key).map ConfigEntry.value ≠ some e.value)

/-! The tasks. -/

/- Who merges: a pushed configuration, or a synchronisation, which remembers whether it was forced
   and what the configuration was before. -/
inductive Caller where
  | push
  | sync (forced : Bool) (previous : Table)

/- What a task does next. -/
inductive Call where
  | setLocalOverride (key value : String)
  -- `remove_local_override`: it looks, then deletes
  | removeLocalOverride (key : String)
  | delete (key : String)
  -- `force_sync`, which goes on as `sync_config`
  | deleteRemote
  | agentId (forced : Bool)
  | remember (forced : Bool)
  | download (forced : Bool) (previous : Table)
  -- `merge_remote_config`, which `store_remote_values` begins with
  | overrides (caller : Caller) (config : Config)
  | next (caller : Caller) (m : Merge)
  | write (caller : Caller) (m : Merge) (key value : String) (existing : Bool)
  -- the end of `sync_config`
  | compare (forced : Bool) (previous : Table) (m : Merge)

/- A step is done, fails (the task then ends with an error), or brings the configuration. -/
inductive Event where
  | done (now : Nat)
  | fails
  | downloads (config : Config)

structure Decided where
  overrides : Map String String
  platform : Map String String

structure Shared where
  table : Table
  change : Option ConfigChangeEvent
  decided : Decided

/- A configuration applied as a whole. -/
def Config.applied (c : Config) : Map String String := insertAll Prod.fst Prod.snd c.entries ∅

/- A pushed value is applied when the merge has come to it, those of a synchronisation when it
   returns. -/
def Caller.applies (caller : Caller) (key value : String) (d : Decided) : Decided :=
  match caller with
  | .push => { d with platform := d.platform.insert key value }
  | .sync _ _ => d

def Shared.notified (s : Shared) (previous : Table) (now : Nat) : Option ConfigChangeEvent :=
  let changed := changedKeys previous s.table
  if changed.keys = ∅ then s.change else some { changed := changed, timestamp := now }

def Call.done (s : Shared) (now : Nat) : Call → Shared × Option Call
  | .setLocalOverride key value =>
    ({ s with
      table := setWithSource key value .local now s.table
      decided := { s.decided with overrides := s.decided.overrides.insert key value } }, none)
  | .removeLocalOverride key =>
    (s, if hasLocalOverride key s.table then some (.delete key) else none)
  | .delete key =>
    ({ s with
      table := s.table.erase key
      decided := { s.decided with overrides := s.decided.overrides.erase key } }, none)
  | .deleteRemote => ({ s with table := deleteRemoteConfig s.table }, some (.agentId true))
  | .agentId forced => (s, some (.remember forced))
  | .remember forced => (s, some (.download forced s.table))
  | .download forced previous => (s, some (.download forced previous))
  | .overrides caller config =>
    (s, some (.next caller (.start config (getLocalOverrides s.table))))
  | .next caller m =>
    match m.rest with
    | [] =>
      match caller with
      | .push => (s, none)
      | .sync forced previous => (s, some (.compare forced previous m))
    | (key, value) :: rest =>
      if key ∈ m.localKeys then
        ({ s with decided := caller.applies key value s.decided },
          some (.next caller ({ m with rest := rest }.skip key value)))
      else (s, some (.write caller { m with rest := rest } key value (decide (key ∈ s.table))))
  | .write caller m key value existing =>
    ({ s with
      table := setWithSource key value .remote now s.table
      decided := caller.applies key value s.decided },
      some (.next caller (m.written key value existing)))
  | .compare _ previous m =>
    ({ s with
      change := s.notified previous now
      decided := { s.decided with platform := m.config.applied } }, none)

def Call.step (s : Shared) (call : Call) : Event → Shared × Option Call
  | .done now => call.done s now
  | .fails => (s, none)
  | .downloads config =>
    match call with
    | .download forced previous => (s, some (.overrides (.sync forced previous) config))
    | _ => (s, some call)

/- The calls a task begins with. -/
def Call.begins : Call → Bool
  | .setLocalOverride _ _ | .removeLocalOverride _ | .deleteRemote | .agentId false => true
  | .overrides .push _ => true
  | _ => false

abbrev State := Tasks.State Shared Call

abbrev Act := Tasks.Act Call Event

def State.step : State → Act → State := Tasks.next Call.begins Call.step

/- Before any task: what is in the table was decided. -/
def State.start (t : Table) : State where
  shared :=
    { table := t
      change := none
      decided :=
        { overrides := (getLocalOverrides t).adjust fun _ e => e.value
          platform := (t.retain fun _ e => decide (e.source = .remote)).adjust fun _ e => e.value } }
  calls := []

end SentinelAgent.ConfigSync
