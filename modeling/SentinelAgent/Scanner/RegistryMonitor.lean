import SentinelAgent.Core.Incidents
import SentinelAgent.Library.Json
import SentinelAgent.Library.Ordered
import SentinelAgent.Library.Text
import Mathlib.Data.List.Sort

/-!
The registry values a program uses to start by itself: those of a list of keys are read at every
scan and compared with what the last reading found, which is also kept in a file.
-/
namespace SentinelAgent.RegistryMonitor
open Core Ordered Text

def maxValuesPerKey : Nat := 500
def maxChangesPerReading : Nat := 25

def runKey : String := "SOFTWARE\\Microsoft\\Windows\\CurrentVersion\\Run"
def runOnceKey : String := "SOFTWARE\\Microsoft\\Windows\\CurrentVersion\\RunOnce"
def ifeo : String :=
  "HKEY_LOCAL_MACHINE\\SOFTWARE\\Microsoft\\Windows NT\\CurrentVersion\\Image File Execution Options"

/- A key that is read. No values stand for all of them. -/
structure Watched where
  key : String
  values : List String
  what : String
  technique : String
  severity : IncidentSeverity

def watched : List Watched :=
  [⟨"HKEY_LOCAL_MACHINE\\SOFTWARE\\Microsoft\\Windows\\CurrentVersion\\Run", [],
      "un programme lancé à chaque ouverture de session", "T1547.001", .high⟩,
    ⟨"HKEY_LOCAL_MACHINE\\SOFTWARE\\Microsoft\\Windows\\CurrentVersion\\RunOnce", [],
      "un programme lancé à la prochaine ouverture de session", "T1547.001", .medium⟩,
    ⟨"HKEY_LOCAL_MACHINE\\SOFTWARE\\WOW6432Node\\Microsoft\\Windows\\CurrentVersion\\Run", [],
      "un programme lancé à chaque ouverture de session", "T1547.001", .high⟩,
    ⟨"HKEY_LOCAL_MACHINE\\SOFTWARE\\WOW6432Node\\Microsoft\\Windows\\CurrentVersion\\RunOnce", [],
      "un programme lancé à la prochaine ouverture de session", "T1547.001", .medium⟩,
    ⟨"HKEY_LOCAL_MACHINE\\SOFTWARE\\Microsoft\\Windows\\CurrentVersion\\Policies\\Explorer\\Run", [],
      "un programme lancé à chaque ouverture de session, par stratégie", "T1547.001", .high⟩,
    ⟨"HKEY_LOCAL_MACHINE\\SOFTWARE\\Microsoft\\Windows NT\\CurrentVersion\\Winlogon",
      ["Shell", "Userinit", "Taskman"], "le programme qui ouvre la session", "T1547.004", .critical⟩,
    ⟨"HKEY_LOCAL_MACHINE\\SOFTWARE\\Microsoft\\Windows NT\\CurrentVersion\\Windows",
      ["AppInit_DLLs", "LoadAppInit_DLLs"], "une bibliothèque chargée dans chaque processus",
      "T1546.010", .high⟩,
    ⟨"HKEY_LOCAL_MACHINE\\SYSTEM\\CurrentControlSet\\Control\\Lsa",
      ["Authentication Packages", "Notification Packages", "Security Packages"],
      "une bibliothèque chargée par le service d'ouverture de session", "T1547.002", .high⟩,
    ⟨"HKEY_LOCAL_MACHINE\\SYSTEM\\CurrentControlSet\\Control\\Session Manager", ["BootExecute"],
      "un programme exécuté avant l'ouverture de la session", "T1547.001", .high⟩,
    ⟨"HKEY_LOCAL_MACHINE\\SYSTEM\\CurrentControlSet\\Control\\Session Manager\\AppCertDlls", [],
      "une bibliothèque chargée dans chaque processus qui en lance un autre", "T1546.009", .high⟩,
    ⟨"HKEY_LOCAL_MACHINE\\SOFTWARE\\Classes\\exefile\\shell\\open\\command", [],
      "ce qui s'exécute au lancement de tout programme", "T1546.001", .critical⟩]

def entry (key value : String) : String := key ++ "\\" ++ value

/- How one reading of the registry is answered. A key that does not exist, or that cannot be
   read, has no values. -/
structure RegistryReader where
  values : String → Option (List (String × String))
  subkeysWithValue : String → String → List (String × String)
  userSids : List String

def hives : List (String × String) :=
  [("HKLM", "HKEY_LOCAL_MACHINE"), ("HKU", "HKEY_USERS"), ("HKCR", "HKEY_CLASSES_ROOT"),
    ("HKCC", "HKEY_CURRENT_CONFIG")]

def longHive (key : String) (hive : String × String) : Option String :=
  match afterStart hive.1 key with
  | some rest => if rest = "" ∨ startsWith rest '\\' then some (hive.2 ++ rest) else none
  | none => none

def fullKey (key : String) : String :=
  let key := trimEndOf '\\' (trim key)
  (hives.findSome? (longHive key)).getD key

structure Value where
  key : String
  name : String
  data : String
  deriving DecidableEq

def Value.entry (value : Value) : String := RegistryMonitor.entry value.key value.name

def isWanted (wanted : List String) (name : String) : Bool :=
  wanted.isEmpty || wanted.any fun one => eqIgnoreAsciiCase one name

def readKey (reader : RegistryReader) (key : String) (wanted : List String) : List Value :=
  match reader.values key with
  | some found =>
    ((found.take maxValuesPerKey).filter fun value => isWanted wanted value.1).map fun value =>
      ⟨key, value.1, value.2⟩
  | none => []

def userKeys (reader : RegistryReader) : List String :=
  reader.userSids.flatMap fun sid =>
    ["HKEY_USERS\\" ++ sid ++ "\\" ++ runKey, "HKEY_USERS\\" ++ sid ++ "\\" ++ runOnceKey]

/- The values of a reading, in the order they are read in. -/
def valuesRead (reader : RegistryReader) (extra : List String) : List Value :=
  (watched.flatMap fun location => readKey reader location.key location.values) ++
    (extra.flatMap fun key => readKey reader key []) ++
    ((userKeys reader).flatMap fun key => readKey reader key []) ++
    (((reader.subkeysWithValue ifeo "Debugger").take maxValuesPerKey).map fun found =>
      ⟨found.1, "Debugger", found.2⟩)

abbrev Snapshot := Std.TreeMap String String

def snapshotWith (reader : RegistryReader) (extra : List String) : Snapshot :=
  collectAs Value.entry Value.data (valuesRead reader extra)

structure RegistryChange where
  entry : String
  before : Option String
  after : String
  deriving DecidableEq

/- Among the longest the last, as the source's `max_by_key` has it. -/
def longest (locations : List Watched) : Option Watched :=
  locations.foldl (fun best location =>
    match best with
    | some other =>
      if location.key.utf8ByteSize < other.key.utf8ByteSize then some other else some location
    | none => some location) none

def meaning (entry : String) : String × String × IncidentSeverity :=
  let upper := toAsciiUppercase entry
  if beginsWith (toAsciiUppercase ifeo) upper then
    ("un programme exécuté à la place d'un autre", "T1546.012", .high)
  else if beginsWith "HKEY_USERS\\" upper then
    if contains upper "\\RUNONCE\\" then
      ("un programme lancé à la prochaine ouverture de session d'un utilisateur", "T1547.001",
        .medium)
    else
      ("un programme lancé à chaque ouverture de session d'un utilisateur", "T1547.001", .high)
  else
    match longest (watched.filter fun location =>
        beginsWith (toAsciiUppercase location.key ++ "\\") upper) with
    | some location => (location.what, location.technique, location.severity)
    | none => ("une valeur d'une clé que la configuration surveille", "T1112", .medium)

def jsonText (s : String) : Json Nat := .string s.toList

def evidence (change : RegistryChange) (technique : String) : Json Nat :=
  .object
    [("detection".toList, jsonText "registry"),
      ("entry".toList, jsonText change.entry),
      ("before".toList, match change.before with
        | some before => jsonText before
        | none => .null),
      ("after".toList, jsonText change.after),
      ("attack_techniques".toList, .array [jsonText technique])]

def RegistryChange.incident (now : Int) (change : RegistryChange) : SecurityIncident (Json Nat) where
  incidentType := .unauthorizedChange
  severity := (meaning change.entry).2.2
  title := match change.before with
    | none => "Valeur de registre ajoutée : " ++ change.entry
    | some _ => "Valeur de registre modifiée : " ++ change.entry
  description := match change.before with
    | none => change.entry ++ " a été ajoutée avec la donnée « " ++ change.after ++
        " ». Cet emplacement définit " ++ (meaning change.entry).1 ++ "."
    | some before => change.entry ++ " est passée de « " ++ before ++ " » à « " ++ change.after ++
        " ». Cet emplacement définit " ++ (meaning change.entry).1 ++ "."
  evidence := evidence change (meaning change.entry).2.1
  confidence := 75
  detectedAt := now

def changeOf (before : Snapshot) (now : String × String) : Option RegistryChange :=
  if before[now.1]? = some now.2 then none else some ⟨now.1, before[now.1]?, now.2⟩

def changes (before after : Snapshot) : List RegistryChange :=
  after.toList.filterMap (changeOf before)

/- The monitor, and the values of the state file. -/
structure Monitor where
  saved : Option Snapshot
  extraKeys : List String
  stored : Option Snapshot

/- A state file that cannot be read is no reference. -/
def Monitor.withReader (m : Monitor) (fileRead : Bool) : Monitor :=
  { m with saved := if fileRead then m.stored else none, extraKeys := [] }

def Monitor.withKeys (m : Monitor) (keys : List String) : Monitor :=
  { m with
    extraKeys := (((keys.map fullKey).filter (beginsWith "HKEY_")).insertionSort (· ≤ ·)).eraseReps }

def Monitor.holds (m : Monitor) (current : Snapshot) : Bool :=
  m.saved.map Std.TreeMap.toList == some current.toList

/- Written apart and renamed, so that a file that is not written stays as it was. -/
def Monitor.save (m : Monitor) (current : Snapshot) (fileWritten : Bool) : Monitor :=
  if m.holds current then m
  else { m with saved := some current, stored := if fileWritten then some current else m.stored }

/- A reading that finds nothing after one that found something is not taken. -/
def skips (previous current : Snapshot) : Bool := current.isEmpty && !previous.isEmpty

def Monitor.check (m : Monitor) (now : Int) (reader : RegistryReader) (fileWritten : Bool) :
    Monitor × List (SecurityIncident (Json Nat)) :=
  let current := snapshotWith reader m.extraKeys
  match m.saved with
  | none => (m.save current fileWritten, [])
  | some previous =>
    if skips previous current then (m, [])
    else (m.save current fileWritten,
      ((changes previous current).take maxChangesPerReading).map (RegistryChange.incident now))

end SentinelAgent.RegistryMonitor
