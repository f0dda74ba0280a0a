import Mathlib.Data.Multiset.Sort
import SentinelAgent.Library.Maps
import SentinelAgent.Response.Playbook

/- Detection rules: what they find in the engines' findings and in the activity observed on the
   host, and the memory of what they have reported. The confidence, a constant, and the wall
   clock of a match are left out. -/
namespace SentinelAgent.Response
open Text
open Maps (Map)

inductive Severity where
  | critical | high | medium | low | info
  deriving DecidableEq

def Severity.asStr : Severity → String
  | .critical => "critical"
  | .high => "high"
  | .medium => "medium"
  | .low => "low"
  | .info => "info"

inductive DetectionConditionType where
  | processNameContains | networkPort | fimPathMatch | commandLineContains | severityLevel
  deriving DecidableEq

structure DetectionCondition where
  conditionType : DetectionConditionType
  value : String
  deriving DecidableEq

structure DetectionRule where
  id : String
  name : String
  severity : Severity
  conditions : List DetectionCondition
  actions : List PlaybookActionType
  enabled : Bool

inductive RuleTarget where
  | process (name : String) (pid : UInt32)
  | connection (remoteIp : String) (port : UInt16)
  | file (path : String) (removed : Bool)
  deriving DecidableEq

structure RuleMatch where
  ruleId : String
  ruleName : String
  severity : String
  matchedValue : String
  targets : List RuleTarget

structure ObservedConnection where
  remoteIp : String
  port : UInt16
  processName : Option String

structure ObservedActivity where
  processes : List ProcessInfo
  connections : List ObservedConnection

/- Times are in nanoseconds. -/
def reminder : Nat := 24 * 60 * 60 * 1000000000

def capacity : Nat := 20000

/- When each observation was last reported. -/
abbrev RuleHitMemory := Map String Nat

namespace RuleHitMemory

def forgetOldest (memory : RuleHitMemory) (now : Nat) : RuleHitMemory :=
  let recent := Map.retain (fun _ time => decide (now - time < reminder)) memory
  if recent.size < capacity then recent
  else
    let ages := (recent.entries.map fun entry => entry.2).sort (· ≤ ·)
    let median := ages.getD (ages.length / 2) 0
    Map.retain (fun _ time => decide (median < time)) recent

/- Whether the key is to be reported now. It is then remembered. -/
def report (memory : RuleHitMemory) (key : String) (now : Nat) : Bool × RuleHitMemory :=
  if (memory.lookup key).any (fun time => decide (now - time < reminder)) then (false, memory)
  else
    let memory := if capacity ≤ memory.size then memory.forgetOldest now else memory
    (true, memory.insert key now)

end RuleHitMemory

/- An observation that a condition matches. -/
structure Hit where
  key : String
  said : String
  target : RuleTarget

/- The start of a command line. -/
def excerpt (commandLine : String) : String :=
  let text := (trim commandLine).toList
  if text.length ≤ 160 then String.ofList text
  else String.ofList (text.take 160) ++ "\u2026"

def networkAlertTarget (alert : NetworkAlertInfo) : List RuleTarget :=
  ((alert.remoteIp.filter fun ip => trim ip ≠ "").map fun ip =>
    RuleTarget.connection ip (alert.port.getD 0)).toList

def portOf (condition : DetectionCondition) : Option UInt16 :=
  (parseUnsigned 16 (trim condition.value)).map UInt16.ofNat

section Evaluation
variable (toLowercase : String → String)

def processKey (ruleId : String) (name : String) (pid : UInt32) : String :=
  let name := toLowercase name
  s!"{ruleId}\u001fprocess\u001f{pid}\u001f{name}"

def connectionKey (ruleId : String) (remoteIp : String) (port : UInt16) : String :=
  s!"{ruleId}\u001fconnection\u001f{remoteIp}\u001f{port}"

def severityToLevel (severity : String) : Option Nat :=
  let level := toLowercase (trim severity)
  if level = "critical" then some 4
  else if level = "high" then some 3
  else if level = "medium" then some 2
  else if level = "low" then some 1
  else if level = "info" then some 0
  else none

def fileTarget (alert : FimAlertInfo) : RuleTarget :=
  let change := toLowercase alert.changeType
  .file alert.path (contains change "delet" || contains change "remov")

def saidOfName (process : ProcessInfo) : String :=
  s!"Processus {process.name} (PID {process.pid})"

def saidOfCommand (process : ProcessInfo) : String :=
  let start := excerpt process.commandLine
  s!"Processus {process.name} (PID {process.pid}) : {start}"

def saidOfConnection (connection : ObservedConnection) : String :=
  let peer := s!"Connexion vers {connection.remoteIp}:{connection.port}"
  match connection.processName with
  | some process => if trim process ≠ "" then s!"{peer} par {process}" else peer
  | none => peer

/- What a condition matches in the observed activity, in the order it was observed. -/
def observedHits (ruleId : String) (condition : DetectionCondition) (observed : ObservedActivity) :
    List Hit :=
  let needle := toLowercase condition.value
  match condition.conditionType with
  | .processNameContains =>
    (observed.processes.filter fun p => contains (toLowercase p.name) needle).map fun p =>
      ⟨processKey toLowercase ruleId p.name p.pid, saidOfName p, .process p.name p.pid⟩
  | .commandLineContains =>
    (observed.processes.filter fun p => contains (toLowercase p.commandLine) needle).map fun p =>
      ⟨processKey toLowercase ruleId p.name p.pid, saidOfCommand p, .process p.name p.pid⟩
  | .networkPort =>
    match portOf condition with
    | some port =>
      (observed.connections.filter fun c => c.port == port).map fun c =>
        ⟨connectionKey ruleId c.remoteIp port, saidOfConnection c, .connection c.remoteIp port⟩
    | none => []
  -- file changes and severities are matched in what the engines flagged
  | .fimPathMatch => []
  | .severityLevel => []

/- Of the hits those that are to be reported now, and the memory after them. -/
def reportHits (now : Nat) : List Hit → RuleHitMemory → List Hit × RuleHitMemory
  | [], memory => ([], memory)
  | hit :: later, memory =>
    let reported := memory.report hit.key now
    let rest := reportHits now later reported.2
    (if reported.1 then hit :: rest.1 else rest.1, rest.2)

/- The first hit, the number of the others, and what all of them found. -/
def describe : List Hit → Option (String × List RuleTarget)
  | [] => none
  | first :: others =>
    let count := others.length
    let plural := if 1 < count then "s" else ""
    let said := if 0 < count then s!"{first.said} (+{count} autre{plural})" else first.said
    some (said, (first :: others).map Hit.target)

def observedMatch (ruleId : String) (condition : DetectionCondition) (observed : ObservedActivity)
    (memory : RuleHitMemory) (now : Nat) :
    Option (String × List RuleTarget) × RuleHitMemory :=
  let reported := reportHits now (observedHits toLowercase ruleId condition observed) memory
  (describe reported.1, reported.2)

/- What an engine flagged that the condition matches: the first of it. -/
def flaggedMatch (condition : DetectionCondition) (context : ThreatContext) :
    Option (String × List RuleTarget) :=
  let needle := toLowercase condition.value
  match condition.conditionType with
  | .processNameContains =>
    (context.suspiciousProcesses.find? fun p => contains (toLowercase p.name) needle).map fun p =>
      (saidOfName p, [.process p.name p.pid])
  | .commandLineContains =>
    (context.suspiciousProcesses.find? fun p => contains (toLowercase p.commandLine) needle).map
      fun p => (saidOfCommand p, [.process p.name p.pid])
  | .networkPort =>
    match portOf condition with
    | some port =>
      (context.networkAlerts.find? fun a => a.port == some port).map fun a =>
        (s!"Alerte réseau sur le port {port} : {a.description}", networkAlertTarget a)
    | none => none
  | .fimPathMatch =>
    (context.fimAlerts.find? fun f => contains (toLowercase f.path) needle).map fun f =>
      (s!"Fichier {f.path} ({f.changeType})", [fileTarget toLowercase f])
  | .severityLevel =>
    match severityToLevel toLowercase condition.value with
    | some threshold =>
      (context.networkAlerts.find? fun a =>
        (severityToLevel toLowercase a.severity).any fun level => threshold ≤ level).map fun a =>
          (s!"Sévérité {a.severity} >= {condition.value} : {a.description}", networkAlertTarget a)
    | none => none

/- An empty condition would match everything: such a one does not fire. -/
def DetectionRule.live (rule : DetectionRule) : List DetectionCondition :=
  if rule.enabled then rule.conditions.filter fun c => trim c.value ≠ "" else []

/- One condition of a rule: the memory takes what was observed, whether or not it is reported. -/
def evaluateCondition (context : ThreatContext) (observed : ObservedActivity) (now : Nat)
    (found : List RuleMatch × RuleHitMemory) (rule : DetectionRule)
    (condition : DetectionCondition) : List RuleMatch × RuleHitMemory :=
  let matched := flaggedMatch toLowercase condition context
  let observedHit := observedMatch toLowercase rule.id condition observed found.2 now
  match matched.or observedHit.1 with
  | some said =>
    (found.1 ++ [⟨rule.id, rule.name, rule.severity.asStr, said.1, said.2⟩], observedHit.2)
  | none => (found.1, observedHit.2)

def evaluateDetectionRules (rules : List DetectionRule) (context : ThreatContext)
    (observed : ObservedActivity) (memory : RuleHitMemory) (now : Nat) :
    List RuleMatch × RuleHitMemory :=
  rules.foldl (fun found rule =>
    rule.live.foldl (fun found condition =>
      evaluateCondition toLowercase context observed now found rule condition) found) ([], memory)

end Evaluation

end SentinelAgent.Response
