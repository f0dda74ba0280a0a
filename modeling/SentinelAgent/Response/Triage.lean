import SentinelAgent.Core.Incidents
import SentinelAgent.Library.Json
import SentinelAgent.Response.Allowlist
import SentinelAgent.Response.DetectionRules

/- What a pass of the main loop gives to the rules and the playbooks: the incidents, the network
   alerts, the file changes and the observed activity that no authorization covers, and the threat
   context built from them. `asU64` reads a JSON number as an unsigned one. -/
namespace SentinelAgent.Response
open Core Text

inductive AlertSeverity where
  | critical | high | medium | low
  deriving DecidableEq

def AlertSeverity.text : AlertSeverity → String
  | .critical => "critical"
  | .high => "high"
  | .medium => "medium"
  | .low => "low"

inductive NetworkAlertType where
  | c2Communication | cryptoMining | dataExfiltration | suspiciousPort | maliciousDestination
  | dnsTunneling | anonymizationNetwork | connectionAnomaly
  deriving DecidableEq

def networkAlertType : NetworkAlertType → String
  | .c2Communication => "c2_communication"
  | .cryptoMining => "crypto_mining"
  | .dataExfiltration => "data_exfiltration"
  | .suspiciousPort => "suspicious_port"
  | .maliciousDestination => "malicious_destination"
  | .dnsTunneling => "dns_tunneling"
  | .anonymizationNetwork => "anonymization_network"
  | .connectionAnomaly => "connection_anomaly"

structure NetworkConnection where
  remoteAddress : Option String
  remotePort : Option UInt16

structure NetworkSecurityAlert where
  alertType : NetworkAlertType
  severity : AlertSeverity
  description : String
  connection : Option NetworkConnection

/- A file that changed: its path and the kind of change. -/
abbrev FimChange := String × String

/- What a pass gathered. -/
structure PipelineInputs (N : Type) where
  incidents : List (SecurityIncident (Json N))
  networkAlerts : List NetworkSecurityAlert
  fimAlerts : List FimChange
  observed : ObservedActivity

section Triage
variable {N : Type} (regex : Regex) (rules : List AllowlistRule)

def unauthorizedObserved (observed : ObservedActivity) : ObservedActivity :=
  if rules = [] then observed
  else
    { processes := observed.processes.filter fun p =>
        !allowlistCovers regex rules .processPattern p.name
      connections := observed.connections.filter fun c =>
        !allowlistCovers regex rules .ipAddress c.remoteIp }

def processEvidence (incident : SecurityIncident (Json N)) : String :=
  ((incident.evidence.get "process_name").bind Json.asStr).getD ""

def incidentIsAuthorized (incident : SecurityIncident (Json N)) : Bool :=
  if rules = [] then false
  else allowlistCovers regex rules .processPattern (processEvidence incident) ||
    allowlistCovers regex rules .systemIncident incident.incidentType.display ||
    allowlistCovers regex rules .systemIncident incident.title

/- Only the remote peer is compared. -/
def networkAlertIsAuthorized (alert : NetworkSecurityAlert) : Bool :=
  (alert.connection.bind fun c => c.remoteAddress).any fun remote =>
    allowlistCovers regex rules .ipAddress remote

def fimPathIsAuthorized (path : String) : Bool := allowlistCovers regex rules .filePath path

def unauthorizedPipelineInputs (inputs : PipelineInputs N) : PipelineInputs N where
  incidents := inputs.incidents.filter fun i => !incidentIsAuthorized regex rules i
  networkAlerts := inputs.networkAlerts.filter fun a => !networkAlertIsAuthorized regex rules a
  fimAlerts := inputs.fimAlerts.filter fun change => !fimPathIsAuthorized regex rules change.1
  observed := unauthorizedObserved regex rules inputs.observed

end Triage

section Context
variable {N : Type} (asU64 : N → Option Nat)

def commandLineOf (evidence : Json N) : String :=
  (((evidence.get "cmdline").bind Json.asStr).or
    ((evidence.get "command_line").bind Json.asStr)).getD ""

/- Any incident with a process in its evidence. -/
def suspiciousProcess (incident : SecurityIncident (Json N)) : Option ProcessInfo := do
  let name ← (incident.evidence.get "process_name").bind Json.asStr
  let number ← (incident.evidence.get "pid").bind Json.asNumber
  let pid ← (asU64 number).filter fun pid => decide (pid < 2 ^ 32)
  if trim name ≠ "" ∧ 1 < pid then
    some ⟨name, UInt32.ofNat pid, commandLineOf incident.evidence⟩
  else none

def networkAlertInfo (alert : NetworkSecurityAlert) : NetworkAlertInfo where
  alertType := networkAlertType alert.alertType
  remoteIp := alert.connection.bind fun c => c.remoteAddress
  port := alert.connection.bind fun c => c.remotePort
  severity := alert.severity.text
  description := alert.description
  user := none

def logDetectionType (evidence : Json N) : String :=
  let techniques := ((evidence.get "attack_techniques").bind Json.asArray).getD []
  if (techniques.filterMap Json.asStr).any fun technique =>
    beginsWith "T1110" (toAsciiUppercase technique) then "brute_force"
  else "log_detection"

def eventField (evidence : Json N) (field : String) : Option String :=
  ((evidence.get "event").bind fun event => event.get field).bind Json.asStr

/- The remote address that a detection on the logs names. -/
def logSource (incident : SecurityIncident (Json N)) : Option String :=
  if (incident.evidence.get "detection").bind Json.asStr = some "sigma_log" then
    (eventField incident.evidence "src_ip").filter fun address => (parseIpAddr address).isSome
  else none

/- A detection on the logs that names a remote address is a network alert. The account is that
   of a session that was opened. -/
def logAlert (incident : SecurityIncident (Json N)) : Option NetworkAlertInfo :=
  (logSource incident).map fun address =>
    { alertType := logDetectionType incident.evidence
      remoteIp := some address
      port := none
      severity := incident.severity.display
      description := incident.title
      user := if eventField incident.evidence "action" = some "login_success" then
        eventField incident.evidence "user" else none }

def buildThreatContext (incidents : List (SecurityIncident (Json N)))
    (networkAlerts : List NetworkSecurityAlert) (fimAlerts : List FimChange) : ThreatContext where
  suspiciousProcesses := incidents.filterMap (suspiciousProcess asU64)
  networkAlerts := networkAlerts.map networkAlertInfo ++ incidents.filterMap logAlert
  fimAlerts := fimAlerts.map fun change => ⟨change.1, change.2⟩

/- What the rules and the playbooks are given. -/
def threatPipelineStage (regex : Regex) (rules : List AllowlistRule) (inputs : PipelineInputs N) :
    ThreatContext × ObservedActivity :=
  let triaged := unauthorizedPipelineInputs regex rules inputs
  (buildThreatContext asU64 triaged.incidents triaged.networkAlerts triaged.fimAlerts,
    triaged.observed)

end Context

/-! The responses of a rule. -/

def pushAction (resolved : List ResolvedAction) (action : ResolvedAction) : List ResolvedAction :=
  if action ∈ resolved then resolved else resolved ++ [action]

def RuleTarget.kill : RuleTarget → Option ResolvedAction
  | .process name pid => some (.killProcess name pid)
  | _ => none

def RuleTarget.quarantine : RuleTarget → Option ResolvedAction
  | .file path false => some (.quarantineFile path)
  | _ => none

def RuleTarget.block : RuleTarget → Option ResolvedAction
  | .connection remoteIp _ => some (.blockIp remoteIp defaultBlockSecs)
  | _ => none

/- What one response of a rule does to what was found. Locking an account and running a command
   need a parameter that a rule does not have. -/
def ruleActions (rule : DetectionRule) (found : RuleMatch) :
    PlaybookActionType → List ResolvedAction
  | .killProcess => found.targets.filterMap RuleTarget.kill
  | .quarantineFile => found.targets.filterMap RuleTarget.quarantine
  | .blockIp => found.targets.filterMap RuleTarget.block
  | .isolateHost => [.isolateHost (isolationDuration "")]
  | .sendSiemAlert =>
    [.alert ("Règle « " ++ rule.name ++ " » déclenchée") rule.severity.asStr found.matchedValue]
  | .createNotification => []
  | .disableAccount => []
  | .runCommand => []

def resolveRuleActions (rule : DetectionRule) (found : RuleMatch) : List ResolvedAction :=
  (rule.actions.flatMap (ruleActions rule found)).foldl pushAction []

end SentinelAgent.Response
