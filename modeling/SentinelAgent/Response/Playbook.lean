import SentinelAgent.Library.Text

/- Playbooks: the conditions they check against the current threats and the
   actions they resolve. The confidence, a float no action depends on, is left
   out. -/
namespace SentinelAgent.Response
open Text

inductive PlaybookConditionType where
  | processNameMatch | networkAlertType | fimChange | severityThreshold | cvssScore
  deriving DecidableEq

inductive PlaybookActionType where
  | killProcess | quarantineFile | blockIp | isolateHost | sendSiemAlert | createNotification
  | disableAccount | runCommand
  deriving DecidableEq

structure PlaybookCondition where
  conditionType : PlaybookConditionType
  operator : String
  value : String

structure PlaybookAction where
  actionType : PlaybookActionType
  parameters : String

structure Playbook where
  id : String
  name : String
  enabled : Bool
  conditions : List PlaybookCondition
  actions : List PlaybookAction

structure ProcessInfo where
  name : String
  pid : UInt32
  commandLine : String

structure NetworkAlertInfo where
  alertType : String
  remoteIp : Option String
  port : Option UInt16
  severity : String
  description : String
  user : Option String

structure FimAlertInfo where
  path : String
  changeType : String

structure ThreatContext where
  suspiciousProcesses : List ProcessInfo
  networkAlerts : List NetworkAlertInfo
  fimAlerts : List FimAlertInfo

/- What a response command is told: the targets the playbook acts on. -/
structure Targets where
  processes : List (String × UInt32)
  files : List String
  addresses : List String
  accounts : List String
  deriving DecidableEq

structure CommandContext where
  playbook : String
  matchedConditions : List String
  targets : Targets
  deriving DecidableEq

inductive ResolvedAction where
  | killProcess (name : String) (pid : UInt32)
  | quarantineFile (path : String)
  | blockIp (ip : String) (durationSecs : Nat)
  | alert (title severity description : String)
  | notify (message : String)
  | isolateHost (durationSecs : Nat)
  | disableAccount (user : String) (durationSecs : Nat)
  | runCommand (name : String) (context : CommandContext)
  deriving DecidableEq

structure PlaybookEvaluation where
  playbookId : String
  playbookName : String
  triggered : Bool
  matchedConditions : List String
  actions : List ResolvedAction

def defaultBlockSecs : Nat := 3600
def defaultAccountLockSecs : Nat := 3600
def defaultIsolationSecs : Nat := 3600

/- A duration in seconds, as the parameter of an action gives it. -/
def durationOr (unread : Nat) (parameters : String) : Nat :=
  (parseUnsigned 64 (trim parameters)).getD unread

def blockDuration (parameters : String) : Nat := durationOr defaultBlockSecs parameters
def accountLockDuration (parameters : String) : Nat := durationOr defaultAccountLockSecs parameters
def isolationDuration (parameters : String) : Nat := durationOr defaultIsolationSecs parameters

def severityRank (value : String) : Option Nat :=
  let level := toAsciiLowercase (trim value)
  if level = "info" then some 0
  else if level = "low" then some 1
  else if level = "medium" then some 2
  else if level = "high" then some 3
  else if level = "critical" then some 4
  else none

/- What a condition's value matches. `toLowercase` is that of all of Unicode. -/
section Conditions
variable (toLowercase : String → String)

def processMatches (condition : PlaybookCondition) (process : ProcessInfo) : Bool :=
  contains (toLowercase process.name) (toLowercase condition.value)

def alertMatches (condition : PlaybookCondition) (alert : NetworkAlertInfo) : Bool :=
  contains (toLowercase alert.alertType) (toLowercase condition.value) ||
    contains (toLowercase alert.description) (toLowercase condition.value) ||
    toLowercase alert.severity == toLowercase condition.value

def fileMatches (condition : PlaybookCondition) (alert : FimAlertInfo) : Bool :=
  contains (toLowercase alert.path) (toLowercase condition.value) ||
    toLowercase alert.changeType == toLowercase condition.value

def severityReached (condition : PlaybookCondition) (alert : NetworkAlertInfo) : Bool :=
  match severityRank alert.severity, severityRank (toLowercase condition.value) with
  | some actual, some threshold => decide (threshold ≤ actual)
  | _, _ => false

/- A blank value would match everything: the condition is skipped. -/
def skipped (condition : PlaybookCondition) : Bool :=
  trim (toLowercase condition.value) == "" && condition.conditionType != .cvssScore

/- What an alert that matched is about. -/
def alertTargets (alert : NetworkAlertInfo) : List ResolvedAction :=
  (alert.remoteIp.map (ResolvedAction.blockIp · defaultBlockSecs)).toList ++
    (alert.user.map (ResolvedAction.disableAccount · defaultAccountLockSecs)).toList

/- The entities one condition matches, each with the text that records it and
   the actions it is a candidate for. -/
def hits (context : ThreatContext) (condition : PlaybookCondition) :
    List (String × List ResolvedAction) :=
  if skipped toLowercase condition then []
  else match condition.conditionType with
    | .processNameMatch =>
      (context.suspiciousProcesses.filter (processMatches toLowercase condition)).map
        fun process => ("Process '" ++ process.name ++ "' matches '" ++ condition.value ++ "'",
          [.killProcess process.name process.pid])
    | .networkAlertType =>
      (context.networkAlerts.filter (alertMatches toLowercase condition)).map
        fun alert => ("Network alert matches '" ++ condition.value ++ "'", alertTargets alert)
    | .fimChange =>
      (context.fimAlerts.filter (fileMatches toLowercase condition)).map
        fun alert => ("FIM alert on path matching '" ++ condition.value ++ "'",
          [.quarantineFile alert.path])
    | .severityThreshold =>
      (context.networkAlerts.filter (severityReached toLowercase condition)).map
        fun _ => ("Severity '" ++ condition.value ++ "' matches threshold", [])
    | .cvssScore => []

/- The accumulators of the loop over the conditions. -/
structure Tally where
  matchedConditions : List String
  actions : List ResolvedAction
  conditionsMatched : Nat

def tallyOne (context : ThreatContext) (tally : Tally) (condition : PlaybookCondition) : Tally :=
  let found := hits toLowercase context condition
  { matchedConditions := tally.matchedConditions ++ found.map Prod.fst
    actions := tally.actions ++ found.flatMap Prod.snd
    conditionsMatched := tally.conditionsMatched + if found = [] then 0 else 1 }

def tally (context : ThreatContext) (conditions : List PlaybookCondition) : Tally :=
  conditions.foldl (tallyOne toLowercase context) ⟨[], [], 0⟩

end Conditions

/- The operator of the first condition decides. -/
def Playbook.operator (playbook : Playbook) : String :=
  (playbook.conditions.head?.map (·.operator)).getD "any"

def isAll (operator : String) : Bool := operator == "all" || operator == "and" || operator == "AND"

def playbookTriggers (operator : String) (conditionsMatched totalConditions : Nat) : Bool :=
  if isAll operator then
    decide (0 < totalConditions ∧ totalConditions ≤ conditionsMatched)
  else decide (0 < conditionsMatched)

/- Whether a configured action lets a candidate through. -/
def authorizes (configured : PlaybookActionType) : ResolvedAction → Bool
  | .killProcess .. => configured == .killProcess
  | .quarantineFile .. => configured == .quarantineFile
  | .blockIp .. => configured == .blockIp
  | .disableAccount .. => configured == .disableAccount
  | _ => false

def Playbook.configuredParameters (playbook : Playbook) (actionType : PlaybookActionType) :
    Option String :=
  (playbook.actions.find? (·.actionType == actionType)).map (·.parameters)

/- Each account is locked and each address blocked once, for the time asked. -/
def once (lockSecs blockSecs : Option Nat) (locked blocked : List String) :
    List ResolvedAction → List ResolvedAction
  | [] => []
  | .disableAccount user _ :: rest =>
    let kept := once lockSecs blockSecs (locked ++ [user]) blocked rest
    if user ∈ locked then kept
    else .disableAccount user (lockSecs.getD defaultAccountLockSecs) :: kept
  | .blockIp ip _ :: rest =>
    let kept := once lockSecs blockSecs locked (blocked ++ [ip]) rest
    if ip ∈ blocked then kept
    else .blockIp ip (blockSecs.getD defaultBlockSecs) :: kept
  | action :: rest => action :: once lockSecs blockSecs locked blocked rest

def addTarget (targets : Targets) : ResolvedAction → Targets
  | .killProcess name pid => { targets with processes := targets.processes ++ [(name, pid)] }
  | .quarantineFile path => { targets with files := targets.files ++ [path] }
  | .blockIp ip _ => { targets with addresses := targets.addresses ++ [ip] }
  | .disableAccount user _ => { targets with accounts := targets.accounts ++ [user] }
  | _ => targets

/- One configured action that asks for no target. -/
def addConfigured (playbook : Playbook) (matchedConditions : List String)
    (actions : List ResolvedAction) (configured : PlaybookAction) : List ResolvedAction :=
  match configured.actionType with
  | .createNotification =>
    let text := trim configured.parameters
    actions ++ [.notify (if text = "" then
      "Déclenché : " ++ " ; ".intercalate matchedConditions else text)]
  | .isolateHost => actions ++ [.isolateHost (isolationDuration configured.parameters)]
  | .runCommand => actions ++ [.runCommand (trim configured.parameters)
      ⟨playbook.name, matchedConditions, actions.foldl addTarget ⟨[], [], [], []⟩⟩]
  | .sendSiemAlert => actions ++ [.alert ("Playbook '" ++ playbook.name ++ "' triggered") "medium"
      ("Conditions matched: " ++ ", ".intercalate matchedConditions)]
  | _ => actions

def evaluatePlaybook (toLowercase : String → String) (playbook : Playbook)
    (context : ThreatContext) : PlaybookEvaluation :=
  if playbook.enabled then
    let found := tally toLowercase context playbook.conditions
    let triggered :=
      playbookTriggers playbook.operator found.conditionsMatched playbook.conditions.length
    let allowed := found.actions.filter fun candidate =>
      triggered && playbook.actions.any (authorizes ·.actionType candidate)
    let lockSecs := (playbook.configuredParameters .disableAccount).map accountLockDuration
    let blockSecs := (playbook.configuredParameters .blockIp).map blockDuration
    let kept := once lockSecs blockSecs [] [] allowed
    { playbookId := playbook.id
      playbookName := playbook.name
      triggered := triggered
      matchedConditions := found.matchedConditions
      actions := if triggered then
        playbook.actions.foldl (addConfigured playbook found.matchedConditions) kept else kept }
  else ⟨playbook.id, playbook.name, false, [], []⟩

end SentinelAgent.Response
