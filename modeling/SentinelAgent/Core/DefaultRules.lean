import SentinelAgent.Library.Maps
import SentinelAgent.Library.Text

/-!
The detection rules an agent is shipped with, and how they are installed among the rules of the
endpoint. What the platform is sent of them is left out: the platform may do anything with it.
-/
namespace SentinelAgent.DefaultRules
open Maps Text

inductive Severity where
  | critical | high | medium | low | info
  deriving DecidableEq

def Severity.asStr : Severity → String
  | critical => "critical"
  | high => "high"
  | medium => "medium"
  | low => "low"
  | info => "info"

inductive DetectionConditionType where
  | processNameContains | networkPort | fimPathMatch | commandLineContains | severityLevel
  deriving DecidableEq

def DetectionConditionType.asStr : DetectionConditionType → String
  | processNameContains => "ProcessNameContains"
  | networkPort => "NetworkPort"
  | fimPathMatch => "FimPathMatch"
  | commandLineContains => "CommandLineContains"
  | severityLevel => "SeverityLevel"

inductive PlaybookActionType where
  | killProcess | quarantineFile | blockIp | isolateHost | sendSiemAlert | createNotification
  | disableAccount | runCommand
  deriving DecidableEq

def PlaybookActionType.asStr : PlaybookActionType → String
  | killProcess => "KillProcess"
  | quarantineFile => "QuarantineFile"
  | blockIp => "BlockIp"
  | isolateHost => "IsolateHost"
  | sendSiemAlert => "SendSiemAlert"
  | createNotification => "CreateNotification"
  | disableAccount => "DisableAccount"
  | runCommand => "RunCommand"

structure DetectionCondition where
  conditionType : DetectionConditionType
  value : String
  deriving DecidableEq

structure DetectionRule where
  id : String
  name : String
  description : String
  severity : Severity
  conditions : List DetectionCondition
  actions : List PlaybookActionType
  enabled : Bool
  createdAt : Int
  lastMatch : Option Int
  matchCount : Nat
  deriving DecidableEq

/- A row of the database. -/
structure StoredDetectionRule where
  id : String
  name : String
  description : String
  severity : String
  conditions : String
  actions : String
  enabled : Bool
  createdAt : String
  lastMatch : Option String
  matchCount : Nat
  synced : Bool
  deriving DecidableEq

structure Definition where
  name : String
  description : String
  severity : String
  conditions : List (String × String)
  actions : List String
  deriving DecidableEq

/- The texts libraries write: what they wrote they read back. -/
structure Codec where
  conditionsText : List DetectionCondition → String
  readConditions : String → Option (List DetectionCondition)
  conditions_read : ∀ conditions, readConditions (conditionsText conditions) = some conditions
  actionsText : List PlaybookActionType → String
  readActions : String → Option (List PlaybookActionType)
  actions_read : ∀ actions, readActions (actionsText actions) = some actions
  timeText : Int → String
  readTime : String → Option Int
  time_read : ∀ time, readTime (timeText time) = some time
  definitionText : Definition → String
  definitionText_injective : Function.Injective definitionText

variable (codec : Codec)

/- In any case of letters; a letter that only Unicode gives a lower case is in none of these. -/
def readSeverity (text : String) : Option Severity :=
  match toAsciiLowercase text with
  | "critical" => some .critical
  | "high" => some .high
  | "medium" => some .medium
  | "low" => some .low
  | "info" => some .info
  | _ => none

/- What cannot be read is left out of the rule, which is then off. -/
def storedRuleToDto (now : Int) (s : StoredDetectionRule) : DetectionRule where
  id := s.id
  name := s.name
  description := s.description
  severity := (readSeverity s.severity).getD .medium
  conditions := (codec.readConditions s.conditions).getD []
  actions := (codec.readActions s.actions).getD []
  enabled := s.enabled && ((codec.readConditions s.conditions).isSome &&
    (codec.readActions s.actions).isSome)
  createdAt := (codec.readTime s.createdAt).getD now
  lastMatch := s.lastMatch.bind codec.readTime
  matchCount := s.matchCount

def i32Max : Nat := 2147483647

def ruleToStored (rule : DetectionRule) (synced : Bool) : StoredDetectionRule where
  id := rule.id
  name := rule.name
  description := rule.description
  severity := rule.severity.asStr
  conditions := codec.conditionsText rule.conditions
  actions := codec.actionsText rule.actions
  enabled := rule.enabled
  createdAt := codec.timeText rule.createdAt
  lastMatch := rule.lastMatch.map codec.timeText
  matchCount := min rule.matchCount i32Max
  synced := synced

def conditionNames (conditions : List DetectionCondition) : List (String × String) :=
  conditions.map fun c => (c.conditionType.asStr, c.value)

def definitionOf (rule : DetectionRule) : Definition where
  name := rule.name
  description := rule.description
  severity := rule.severity.asStr
  conditions := conditionNames rule.conditions
  actions := rule.actions.map PlaybookActionType.asStr

/- The definition as the text that is remembered and compared. -/
def definition (rule : DetectionRule) : String := codec.definitionText (definitionOf rule)

/- A rule of a catalogue. -/
structure Entry where
  slug : String
  name : String
  description : String
  severity : Severity
  conditions : List DetectionCondition
  deriving DecidableEq

def defaultRule (createdAt : Int) (entry : Entry) : DetectionRule where
  id := "default-" ++ entry.slug
  name := entry.name
  description := entry.description
  severity := entry.severity
  conditions := entry.conditions
  actions := []
  enabled := true
  createdAt := createdAt
  lastMatch := none
  matchCount := 0

def defaultRules (catalog : List Entry) (createdAt : Int) : List DetectionRule :=
  catalog.map (defaultRule createdAt)

structure InstallPlan where
  insert : List DetectionRule
  update : List DetectionRule
  installed : Map String String

/- The shipped version of a rule, on or off as the rule is, with its matches. -/
def updated (current shipped : DetectionRule) : DetectionRule :=
  { shipped with
    enabled := current.enabled
    createdAt := current.createdAt
    lastMatch := current.lastMatch
    matchCount := current.matchCount }

def planRule (existing : Map String DetectionRule) (installed : Map String String)
    (plan : InstallPlan) (shipped : DetectionRule) : InstallPlan :=
  let remembered := plan.installed.insert shipped.id (definition codec shipped)
  match existing.lookup shipped.id with
  | none =>
    -- deleted since it was installed
    if (installed.lookup shipped.id).isSome then plan
    else { plan with insert := plan.insert ++ [shipped], installed := remembered }
  | some current =>
    if definition codec current = definition codec shipped then
      { plan with installed := remembered }
    else if installed.lookup shipped.id = some (definition codec current) then
      { plan with update := plan.update ++ [updated current shipped], installed := remembered }
    else plan

def planInstall (catalog : List DetectionRule) (existing : Map String DetectionRule)
    (installed : Map String String) : InstallPlan :=
  catalog.foldl (planRule codec existing installed) ⟨[], [], installed⟩

def forgetDeleted (installed : Map String String) (existing : Map String DetectionRule) :
    Map String String :=
  installed.retain fun id _ => (existing.lookup id).isSome

/- The rules of an endpoint, and the definition remembered of each shipped rule. -/
structure Endpoint where
  rules : Map String StoredDetectionRule
  installed : Map String String

def storedRulesToDto (now : Int) (rules : Map String StoredDetectionRule) :
    Map String DetectionRule :=
  rules.adjust fun _ row => storedRuleToDto codec now row

/- The endpoint afterwards and how many rules were installed or updated; nothing when the rules
   cannot be read. -/
def installDefaultRules (now : Int) (catalog : List Entry) (restoreDeleted : Bool)
    (endpoint : Endpoint) : Option (Endpoint × Nat) :=
  if 0 < endpoint.rules.entries.countP fun entry => i32Max < entry.2.matchCount then none
  else
    let existing := storedRulesToDto codec now endpoint.rules
    let installed :=
      if restoreDeleted then forgetDeleted endpoint.installed existing else endpoint.installed
    let plan := planInstall codec (defaultRules catalog now) existing installed
    let changed := plan.insert ++ plan.update
    some (⟨insertAll DetectionRule.id (fun rule => ruleToStored codec rule false) changed
      endpoint.rules, plan.installed⟩, changed.length)

end SentinelAgent.DefaultRules
