import SentinelAgent.Library.Json
import SentinelAgent.Library.Maps

/-!
The check rules of an agent: seeded from those built in, and synchronised with the list of the
platform by a tag. The table, the stored tag and the time of the last synchronisation are one
state. Times are in nanoseconds.
-/
namespace SentinelAgent.RuleSync
open Maps

inductive Severity where
  | critical | high | medium | low | info
  deriving DecidableEq

def Severity.asStr : Severity → String
  | critical => "critical"
  | high => "high"
  | medium => "medium"
  | low => "low"
  | info => "info"

def Severity.parseStr : String → Option Severity
  | "critical" => some critical
  | "high" => some high
  | "medium" => some medium
  | "low" => some low
  | "info" => some info
  | _ => none

/- A rule as the platform sends it. The parameters are JSON, here in their text. -/
structure ApiCheckRule where
  id : String
  name : String
  description : Option String
  category : String
  severity : String
  enabled : Bool
  checkType : String
  parameters : Option String
  frameworks : List String
  version : String
  createdAt : Int
  updatedAt : Int
  checkCommand : Option String
  expectedResult : Option String
  remediation : Option String
  platforms : Option (List String)
  controlId : Option String
  deriving DecidableEq

structure CheckRule where
  id : String
  name : String
  description : Option String
  category : String
  severity : Severity
  enabled : Bool
  checkType : String
  parameters : Option String
  frameworks : List String
  version : String
  createdAt : Int
  updatedAt : Int
  checkCommand : Option String
  expectedResult : Option String
  remediation : Option String
  platforms : Option (List String)
  controlId : Option String
  deriving DecidableEq

/- A severity that is not known is taken for medium. -/
def CheckRule.from (api : ApiCheckRule) : CheckRule where
  id := api.id
  name := api.name
  description := api.description
  category := api.category
  severity := (Severity.parseStr api.severity).getD .medium
  enabled := api.enabled
  checkType := api.checkType
  parameters := api.parameters
  frameworks := api.frameworks
  version := api.version
  createdAt := api.createdAt
  updatedAt := api.updatedAt
  checkCommand := api.checkCommand
  expectedResult := api.expectedResult
  remediation := api.remediation
  platforms := api.platforms
  controlId := api.controlId

/- A row of the table. -/
structure CheckRuleRow where
  id : String
  name : String
  description : Option String
  category : String
  severity : String
  enabled : Bool
  checkType : String
  parameters : Option String
  frameworks : String
  version : String
  createdAt : String
  updatedAt : String
  checkCommand : Option String
  expectedResult : Option String
  remediation : Option String
  platforms : Option String
  controlId : Option String
  deriving DecidableEq

def listText (items : List String) : String :=
  String.ofList (Json.text (Empty.elim : Empty → List Char)
    (.array (items.map fun s => .string s.toList)))

/- `timeText` writes a time. -/
variable (timeText : Int → String)

def CheckRule.row (rule : CheckRule) : CheckRuleRow where
  id := rule.id
  name := rule.name
  description := rule.description
  category := rule.category
  severity := rule.severity.asStr
  enabled := rule.enabled
  checkType := rule.checkType
  parameters := rule.parameters
  frameworks := listText rule.frameworks
  version := rule.version
  createdAt := timeText rule.createdAt
  updatedAt := timeText rule.updatedAt
  checkCommand := rule.checkCommand
  expectedResult := rule.expectedResult
  remediation := rule.remediation
  platforms := rule.platforms.map listText
  controlId := rule.controlId

structure RuleStore where
  rules : Map String CheckRuleRow
  etag : Option String
  lastSync : Option Int

/- Rules of one id replace each other in order. -/
def upsertBatch (batch : List CheckRule) (store : RuleStore) : RuleStore :=
  { store with rules := insertAll CheckRule.id (CheckRule.row timeText) batch store.rules }

/- The tag stays as it is when there is none. -/
def updateCacheMetadata (now : Int) (etag : Option String) (store : RuleStore) : RuleStore :=
  { store with lastSync := some now, etag := etag <|> store.etag }

def sevenDays : Int := 7 * 86400 * 1000000000

def isCacheValid (now : Int) (store : RuleStore) : Bool :=
  if store.rules.size = 0 then false
  else store.lastSync.any fun last => decide (now - sevenDays < last)

/- A check that is built in. -/
structure CheckDefinition where
  id : String
  name : String
  description : String
  category : String
  severity : Severity
  frameworks : List String

def builtinRule (now : Int) (check : CheckDefinition) : CheckRule where
  id := check.id
  name := check.name
  description := some check.description
  category := check.category
  severity := check.severity
  enabled := true
  checkType := check.id
  parameters := none
  frameworks := check.frameworks
  version := "builtin-1.0"
  createdAt := now
  updatedAt := now
  checkCommand := none
  expectedResult := none
  remediation := none
  platforms := none
  controlId := none

/- Each rule is made at its own time. -/
def seedBuiltinCheckRules (clock : Nat → Int) (checks : List CheckDefinition)
    (store : RuleStore) : RuleStore :=
  upsertBatch timeText (checks.zipIdx.map fun check => builtinRule (clock check.2) check.1) store

/-! The platform. A tag stands for one list; where the tag is, in the header of an answer or in
its body, is the platform's choice, and a list may have none. -/

inductive TagPlace where
  | header | body | both
  deriving DecidableEq

inductive PlatformList where
  | tagged (tag : String) (place : TagPlace)
  | untagged (rules : List ApiCheckRule)

/- The list each tag stands for. -/
variable (listOf : String → List ApiCheckRule)

namespace PlatformList

def rules : PlatformList → List ApiCheckRule
  | tagged tag _ => listOf tag
  | untagged rules => rules

def tag : PlatformList → Option String
  | tagged tag _ => some tag
  | untagged _ => none

def headerTag : PlatformList → Option String
  | tagged tag place => if place = .body then none else some tag
  | untagged _ => none

def bodyTag : PlatformList → Option String
  | tagged tag place => if place = .header then none else some tag
  | untagged _ => none

end PlatformList

/- An answer is given from the list there is, or the request fails. -/
abbrev Answer := Except String PlatformList

structure RulesResponse where
  rules : List ApiCheckRule
  etag : Option String

def responseOf (current : PlatformList) : RulesResponse := ⟨current.rules listOf, current.bodyTag⟩

/- Not modified exactly when the tag sent is that of the list. -/
def getWithEtag (etag : Option String) (answer : Answer) :
    Except String (Option (RulesResponse × Option String)) :=
  match answer with
  | .error e => .error e
  | .ok current =>
    if etag.isSome ∧ etag = current.tag then .ok none
    else .ok (some (responseOf listOf current, current.headerTag))

/- The list is asked for again, without a tag, when nothing is stored of it: `again` says whether
   that request is answered. -/
def downloadRules (store : RuleStore) (answer : Answer) (again : Except String Unit) :
    Except String (Option (RulesResponse × Option String)) :=
  match answer with
  | .error e => .error e
  | .ok current =>
    match getWithEtag listOf store.etag answer with
    | .error e => .error e
    | .ok (some (response, responseEtag)) => .ok (some (response, responseEtag <|> response.etag))
    | .ok none =>
      if store.rules.size = 0 then
        match again with
        | .error e => .error e
        | .ok () => .ok (some (responseOf listOf current, (responseOf listOf current).etag))
      else .ok none

structure RuleSyncResult where
  rulesSynced : Nat
  cacheHit : Bool
  newEtag : Option String
  syncedAt : Int
  warnings : List String
  deriving DecidableEq

def syncRules (now : Int) (answer : Answer) (again : Except String Unit) (store : RuleStore) :
    RuleStore × Except String RuleSyncResult :=
  match downloadRules listOf store answer again with
  | .ok (some (response, newEtag)) =>
    let rules := response.rules.map CheckRule.from
    (updateCacheMetadata now newEtag (upsertBatch timeText rules store),
      .ok ⟨rules.length, false, newEtag, now, []⟩)
  | .ok none =>
    (updateCacheMetadata now store.etag store, .ok ⟨0, true, store.etag, now, []⟩)
  | .error e =>
    if isCacheValid now store then
      (store, .ok ⟨0, true, store.etag, now, ["Download failed, using cache: " ++ e]⟩)
    else (store, .error e)

def forceSync (now : Int) (answer : Answer) (store : RuleStore) :
    RuleStore × Except String RuleSyncResult :=
  match answer with
  | .error e => (store, .error e)
  | .ok current =>
    let response := responseOf listOf current
    let rules := response.rules.map CheckRule.from
    (updateCacheMetadata now response.etag (upsertBatch timeText rules store),
      .ok ⟨rules.length, false, response.etag, now, []⟩)

end SentinelAgent.RuleSync
