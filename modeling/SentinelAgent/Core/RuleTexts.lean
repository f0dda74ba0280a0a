import SentinelAgent.Core.DefaultRules
import SentinelAgent.Library.JsonRead

/- The texts of rules in JSON, as a serialisation that is read back. -/
namespace SentinelAgent.DefaultRules

def DetectionConditionType.serialName : DetectionConditionType → String
  | processNameContains => "process_name_contains"
  | networkPort => "network_port"
  | fimPathMatch => "fim_path_match"
  | commandLineContains => "command_line_contains"
  | severityLevel => "severity_level"

def PlaybookActionType.serialName : PlaybookActionType → String
  | killProcess => "kill_process"
  | quarantineFile => "quarantine_file"
  | blockIp => "block_ip"
  | isolateHost => "isolate_host"
  | sendSiemAlert => "send_siem_alert"
  | createNotification => "create_notification"
  | disableAccount => "disable_account"
  | runCommand => "run_command"

/- A name is read in its own spelling or in the other one. -/
def readConditionType (text : String) : Option DetectionConditionType :=
  [.processNameContains, .networkPort, .fimPathMatch, .commandLineContains, .severityLevel].find?
    fun kind : DetectionConditionType => kind.serialName == text || kind.asStr == text

def readActionType (text : String) : Option PlaybookActionType :=
  [.killProcess, .quarantineFile, .blockIp, .isolateHost, .sendSiemAlert, .createNotification,
    .disableAccount, .runCommand].find?
      fun kind : PlaybookActionType => kind.serialName == text || kind.asStr == text

theorem readConditionType_serialName (kind : DetectionConditionType) :
    readConditionType kind.serialName = some kind := by
  cases kind <;> decide

theorem readActionType_serialName (kind : PlaybookActionType) :
    readActionType kind.serialName = some kind := by
  cases kind <;> decide

/- No text of a rule has a number in it. -/
def noNumberText : Empty → List Char := Empty.elim

def noNumber (_ : List Char) : Option (Empty × List Char) := none

theorem no_numbers : Json.Numbers noNumber noNumberText where
  reads n := n.elim
  starts n := n.elim

def jsonString (s : String) : Json Empty := .string s.toList

def write (value : Json Empty) : String := String.ofList (Json.text noNumberText value)

def read (text : String) : Option (Json Empty) := Json.read noNumber text.toList

theorem read_write (value : Json Empty) : read (write value) = some value := by
  rw [read, write, String.toList_ofList]
  exact Json.read_text no_numbers value

theorem write_injective : Function.Injective write := by
  intro a b same
  have read_a := read_write a
  rw [same, read_write b] at read_a
  exact (Option.some.inj read_a).symm

def conditionJson (condition : DetectionCondition) : Json Empty :=
  .object [("condition_type".toList, jsonString condition.conditionType.serialName),
    ("value".toList, jsonString condition.value)]

def readCondition (value : Json Empty) : Option DetectionCondition := do
  let kind ← (value.get "condition_type").bind Json.asStr
  let kind ← readConditionType kind
  let value ← (value.get "value").bind Json.asStr
  some ⟨kind, value⟩

theorem readCondition_json (condition : DetectionCondition) :
    readCondition (conditionJson condition) = some condition := by
  obtain ⟨kind, value⟩ := condition
  have kind_there : (conditionJson ⟨kind, value⟩).get "condition_type" =
      some (jsonString kind.serialName) := rfl
  have value_there : (conditionJson ⟨kind, value⟩).get "value" = some (jsonString value) := rfl
  have text : ∀ s, (jsonString s).asStr = some s := fun s => by
    simp [jsonString, Json.asStr]
  rw [readCondition, kind_there, value_there, Option.bind_some, Option.bind_some, text, text]
  simp only [Option.bind_eq_bind, Option.bind_some, readConditionType_serialName]

def actionJson (action : PlaybookActionType) : Json Empty := jsonString action.serialName

def readAction (value : Json Empty) : Option PlaybookActionType := value.asStr.bind readActionType

theorem readAction_json (action : PlaybookActionType) : readAction (actionJson action) = some action := by
  simp [readAction, actionJson, jsonString, Json.asStr, readActionType_serialName]

def readList {A : Type} (readOne : Json Empty → Option A) (text : String) : Option (List A) :=
  ((read text).bind Json.asArray).bind fun items => items.mapM readOne

theorem readList_write {A : Type} {readOne : Json Empty → Option A} {writeOne : A → Json Empty}
    (reads : ∀ a, readOne (writeOne a) = some a) (as : List A) :
    readList readOne (write (.array (as.map writeOne))) = some as := by
  rw [readList, read_write]
  show (as.map writeOne).mapM readOne = some as
  induction as with
  | nil => rfl
  | cons a as ih => simp [reads, ih]

def definitionJson (d : Definition) : Json Empty :=
  .object [("name".toList, jsonString d.name), ("description".toList, jsonString d.description),
    ("severity".toList, jsonString d.severity),
    ("conditions".toList, .array (d.conditions.map fun c => .array [jsonString c.1, jsonString c.2])),
    ("actions".toList, .array (d.actions.map jsonString))]

theorem jsonString_injective : Function.Injective jsonString := by
  intro a b same
  exact String.toList_inj.mp (Json.string.inj same)

theorem definitionJson_injective : Function.Injective definitionJson := by
  rintro ⟨name, description, severity, conditions, actions⟩ ⟨_, _, _, _, _⟩ same
  simp only [definitionJson, Json.object.injEq, List.cons.injEq, Prod.mk.injEq, true_and, and_true,
    Json.array.injEq] at same
  obtain ⟨names, descriptions, severities, conditions, actions⟩ := same
  cases jsonString_injective names
  cases jsonString_injective descriptions
  cases jsonString_injective severities
  have pairs : Function.Injective fun c : String × String =>
      (Json.array [jsonString c.1, jsonString c.2] : Json Empty) := by
    rintro ⟨a, b⟩ ⟨c, d⟩ same
    simp only [Json.array.injEq, List.cons.injEq, and_true] at same
    rw [jsonString_injective same.1, jsonString_injective same.2]
  rw [List.map_injective_iff.mpr pairs conditions,
    List.map_injective_iff.mpr jsonString_injective actions]

/- Times before and after the epoch, each in its own number of marks. -/
def epoch : String := "1970-01-01T00:00:00+00:00"

def timeText (time : Int) : String :=
  epoch ++ String.ofList (if time < 0 then List.replicate time.natAbs '-'
    else List.replicate time.natAbs '+')

def readTime (text : String) : Option Int :=
  (Text.afterStart epoch text).map fun marks =>
    if Text.startsWith marks '-' then -(marks.length : Int) else marks.length

theorem readTime_timeText (time : Int) : readTime (timeText time) = some time := by
  have after : ∀ marks : List Char,
      Text.afterStart epoch (epoch ++ String.ofList marks) = some (String.ofList marks) := by
    intro marks
    simp [Text.afterStart, Text.beginsWith, String.toList_append, String.toList_ofList]
  rw [readTime, timeText, after, Option.map_some]
  by_cases past : time < 0
  · obtain ⟨marks, count⟩ : ∃ n, time.natAbs = n + 1 := ⟨time.natAbs - 1, by omega⟩
    simp only [if_pos past, count, Text.startsWith, String.toList_ofList, List.replicate_succ,
      List.head?_cons, beq_self_eq_true, if_true, String.length_ofList, List.length_cons,
      List.length_replicate]
    congr 1
    omega
  · have unmarked : ¬ (List.replicate time.natAbs '+').head? = some '-' := by
      cases time.natAbs with
      | zero => simp
      | succ n => simp [List.replicate_succ]
    simp only [if_neg past, Text.startsWith, String.toList_ofList, beq_iff_eq, if_neg unmarked,
      String.length_ofList, List.length_replicate]
    congr 1
    omega

/- The texts of JSON, and of times at the epoch as they are written. -/
def serialTexts : Codec where
  conditionsText conditions := write (.array (conditions.map conditionJson))
  readConditions := readList readCondition
  conditions_read := readList_write readCondition_json
  actionsText actions := write (.array (actions.map actionJson))
  readActions := readList readAction
  actions_read := readList_write readAction_json
  timeText := timeText
  readTime := readTime
  time_read := readTime_timeText
  definitionText d := write (definitionJson d)
  definitionText_injective _ _ same := definitionJson_injective (write_injective same)

end SentinelAgent.DefaultRules
