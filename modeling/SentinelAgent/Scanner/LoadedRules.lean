import Mathlib.Data.Finset.Union
import SentinelAgent.Library.Text
import SentinelAgent.Scanner.EngineBuild

/-!
The rules of an endpoint: those of the operator's directory and those shipped with the agent,
sorted by what they are evaluated on. What a file holds is given as it was parsed.
-/
namespace SentinelAgent.Scanner
open Maps Text

/- A rule as it is read: what it says of events, and the product it is written for. -/
structure ReadRule where
  rule : SigmaRule
  product : Option String

inductive SigmaDocument where
  | rule (read : ReadRule)
  | correlation (rule : CorrelationRule)

def SigmaDocument.id : SigmaDocument → String
  | .rule read => read.rule.id
  | .correlation r => r.id

/- The log sources the agent reads. -/
structure LogCoverage where
  services : Finset String
  categories : Finset String

inductive EvaluatedOn where
  | processes
  | logs
  | nothing (reason : String)
  deriving DecidableEq

def targetOf (read : ReadRule) (product : String) (coverage : LogCoverage) : EvaluatedOn :=
  match read.product.filter fun wanted => wanted != product with
  | some wanted => .nothing s!"written for {wanted}"
  | none =>
    if read.rule.category = some "process_creation" then .processes
    else if read.rule.category = none ∧ read.rule.service = none then
      if read.product.isSome then .logs else .nothing "no log source"
    else
      match (read.rule.category.filter fun category => decide (category ∉ coverage.categories)).or
          (read.rule.service.filter fun service => decide (service ∉ coverage.services)) with
      | some source => .nothing s!"log source '{source}' is not collected"
      | none => .logs

structure SigmaLoadReport where
  loaded : Nat
  logRules : Nat
  correlations : Nat
  notApplicableReasons : Map String Nat
  notApplicable : Nat
  errors : List String

structure LoadedRules where
  processes : List ReadRule
  logs : List ReadRule
  correlations : List CorrelationRule
  /- Names of the rules read but not evaluated on this endpoint. -/
  absent : Finset String
  report : SigmaLoadReport

def LoadedRules.empty : LoadedRules where
  processes := []
  logs := []
  correlations := []
  absent := ∅
  report :=
    { loaded := 0, logRules := 0, correlations := 0, notApplicableReasons := ∅, notApplicable := 0
      errors := [] }

def SigmaLoadReport.leftOut (report : SigmaLoadReport) (reason : String) : SigmaLoadReport :=
  { report with
    notApplicable := report.notApplicable + 1
    notApplicableReasons := report.notApplicableReasons.insert reason
      ((report.notApplicableReasons.lookup reason).getD 0 + 1) }

def LoadedRules.failed (loaded : LoadedRules) (errors : List String) : LoadedRules :=
  { loaded with report := { loaded.report with errors := loaded.report.errors ++ errors } }

section Adding

variable (coverage : LogCoverage) (disabled : Finset String) (product : String)

def LoadedRules.addOne (loaded : LoadedRules) (document : SigmaDocument) : LoadedRules :=
  if document.id ∈ disabled then loaded
  else
    match document with
    | .correlation rule => { loaded with correlations := loaded.correlations ++ [rule] }
    | .rule read =>
      match targetOf read product coverage with
      | .processes => { loaded with processes := loaded.processes ++ [read] }
      | .logs => { loaded with logs := loaded.logs ++ [read] }
      | .nothing reason =>
        { loaded with
          absent := insert read.rule.id (loaded.absent ∪ read.rule.name.toList.toFinset)
          report := loaded.report.leftOut reason }

def LoadedRules.counted (loaded : LoadedRules) : LoadedRules :=
  { loaded with
    report := { loaded.report with
      loaded := loaded.processes.length
      logRules := loaded.logs.length
      correlations := loaded.correlations.length } }

def LoadedRules.add (loaded : LoadedRules) (documents : List SigmaDocument) : LoadedRules :=
  (documents.foldl (fun loaded document => loaded.addOne coverage disabled product document)
    loaded).counted

/-! What is added. -/

def processRules (documents : List SigmaDocument) : List ReadRule :=
  documents.filterMap fun document =>
    match document with
    | .rule read =>
      if read.rule.id ∉ disabled ∧ targetOf read product coverage = .processes then some read
      else none
    | .correlation _ => none

def logRules (documents : List SigmaDocument) : List ReadRule :=
  documents.filterMap fun document =>
    match document with
    | .rule read =>
      if read.rule.id ∉ disabled ∧ targetOf read product coverage = .logs then some read else none
    | .correlation _ => none

def correlationRules (documents : List SigmaDocument) : List CorrelationRule :=
  documents.filterMap fun document =>
    match document with
    | .correlation rule => if rule.id ∉ disabled then some rule else none
    | .rule _ => none

theorem addAll_eq (documents : List SigmaDocument) (loaded : LoadedRules) :
    let out := documents.foldl
      (fun loaded document => loaded.addOne coverage disabled product document) loaded
    out.processes = loaded.processes ++ processRules coverage disabled product documents ∧
      out.logs = loaded.logs ++ logRules coverage disabled product documents ∧
      out.correlations = loaded.correlations ++ correlationRules disabled documents := by
  induction documents generalizing loaded with
  | nil => simp [processRules, logRules, correlationRules]
  | cons document documents ih =>
    obtain ⟨processes, logs, correlations⟩ :=
      ih (loaded.addOne coverage disabled product document)
    dsimp only [List.foldl_cons] at processes logs correlations ⊢
    rw [processes, logs, correlations]
    simp only [processRules, logRules, correlationRules, List.filterMap_cons]
    cases document with
    | correlation rule =>
      by_cases off : rule.id ∈ disabled <;>
        simp [LoadedRules.addOne, SigmaDocument.id, off]
    | rule read =>
      by_cases off : read.rule.id ∈ disabled
      · simp [LoadedRules.addOne, SigmaDocument.id, off]
      · cases on : targetOf read product coverage <;>
          simp [LoadedRules.addOne, SigmaDocument.id, off, on]

theorem add_processes (loaded : LoadedRules) (documents : List SigmaDocument) :
    (loaded.add coverage disabled product documents).processes =
      loaded.processes ++ processRules coverage disabled product documents :=
  (addAll_eq coverage disabled product documents loaded).1

theorem add_logs (loaded : LoadedRules) (documents : List SigmaDocument) :
    (loaded.add coverage disabled product documents).logs =
      loaded.logs ++ logRules coverage disabled product documents :=
  (addAll_eq coverage disabled product documents loaded).2.1

theorem add_correlations (loaded : LoadedRules) (documents : List SigmaDocument) :
    (loaded.add coverage disabled product documents).correlations =
      loaded.correlations ++ correlationRules disabled documents :=
  (addAll_eq coverage disabled product documents loaded).2.2

end Adding

/-! The directory of the operator. -/

structure RuleFile where
  label : String
  /- Why the file is not trusted. -/
  untrusted : Option String
  tooLarge : Bool
  documents : Except String (List SigmaDocument)

structure RuleDirectory where
  label : String
  present : Bool
  untrusted : Option String
  /- In the order of their paths. -/
  files : List RuleFile
  disabledRules : Option String

def RuleDirectory.disabled (dir : RuleDirectory) : Finset String :=
  (((lines (dir.disabledRules.getD "")).map fun line =>
    trim ((split '#' line).headD "")).filter fun id => id != "").toFinset

section Loading

variable (coverage : LogCoverage) (product : String)

def LoadedRules.addFile (disabled : Finset String) (loaded : LoadedRules) (file : RuleFile) :
    LoadedRules :=
  match file.untrusted with
  | some reason => loaded.failed [s!"{file.label}: file ignored, it {reason}"]
  | none =>
    if file.tooLarge then loaded.failed [s!"{file.label}: file ignored, it is too large"]
    else
      match file.documents with
      | .ok documents => loaded.add coverage disabled product documents
      | .error e => loaded.failed [s!"{file.label}: {e}"]

def loadRulesFor (dir : RuleDirectory) : LoadedRules :=
  if dir.present then
    match dir.untrusted with
    | some reason => LoadedRules.empty.failed [s!"{dir.label}: directory ignored, it {reason}"]
    | none => dir.files.foldl (LoadedRules.addFile coverage product dir.disabled) LoadedRules.empty
  else LoadedRules.empty

/- The documents of the rules shipped with the agent. -/
def builtinDocuments (shipped : List (String × Except String (List SigmaDocument))) :
    List SigmaDocument × List String :=
  (shipped.flatMap fun file => file.2.toOption.getD [],
    shipped.filterMap fun file =>
      match file.2 with
      | .ok _ => none
      | .error e => some s!"built-in {file.1}: {e}")

def replaced (loaded : LoadedRules) : List String :=
  (loaded.logs.map fun read => read.rule.id) ++ loaded.correlations.map fun rule => rule.id

def loadFor (shipped : List (String × Except String (List SigmaDocument))) (dir : RuleDirectory) :
    LoadedRules × LogRuleEngine :=
  let own := loadRulesFor coverage product dir
  let builtin := builtinDocuments shipped
  let loaded := (own.failed builtin.2).add coverage dir.disabled product
    (builtin.1.filter fun document => decide (document.id ∉ replaced own))
  let built := withAbsent (loaded.logs.map fun read => read.rule) loaded.correlations loaded.absent
  ({ loaded with
      logs := []
      correlations := []
      report := { loaded.report with
        errors := loaded.report.errors ++ built.2.1
        notApplicable := loaded.report.notApplicable + built.2.2
        logRules := built.1.rules.length
        correlations := built.1.correlations.length } }, built.1)

/- The documents of the directory that are read. -/
def RuleFile.read (file : RuleFile) : List SigmaDocument :=
  if file.untrusted.isSome ∨ file.tooLarge = true then [] else file.documents.toOption.getD []

def RuleDirectory.read (dir : RuleDirectory) : List SigmaDocument :=
  if dir.present = true ∧ dir.untrusted = none then dir.files.flatMap RuleFile.read else []

theorem addFile_eq (disabled : Finset String) (loaded : LoadedRules) (file : RuleFile) :
    (loaded.addFile coverage product disabled file).processes =
        loaded.processes ++ processRules coverage disabled product file.read ∧
      (loaded.addFile coverage product disabled file).logs =
        loaded.logs ++ logRules coverage disabled product file.read ∧
      (loaded.addFile coverage product disabled file).correlations =
        loaded.correlations ++ correlationRules disabled file.read := by
  unfold LoadedRules.addFile RuleFile.read
  cases file.untrusted with
  | some reason => simp [LoadedRules.failed, processRules, logRules, correlationRules]
  | none =>
    cases file.tooLarge with
    | true => simp [LoadedRules.failed, processRules, logRules, correlationRules]
    | false =>
      cases file.documents with
      | error e =>
        simp [LoadedRules.failed, processRules, logRules, correlationRules, Except.toOption]
      | ok documents =>
        simp only [Bool.false_eq_true, if_false, Option.isSome_none, or_self, Except.toOption,
          Option.getD_some]
        exact ⟨add_processes coverage disabled product loaded documents,
          add_logs coverage disabled product loaded documents,
          add_correlations coverage disabled product loaded documents⟩

/-- What is loaded of the directory. -/
theorem loadRulesFor_eq (dir : RuleDirectory) :
    (loadRulesFor coverage product dir).processes =
        processRules coverage dir.disabled product dir.read ∧
      (loadRulesFor coverage product dir).logs =
        logRules coverage dir.disabled product dir.read ∧
      (loadRulesFor coverage product dir).correlations =
        correlationRules dir.disabled dir.read := by
  have files : ∀ (files : List RuleFile) (loaded : LoadedRules),
      (files.foldl (LoadedRules.addFile coverage product dir.disabled) loaded).processes =
          loaded.processes ++
            processRules coverage dir.disabled product (files.flatMap RuleFile.read) ∧
        (files.foldl (LoadedRules.addFile coverage product dir.disabled) loaded).logs =
          loaded.logs ++ logRules coverage dir.disabled product (files.flatMap RuleFile.read) ∧
        (files.foldl (LoadedRules.addFile coverage product dir.disabled) loaded).correlations =
          loaded.correlations ++
            correlationRules dir.disabled (files.flatMap RuleFile.read) := by
    intro files
    induction files with
    | nil => simp [processRules, logRules, correlationRules]
    | cons file files ih =>
      intro loaded
      obtain ⟨processes, logs, correlations⟩ :=
        addFile_eq coverage product dir.disabled loaded file
      rw [List.foldl_cons]
      rw [(ih _).1, (ih _).2.1, (ih _).2.2, processes, logs, correlations]
      simp [processRules, logRules, correlationRules, List.filterMap_append]
  unfold loadRulesFor RuleDirectory.read
  cases dir.present with
  | false => simp [LoadedRules.empty, processRules, logRules, correlationRules]
  | true =>
    cases dir.untrusted with
    | some reason =>
      simp [LoadedRules.failed, LoadedRules.empty, processRules, logRules, correlationRules]
    | none =>
      simp only [if_true, and_self]
      have all := files dir.files LoadedRules.empty
      simpa [LoadedRules.empty] using all

end Loading

end SentinelAgent.Scanner
