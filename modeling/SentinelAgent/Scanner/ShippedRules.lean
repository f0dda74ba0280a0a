import SentinelAgent.Scanner.LoadedRules

/-!
Which of the shipped rules are active beside those of the operator's directory. The identifiers
that keep a shipped rule out are those of the directory's rules evaluated on logs.
-/
namespace SentinelAgent.Scanner
open Maps

section Shipped

variable (coverage : LogCoverage) (product : String)

def SigmaDocument.on (document : SigmaDocument) : EvaluatedOn :=
  match document with
  | .rule read => targetOf read product coverage
  | .correlation _ => .logs

def SigmaDocument.Applicable (document : SigmaDocument) : Prop :=
  document.on coverage product = .processes ∨ document.on coverage product = .logs

variable {coverage product}

theorem mem_processRules {disabled : Finset String} {documents : List SigmaDocument}
    {read : ReadRule} :
    read ∈ processRules coverage disabled product documents ↔
      .rule read ∈ documents ∧ read.rule.id ∉ disabled ∧
        targetOf read product coverage = .processes := by
  simp only [processRules, List.mem_filterMap]
  constructor
  · rintro ⟨document, listed, taken⟩
    cases document with
    | correlation r => cases taken
    | rule other =>
      obtain ⟨enabled, same⟩ := Option.ite_none_right_eq_some.mp taken
      rw [← Option.some.inj same]
      exact ⟨listed, enabled⟩
  · rintro ⟨listed, enabled⟩
    exact ⟨.rule read, listed, if_pos enabled⟩

theorem mem_logRules {disabled : Finset String} {documents : List SigmaDocument}
    {read : ReadRule} :
    read ∈ logRules coverage disabled product documents ↔
      .rule read ∈ documents ∧ read.rule.id ∉ disabled ∧
        targetOf read product coverage = .logs := by
  simp only [logRules, List.mem_filterMap]
  constructor
  · rintro ⟨document, listed, taken⟩
    cases document with
    | correlation r => cases taken
    | rule other =>
      obtain ⟨enabled, same⟩ := Option.ite_none_right_eq_some.mp taken
      rw [← Option.some.inj same]
      exact ⟨listed, enabled⟩
  · rintro ⟨listed, enabled⟩
    exact ⟨.rule read, listed, if_pos enabled⟩

theorem mem_correlationRules {disabled : Finset String} {documents : List SigmaDocument}
    {r : CorrelationRule} :
    r ∈ correlationRules disabled documents ↔ .correlation r ∈ documents ∧ r.id ∉ disabled := by
  simp only [correlationRules, List.mem_filterMap]
  constructor
  · rintro ⟨document, listed, taken⟩
    cases document with
    | rule read => cases taken
    | correlation other =>
      obtain ⟨enabled, same⟩ := Option.ite_none_right_eq_some.mp taken
      rw [← Option.some.inj same]
      exact ⟨listed, enabled⟩
  · rintro ⟨listed, enabled⟩
    exact ⟨.correlation r, listed, if_pos enabled⟩

/-- The identifiers that keep shipped rules out. -/
theorem mem_replaced {dir : RuleDirectory} {id : String} :
    id ∈ replaced (loadRulesFor coverage product dir) ↔
      id ∉ dir.disabled ∧
        ∃ document ∈ dir.read, document.id = id ∧ document.on coverage product = .logs := by
  obtain ⟨_, logs, correlations⟩ := loadRulesFor_eq coverage product dir
  rw [replaced, logs, correlations, List.mem_append, List.mem_map, List.mem_map]
  constructor
  · rintro (⟨read, listed, rfl⟩ | ⟨r, listed, rfl⟩)
    · obtain ⟨there, enabled, target⟩ := mem_logRules.mp listed
      exact ⟨enabled, .rule read, there, rfl, target⟩
    · obtain ⟨there, enabled⟩ := mem_correlationRules.mp listed
      exact ⟨enabled, .correlation r, there, rfl, rfl⟩
  · rintro ⟨enabled, document, there, rfl, target⟩
    cases document with
    | rule read => exact Or.inl ⟨read, mem_logRules.mpr ⟨there, enabled, target⟩, rfl⟩
    | correlation r => exact Or.inr ⟨r, mem_correlationRules.mpr ⟨there, enabled⟩, rfl⟩

variable (coverage product)
variable (shipped : List (String × Except String (List SigmaDocument))) (dir : RuleDirectory)

/- What is active: the rules of the directory, then these of the shipped ones. -/
structure Activates (processes logs : List ReadRule) (correlations : List CorrelationRule) :
    Prop where
  on_processes : (loadFor coverage product shipped dir).1.processes =
    (loadRulesFor coverage product dir).processes ++ processes
  on_logs : (loadFor coverage product shipped dir).2.rules.map (fun r => r.rule) =
    ((loadRulesFor coverage product dir).logs ++ logs).map (fun read => read.rule)
  engine : ∃ absent, (loadFor coverage product shipped dir).2 =
    (withAbsent (((loadRulesFor coverage product dir).logs ++ logs).map fun read => read.rule)
      ((loadRulesFor coverage product dir).correlations ++ correlations) absent).1
  counting : ((loadFor coverage product shipped dir).2.correlations.map
    (fun c => c.rule)).Sublist ((loadRulesFor coverage product dir).correlations ++ correlations)

/- A rule of the directory replaces the shipped one, and what is disabled is not active. -/
structure Replaces (processes logs : List ReadRule) (correlations : List CorrelationRule) :
    Prop where
  rules_out : ∀ read ∈ processes ++ logs, read.rule.id ∉ dir.disabled ∧
    ∀ document ∈ dir.read, document.id ≠ read.rule.id
  correlations_out : ∀ r ∈ correlations, r.id ∉ dir.disabled ∧
    ∀ document ∈ dir.read, document.id ≠ r.id
  own_enabled : (∀ read ∈ (loadRulesFor coverage product dir).processes ++
      (loadRulesFor coverage product dir).logs, read.rule.id ∉ dir.disabled) ∧
    ∀ r ∈ (loadRulesFor coverage product dir).correlations, r.id ∉ dir.disabled
  others_in : ∀ document ∈ (builtinDocuments shipped).1, document.id ∉ dir.disabled →
    (∀ own ∈ dir.read, own.id ≠ document.id) →
      match document with
      | .rule read =>
        (targetOf read product coverage = .processes → read ∈ processes) ∧
          (targetOf read product coverage = .logs → read ∈ logs)
      | .correlation r => r ∈ correlations

/- Where a shipped rule is not disabled, applies here and has a namesake in the directory, one of
   its namesakes is evaluated on logs. -/
def ReplacedOnLogs : Prop :=
  ∀ document ∈ (builtinDocuments shipped).1, document.Applicable coverage product →
    document.id ∉ dir.disabled → (∃ own ∈ dir.read, own.id = document.id) →
      ∃ own ∈ dir.read, own.id = document.id ∧ own.on coverage product = .logs

def keptShipped : List SigmaDocument :=
  (builtinDocuments shipped).1.filter fun document =>
    decide (document.id ∉ replaced (loadRulesFor coverage product dir))

theorem engine_rules (rules : List SigmaRule) (correlations : List CorrelationRule)
    (absent : Finset String) :
    (withAbsent rules correlations absent).1.rules.map (fun r => r.rule) = rules := by
  obtain ⟨kept, _, _, same⟩ := withAbsent_kept rules correlations absent
  rw [same]
  apply List.ext_getElem?
  intro i
  rw [List.getElem?_map, build_rule, Option.map_map]
  cases rules[i]? <;> rfl

theorem engine_correlations (rules : List SigmaRule) (correlations : List CorrelationRule)
    (absent : Finset String) :
    ((withAbsent rules correlations absent).1.correlations.map (fun c => c.rule)).Sublist
      correlations := by
  obtain ⟨kept, part, _, same⟩ := withAbsent_kept rules correlations absent
  rw [same, build_kept]
  exact part

theorem activates_kept :
    Activates coverage product shipped dir
      (processRules coverage dir.disabled product (keptShipped coverage product shipped dir))
      (logRules coverage dir.disabled product (keptShipped coverage product shipped dir))
      (correlationRules dir.disabled (keptShipped coverage product shipped dir)) := by
  have engine : (loadFor coverage product shipped dir).2 =
      (withAbsent (((loadRulesFor coverage product dir).logs ++
          logRules coverage dir.disabled product
            (keptShipped coverage product shipped dir)).map fun read => read.rule)
        ((loadRulesFor coverage product dir).correlations ++
          correlationRules dir.disabled (keptShipped coverage product shipped dir))
        (((loadRulesFor coverage product dir).failed (builtinDocuments shipped).2).add coverage
          dir.disabled product (keptShipped coverage product shipped dir)).absent).1 := by
    simp only [loadFor, add_logs, add_correlations]
    rfl
  refine ⟨?_, ?_, ⟨_, engine⟩, ?_⟩
  · simp only [loadFor, add_processes]
    rfl
  · rw [engine, engine_rules]
  · rw [engine]
    exact engine_correlations _ _ _

variable {shipped dir}

theorem mem_keptShipped {document : SigmaDocument} :
    document ∈ keptShipped coverage product shipped dir ↔
      document ∈ (builtinDocuments shipped).1 ∧
        document.id ∉ replaced (loadRulesFor coverage product dir) := by
  rw [keptShipped, List.mem_filter, decide_eq_true_iff]

/-- A shipped rule that is kept has no namesake in the directory, when one of its namesakes would
    keep it out. -/
theorem no_namesake (on_logs : ReplacedOnLogs coverage product shipped dir)
    {document : SigmaDocument} (kept : document ∈ keptShipped coverage product shipped dir)
    (enabled : document.id ∉ dir.disabled) (applies : document.Applicable coverage product) :
    ∀ own ∈ dir.read, own.id ≠ document.id := by
  obtain ⟨listed, stays⟩ := (mem_keptShipped coverage product).mp kept
  intro own there same
  obtain ⟨other, read, named, target⟩ :=
    on_logs document listed applies enabled ⟨own, there, same⟩
  exact stays (mem_replaced.mpr ⟨enabled, other, read, named, target⟩)

theorem kept_of_no_namesake {document : SigmaDocument}
    (listed : document ∈ (builtinDocuments shipped).1)
    (alone : ∀ own ∈ dir.read, own.id ≠ document.id) :
    document ∈ keptShipped coverage product shipped dir := by
  refine (mem_keptShipped coverage product).mpr ⟨listed, fun out => ?_⟩
  obtain ⟨_, own, there, same, _⟩ := mem_replaced.mp out
  exact alone own there same

theorem own_enabled :
    (∀ read ∈ (loadRulesFor coverage product dir).processes ++
      (loadRulesFor coverage product dir).logs, read.rule.id ∉ dir.disabled) ∧
    ∀ r ∈ (loadRulesFor coverage product dir).correlations, r.id ∉ dir.disabled := by
  obtain ⟨processes, logs, correlations⟩ := loadRulesFor_eq coverage product dir
  rw [processes, logs, correlations]
  constructor
  · intro read member
    rcases List.mem_append.mp member with among | among
    · exact (mem_processRules.mp among).2.1
    · exact (mem_logRules.mp among).2.1
  · intro r member
    exact (mem_correlationRules.mp member).2

theorem replaces_of_on_logs (on_logs : ReplacedOnLogs coverage product shipped dir) :
    Replaces coverage product shipped dir
      (processRules coverage dir.disabled product (keptShipped coverage product shipped dir))
      (logRules coverage dir.disabled product (keptShipped coverage product shipped dir))
      (correlationRules dir.disabled (keptShipped coverage product shipped dir)) where
  rules_out read member := by
    rcases List.mem_append.mp member with among | among
    · obtain ⟨kept, enabled, target⟩ := mem_processRules.mp among
      exact ⟨enabled, no_namesake coverage product on_logs kept enabled (Or.inl target)⟩
    · obtain ⟨kept, enabled, target⟩ := mem_logRules.mp among
      exact ⟨enabled, no_namesake coverage product on_logs kept enabled (Or.inr target)⟩
  correlations_out r member := by
    obtain ⟨kept, enabled⟩ := mem_correlationRules.mp member
    exact ⟨enabled, no_namesake coverage product on_logs kept enabled (Or.inr rfl)⟩
  own_enabled := own_enabled coverage product
  others_in document listed enabled alone := by
    have kept := kept_of_no_namesake coverage product listed alone
    cases document with
    | rule read =>
      exact ⟨fun target => mem_processRules.mpr ⟨kept, enabled, target⟩,
        fun target => mem_logRules.mpr ⟨kept, enabled, target⟩⟩
    | correlation r => exact mem_correlationRules.mpr ⟨kept, enabled⟩

theorem on_logs_of_replaces
    (replaces : Replaces coverage product shipped dir
      (processRules coverage dir.disabled product (keptShipped coverage product shipped dir))
      (logRules coverage dir.disabled product (keptShipped coverage product shipped dir))
      (correlationRules dir.disabled (keptShipped coverage product shipped dir))) :
    ReplacedOnLogs coverage product shipped dir := by
  intro document listed applies enabled
  rintro ⟨own, there, same⟩
  by_contra none_on_logs
  have kept : document ∈ keptShipped coverage product shipped dir := by
    refine (mem_keptShipped coverage product).mpr ⟨listed, fun out => ?_⟩
    exact none_on_logs (mem_replaced.mp out).2
  cases document with
  | correlation r =>
    exact (replaces.correlations_out r (mem_correlationRules.mpr ⟨kept, enabled⟩)).2 own there same
  | rule read =>
    rcases applies with target | target
    · have active := List.mem_append_left (logRules coverage dir.disabled product
        (keptShipped coverage product shipped dir))
        (mem_processRules.mpr ⟨kept, enabled, target⟩)
      exact (replaces.rules_out read active).2 own there same
    · have active := List.mem_append_right (processRules coverage dir.disabled product
        (keptShipped coverage product shipped dir)) (mem_logRules.mpr ⟨kept, enabled, target⟩)
      exact (replaces.rules_out read active).2 own there same

variable (shipped dir)

/-- A rule of the directory replaces the shipped rule of its identifier exactly where one with
    that identifier is evaluated on logs. -/
theorem directory_replaces_shipped :
    ∃ processes logs correlations,
      Activates coverage product shipped dir processes logs correlations ∧
        (Replaces coverage product shipped dir processes logs correlations ↔
          ReplacedOnLogs coverage product shipped dir) :=
  ⟨_, _, _, activates_kept coverage product shipped dir,
    on_logs_of_replaces coverage product, replaces_of_on_logs coverage product⟩

end Shipped

/- A root login over SSH, as the shipped rule and as the operator's. -/
def rootLogin (product : Option String) : ReadRule where
  rule :=
    { id := "26e9c9f4-e5ff-5130-bfa2-cd40f9ba1e91", title := "root login", description := ""
      level := .low, tags := [], category := none, service := some "sshd", name := none
      matchesEvent := fun fields =>
        fields.lookup "action" == some "login_success" && fields.lookup "user" == some "root" }
  product := product

def rulesOf (read : ReadRule) : RuleDirectory where
  label := "rules"
  present := true
  untrusted := none
  files :=
    [{ label := "own.yml", untrusted := none, tooLarge := false, documents := .ok [.rule read] }]
  disabledRules := none

/-- The operator's rule is for another system, and the shipped one stays active. -/
theorem directory_not_replacing :
    ¬ ∀ coverage product shipped dir processes logs correlations,
      Activates coverage product shipped dir processes logs correlations →
        Replaces coverage product shipped dir processes logs correlations := by
  intro claimed
  have replaces := claimed { services := {"sshd"}, categories := ∅ } "linux"
    [("auth.yml", .ok [.rule (rootLogin none)])] (rulesOf (rootLogin (some "windows"))) _ _ _
    (activates_kept _ _ _ _)
  have on_logs := on_logs_of_replaces _ _ replaces
  obtain ⟨own, there, _, target⟩ := on_logs (.rule (rootLogin none)) List.mem_cons_self
    (Or.inr (by decide)) (by decide) ⟨.rule (rootLogin (some "windows")), List.mem_cons_self, rfl⟩
  have only : own = .rule (rootLogin (some "windows")) := by simpa [rulesOf, RuleDirectory.read,
    RuleFile.read, Except.toOption] using there
  rw [only] at target
  exact absurd target (by decide)

end SentinelAgent.Scanner
