import SentinelAgent.Response.Observations
import SentinelAgent.Response.PlaybookTargets
import SentinelAgent.Response.Triage

/- That an authorization protects what it covers: nothing the rules and the playbooks are given
   is covered, so no response is to it. What the incidents found in the logs name is the exception. -/
namespace SentinelAgent.Response
open Core Text

section Coverage
variable (regex : Regex) (rules : List AllowlistRule)

/- Some authorization of a kind covers a value. -/
def Covered (kind : AllowlistRuleType) (value : String) : Prop :=
  ∃ rule ∈ rules, rule.ruleType = kind ∧ rule.isMatch regex value = true

instance (kind : AllowlistRuleType) (value : String) : Decidable (Covered regex rules kind value) :=
  inferInstanceAs (Decidable (∃ rule ∈ rules, _))

structure ContextClear (context : ThreatContext) : Prop where
  processes : ∀ p ∈ context.suspiciousProcesses, ¬ Covered regex rules .processPattern p.name
  addresses : ∀ alert ∈ context.networkAlerts, ∀ ip, alert.remoteIp = some ip →
    ¬ Covered regex rules .ipAddress ip
  files : ∀ alert ∈ context.fimAlerts, ¬ Covered regex rules .filePath alert.path

structure ObservedClear (observed : ObservedActivity) : Prop where
  processes : ∀ p ∈ observed.processes, ¬ Covered regex rules .processPattern p.name
  connections : ∀ c ∈ observed.connections, ¬ Covered regex rules .ipAddress c.remoteIp

/- The targets a response command is told. -/
structure TargetsSpared (targets : Targets) : Prop where
  processes : ∀ p ∈ targets.processes, ¬ Covered regex rules .processPattern p.1
  files : ∀ path ∈ targets.files, ¬ Covered regex rules .filePath path
  addresses : ∀ ip ∈ targets.addresses, ¬ Covered regex rules .ipAddress ip

/- A response acts on nothing that an authorization covers. -/
def Spares : ResolvedAction → Prop
  | .killProcess name _ => ¬ Covered regex rules .processPattern name
  | .quarantineFile path => ¬ Covered regex rules .filePath path
  | .blockIp ip _ => ¬ Covered regex rules .ipAddress ip
  | .runCommand _ context => TargetsSpared regex rules context.targets
  | _ => True

/- What an authorization covers of the inputs of a pass. -/
def IncidentCovered {N : Type} (incident : SecurityIncident (Json N)) : Prop :=
  Covered regex rules .processPattern (processEvidence incident) ∨
    Covered regex rules .systemIncident incident.incidentType.display ∨
    Covered regex rules .systemIncident incident.title

def AlertCovered (alert : NetworkSecurityAlert) : Prop :=
  ∃ c, alert.connection = some c ∧ ∃ remote, c.remoteAddress = some remote ∧
    Covered regex rules .ipAddress remote

end Coverage

section Stage
variable {N : Type} (asU64 : N → Option Nat) (regex : Regex) (rules : List AllowlistRule)
  (toLowercase : String → String) (inputs : PipelineInputs N)

/- Whatever the playbooks and the rules are, and whatever the rules have reported. -/
def ResponsesSpare (context : ThreatContext) (observed : ObservedActivity) : Prop :=
  (∀ playbook, ∀ action ∈ (evaluatePlaybook toLowercase playbook context).actions,
    Spares regex rules action) ∧
  ∀ detectionRules memory now,
    ∀ found ∈ (evaluateDetectionRules toLowercase detectionRules context observed memory now).1,
      ∀ rule, ∀ action ∈ resolveRuleActions rule found, Spares regex rules action

/- What no authorization covers is still among the inputs, in its order. -/
structure NothingLost (kept : PipelineInputs N) : Prop where
  incidents : ∀ some_of : SecurityIncident (Json N) → Bool,
    (∀ i ∈ inputs.incidents, some_of i = true → ¬ IncidentCovered regex rules i) →
      (inputs.incidents.filter some_of).Sublist kept.incidents
  networkAlerts : ∀ some_of : NetworkSecurityAlert → Bool,
    (∀ a ∈ inputs.networkAlerts, some_of a = true → ¬ AlertCovered regex rules a) →
      (inputs.networkAlerts.filter some_of).Sublist kept.networkAlerts
  fimAlerts : ∀ some_of : FimChange → Bool,
    (∀ f ∈ inputs.fimAlerts, some_of f = true → ¬ Covered regex rules .filePath f.1) →
      (inputs.fimAlerts.filter some_of).Sublist kept.fimAlerts
  processes : ∀ some_of : ProcessInfo → Bool,
    (∀ p ∈ inputs.observed.processes, some_of p = true →
      ¬ Covered regex rules .processPattern p.name) →
      (inputs.observed.processes.filter some_of).Sublist kept.observed.processes
  connections : ∀ some_of : ObservedConnection → Bool,
    (∀ c ∈ inputs.observed.connections, some_of c = true →
      ¬ Covered regex rules .ipAddress c.remoteIp) →
      (inputs.observed.connections.filter some_of).Sublist kept.observed.connections

/- An authorization protects its subject, and nothing else is taken out. -/
def Protected : Prop :=
  let stage := threatPipelineStage asU64 regex rules inputs
  ContextClear regex rules stage.1 ∧ ObservedClear regex rules stage.2 ∧
    ResponsesSpare regex rules toLowercase stage.1 stage.2 ∧
    NothingLost regex rules inputs (unauthorizedPipelineInputs regex rules inputs)

end Stage

section Filters
variable {N : Type} {regex : Regex} {rules : List AllowlistRule}

theorem covers_iff {kind : AllowlistRuleType} {value : String} :
    allowlistCovers regex rules kind value = true ↔ Covered regex rules kind value := by
  rw [allowlistCovers, List.any_eq_true]
  simp only [Bool.and_eq_true, beq_iff_eq]
  rfl

theorem not_covers_iff {kind : AllowlistRuleType} {value : String} :
    allowlistCovers regex rules kind value = false ↔ ¬ Covered regex rules kind value := by
  rw [← covers_iff, Bool.not_eq_true]

theorem not_covered_nil {kind : AllowlistRuleType} {value : String} :
    ¬ Covered regex [] kind value := by
  rintro ⟨rule, member, _⟩
  cases member

theorem incident_iff {incident : SecurityIncident (Json N)} :
    incidentIsAuthorized regex rules incident = true ↔ IncidentCovered regex rules incident := by
  by_cases empty : rules = []
  · subst empty
    simp [incidentIsAuthorized, IncidentCovered, not_covered_nil]
  · rw [incidentIsAuthorized, if_neg empty, Bool.or_eq_true, Bool.or_eq_true, covers_iff, covers_iff,
      covers_iff, or_assoc]
    rfl

theorem alert_iff {alert : NetworkSecurityAlert} :
    networkAlertIsAuthorized regex rules alert = true ↔ AlertCovered regex rules alert := by
  rw [networkAlertIsAuthorized, AlertCovered]
  cases alert.connection with
  | none => simp
  | some c =>
    cases address : c.remoteAddress with
    | none => simp [address]
    | some remote => simp [address, covers_iff]

theorem not_incident_iff {incident : SecurityIncident (Json N)} :
    (!incidentIsAuthorized regex rules incident) = true ↔ ¬ IncidentCovered regex rules incident := by
  rw [← incident_iff, Bool.not_eq_true, Bool.not_eq_true']

theorem not_alert_iff {alert : NetworkSecurityAlert} :
    (!networkAlertIsAuthorized regex rules alert) = true ↔ ¬ AlertCovered regex rules alert := by
  rw [← alert_iff, Bool.not_eq_true, Bool.not_eq_true']

theorem not_covers {kind : AllowlistRuleType} {value : String} :
    (!allowlistCovers regex rules kind value) = true ↔ ¬ Covered regex rules kind value := by
  rw [Bool.not_eq_true', not_covers_iff]

theorem filter_keeps {A : Type} {l : List A} {some_of kept : A → Bool}
    (among : ∀ a ∈ l, some_of a = true → kept a = true) :
    (l.filter some_of).Sublist (l.filter kept) := by
  have twice : l.filter some_of = (l.filter kept).filter some_of := by
    rw [List.filter_filter]
    apply List.filter_congr
    intro a member
    by_cases taken : some_of a = true
    · simp [taken, among a member taken]
    · simp [taken]
  rw [twice]
  exact List.filter_sublist

theorem nothing_lost (inputs : PipelineInputs N) :
    NothingLost regex rules inputs (unauthorizedPipelineInputs regex rules inputs) := by
  refine ⟨?_, ?_, ?_, ?_, ?_⟩
  · intro some_of uncovered
    apply filter_keeps
    intro i member taken
    exact not_incident_iff.mpr (uncovered i member taken)
  · intro some_of uncovered
    apply filter_keeps
    intro a member taken
    exact not_alert_iff.mpr (uncovered a member taken)
  · intro some_of uncovered
    apply filter_keeps
    intro f member taken
    exact not_covers.mpr (uncovered f member taken)
  · intro some_of uncovered
    simp only [unauthorizedPipelineInputs, unauthorizedObserved]
    split
    · exact List.filter_sublist
    · apply filter_keeps
      intro p member taken
      exact not_covers.mpr (uncovered p member taken)
  · intro some_of uncovered
    simp only [unauthorizedPipelineInputs, unauthorizedObserved]
    split
    · exact List.filter_sublist
    · apply filter_keeps
      intro c member taken
      exact not_covers.mpr (uncovered c member taken)

theorem observed_clear (observed : ObservedActivity) :
    ObservedClear regex rules (unauthorizedObserved regex rules observed) := by
  by_cases empty : rules = []
  · subst empty
    exact ⟨fun _ _ => not_covered_nil, fun _ _ => not_covered_nil⟩
  · rw [unauthorizedObserved, if_neg empty]
    refine ⟨?_, ?_⟩
    · intro p member
      exact not_covers.mp (List.mem_filter.mp member).2
    · intro c member
      exact not_covers.mp (List.mem_filter.mp member).2

end Filters

section Context
variable {N : Type} {asU64 : N → Option Nat} {regex : Regex} {rules : List AllowlistRule}

/-- The process of an incident is the one its evidence names. -/
theorem suspiciousProcess_name {incident : SecurityIncident (Json N)} {p : ProcessInfo}
    (found : suspiciousProcess asU64 incident = some p) : p.name = processEvidence incident := by
  simp only [suspiciousProcess, Option.bind_eq_bind, Option.bind_eq_some_iff] at found
  obtain ⟨name, named, number, _, pid, _, made⟩ := found
  split at made
  · rw [← Option.some.inj made, processEvidence, Option.bind_eq_some_iff.mpr named]
    rfl
  · cases made

theorem logAlert_remoteIp {incident : SecurityIncident (Json N)} {alert : NetworkAlertInfo}
    (found : logAlert incident = some alert) : alert.remoteIp = logSource incident := by
  obtain ⟨address, named, made⟩ := Option.map_eq_some_iff.mp found
  rw [← made, named]

/-- The threat context is clear but for the addresses that the logs name. -/
theorem context_clear_iff (inputs : PipelineInputs N) :
    ContextClear regex rules (threatPipelineStage asU64 regex rules inputs).1 ↔
      ∀ i ∈ inputs.incidents, incidentIsAuthorized regex rules i = false →
        ∀ address, logSource i = some address →
          allowlistCovers regex rules .ipAddress address = false := by
  constructor
  · intro clear i member unauthorized address named
    have made : ∃ alert, logAlert i = some alert ∧ alert.remoteIp = some address := by
      rw [logAlert, named]
      exact ⟨_, rfl, rfl⟩
    obtain ⟨alert, made, its⟩ := made
    refine not_covers_iff.mpr (clear.addresses alert ?_ address its)
    refine List.mem_append_right _ (List.mem_filterMap.mpr ⟨i, ?_, made⟩)
    exact List.mem_filter.mpr ⟨member, by rw [unauthorized]; rfl⟩
  · intro uncovered
    refine ⟨?_, ?_, ?_⟩
    · intro p member
      obtain ⟨i, kept, found⟩ := List.mem_filterMap.mp member
      rw [suspiciousProcess_name found]
      exact fun covered => not_incident_iff.mp (List.mem_filter.mp kept).2 (Or.inl covered)
    · intro alert member ip its
      rcases List.mem_append.mp member with engine | log
      · obtain ⟨a, kept, rfl⟩ := List.mem_map.mp engine
        obtain ⟨c, connected, remote⟩ := Option.bind_eq_some_iff.mp its
        exact fun covered =>
          not_alert_iff.mp (List.mem_filter.mp kept).2 ⟨c, connected, ip, remote, covered⟩
      · obtain ⟨i, kept, made⟩ := List.mem_filterMap.mp log
        obtain ⟨among, unauthorized⟩ := List.mem_filter.mp kept
        rw [logAlert_remoteIp made] at its
        exact not_covers_iff.mp (uncovered i among (by simpa using unauthorized) ip its)
    · intro alert member
      obtain ⟨change, kept, rfl⟩ := List.mem_map.mp member
      exact not_covers.mp (List.mem_filter.mp kept).2

end Context

section Responses
variable {regex : Regex} {rules : List AllowlistRule} {toLowercase : String → String}
  {context : ThreatContext} {observed : ObservedActivity}

/-- The candidates of a playbook name what the threat context names. -/
theorem names_spares (clear : ContextClear regex rules context) {condition : PlaybookCondition}
    {action : ResolvedAction} (named : Names toLowercase context condition action) :
    Spares regex rules action := by
  cases action with
  | killProcess name pid =>
    obtain ⟨_, _, process, member, _, same, _⟩ := named
    rw [← same]
    exact clear.processes process member
  | quarantineFile path =>
    obtain ⟨_, _, alert, member, _, same⟩ := named
    rw [← same]
    exact clear.files alert member
  | blockIp ip secs =>
    obtain ⟨_, _, alert, member, _, same⟩ := named
    exact clear.addresses alert member ip same
  | runCommand name told => cases named
  | alert title severity description => trivial
  | notify message => trivial
  | isolateHost secs => trivial
  | disableAccount user secs => trivial

theorem retimed_spares {lockSecs blockSecs : Option Nat} {action : ResolvedAction}
    (spares : Spares regex rules action) : Spares regex rules (retimed lockSecs blockSecs action) := by
  cases action with
  | _ => exact spares

theorem addTarget_spared {targets : Targets} {action : ResolvedAction}
    (spared : TargetsSpared regex rules targets) (spares : Spares regex rules action) :
    TargetsSpared regex rules (addTarget targets action) := by
  cases action with
  | killProcess name pid =>
    refine ⟨?_, spared.files, spared.addresses⟩
    intro p member
    rcases List.mem_append.mp member with before | here
    · exact spared.processes p before
    · rw [List.mem_singleton.mp here]
      exact spares
  | quarantineFile path =>
    refine ⟨spared.processes, ?_, spared.addresses⟩
    intro other member
    rcases List.mem_append.mp member with before | here
    · exact spared.files other before
    · rw [List.mem_singleton.mp here]
      exact spares
  | blockIp ip secs =>
    refine ⟨spared.processes, spared.files, ?_⟩
    intro other member
    rcases List.mem_append.mp member with before | here
    · exact spared.addresses other before
    · rw [List.mem_singleton.mp here]
      exact spares
  | disableAccount user secs => exact ⟨spared.processes, spared.files, spared.addresses⟩
  | alert title severity description => exact spared
  | notify message => exact spared
  | isolateHost secs => exact spared
  | runCommand name told => exact spared

theorem told_spared {actions : List ResolvedAction}
    (spares : ∀ action ∈ actions, Spares regex rules action) {targets : Targets}
    (spared : TargetsSpared regex rules targets) :
    TargetsSpared regex rules (actions.foldl addTarget targets) := by
  induction actions generalizing targets with
  | nil => exact spared
  | cons action actions ih =>
    exact ih (fun other member => spares other (List.mem_cons_of_mem action member))
      (addTarget_spared spared (spares action List.mem_cons_self))

theorem addConfigured_spares {playbook : Playbook} {texts : List String}
    {actions : List ResolvedAction} (spares : ∀ action ∈ actions, Spares regex rules action)
    (configured : PlaybookAction) :
    ∀ action ∈ addConfigured playbook texts actions configured, Spares regex rules action := by
  have nothing : TargetsSpared regex rules ⟨[], [], [], []⟩ := by
    refine ⟨?_, ?_, ?_⟩ <;> intro _ member <;> cases member
  have one_more : ∀ {last : ResolvedAction}, Spares regex rules last →
      ∀ action ∈ actions ++ [last], Spares regex rules action := by
    intro last its action member
    rcases List.mem_append.mp member with before | here
    · exact spares action before
    · rw [List.mem_singleton.mp here]
      exact its
  unfold addConfigured
  cases configured.actionType with
  | createNotification => exact one_more trivial
  | isolateHost => exact one_more trivial
  | runCommand => exact one_more (told_spared spares nothing)
  | sendSiemAlert => exact one_more trivial
  | killProcess => exact spares
  | quarantineFile => exact spares
  | blockIp => exact spares
  | disableAccount => exact spares

theorem configured_spares {playbook : Playbook} {texts : List String}
    (configs : List PlaybookAction) {actions : List ResolvedAction}
    (spares : ∀ action ∈ actions, Spares regex rules action) :
    ∀ action ∈ configs.foldl (addConfigured playbook texts) actions, Spares regex rules action := by
  induction configs generalizing actions with
  | nil => exact spares
  | cons configured configs ih => exact ih (addConfigured_spares spares configured)

/-- A playbook acts on what the threat context names. -/
theorem playbook_spares (clear : ContextClear regex rules context) (playbook : Playbook) :
    ∀ action ∈ (evaluatePlaybook toLowercase playbook context).actions,
      Spares regex rules action := by
  by_cases fires : playbook.enabled = true ∧ Triggers toLowercase context playbook
  · have triggered := (triggers_iff playbook).mpr fires.2
    simp only [evaluatePlaybook, fires.1, triggered, if_true, Bool.true_and, tally_actions]
    apply configured_spares
    intro action kept
    obtain ⟨candidate, listed, rfl⟩ := List.mem_map.mp ((once_sublist _ _ _ _ _).subset kept)
    obtain ⟨⟨condition, _, named⟩, _⟩ := mem_allowed listed
    exact retimed_spares (names_spares clear named)
  · rw [evaluate_quiet fires]
    intro action member
    cases member

/- A rule's match is about nothing that an authorization covers. -/
def TargetSpared (regex : Regex) (rules : List AllowlistRule) : RuleTarget → Prop
  | .process name _ => ¬ Covered regex rules .processPattern name
  | .connection remoteIp _ => ¬ Covered regex rules .ipAddress remoteIp
  | .file path _ => ¬ Covered regex rules .filePath path

theorem networkAlertTarget_spared (clear : ContextClear regex rules context)
    {alert : NetworkAlertInfo} (member : alert ∈ context.networkAlerts) {t : RuleTarget}
    (target : t ∈ networkAlertTarget alert) : TargetSpared regex rules t := by
  rw [networkAlertTarget, Option.mem_toList, Option.map_eq_some_iff] at target
  obtain ⟨ip, named, rfl⟩ := target
  exact clear.addresses alert member ip (Option.filter_eq_some_iff.mp named).1

theorem flagged_spared (clear : ContextClear regex rules context)
    {condition : DetectionCondition} {said : String × List RuleTarget}
    (flagged : flaggedMatch toLowercase condition context = some said) :
    ∀ t ∈ said.2, TargetSpared regex rules t := by
  intro t target
  unfold flaggedMatch at flagged
  cases kind : condition.conditionType with
  | processNameContains =>
    rw [kind] at flagged
    obtain ⟨p, found, rfl⟩ := Option.map_eq_some_iff.mp flagged
    rw [List.mem_singleton.mp target]
    exact clear.processes p (List.mem_of_find?_eq_some found)
  | commandLineContains =>
    rw [kind] at flagged
    obtain ⟨p, found, rfl⟩ := Option.map_eq_some_iff.mp flagged
    rw [List.mem_singleton.mp target]
    exact clear.processes p (List.mem_of_find?_eq_some found)
  | networkPort =>
    rw [kind] at flagged
    cases wanted : portOf condition with
    | none =>
      rw [wanted] at flagged
      cases flagged
    | some port =>
      rw [wanted] at flagged
      obtain ⟨alert, found, rfl⟩ := Option.map_eq_some_iff.mp flagged
      exact networkAlertTarget_spared clear (List.mem_of_find?_eq_some found) target
  | fimPathMatch =>
    rw [kind] at flagged
    obtain ⟨alert, found, rfl⟩ := Option.map_eq_some_iff.mp flagged
    rw [List.mem_singleton.mp target]
    exact clear.files alert (List.mem_of_find?_eq_some found)
  | severityLevel =>
    rw [kind] at flagged
    cases wanted : severityToLevel toLowercase condition.value with
    | none =>
      rw [wanted] at flagged
      cases flagged
    | some threshold =>
      rw [wanted] at flagged
      obtain ⟨alert, found, rfl⟩ := Option.map_eq_some_iff.mp flagged
      exact networkAlertTarget_spared clear (List.mem_of_find?_eq_some found) target

theorem hit_spared (clear : ObservedClear regex rules observed) {ruleId : String}
    {condition : DetectionCondition} {hit : Hit}
    (member : hit ∈ observedHits toLowercase ruleId condition observed) :
    TargetSpared regex rules hit.target := by
  rcases hit_origin member with ⟨p, among, its⟩ | ⟨c, among, port, its⟩
  · rw [its]
    exact clear.processes p among
  · rw [its]
    exact clear.connections c among

theorem ruleActions_spare {rule : DetectionRule} {found : RuleMatch}
    (spared : ∀ t ∈ found.targets, TargetSpared regex rules t) {wanted : PlaybookActionType}
    {action : ResolvedAction} (member : action ∈ ruleActions rule found wanted) :
    Spares regex rules action := by
  have of_target : ∀ {respond : RuleTarget → Option ResolvedAction},
      (∀ t, TargetSpared regex rules t → ∀ a, respond t = some a → Spares regex rules a) →
        action ∈ found.targets.filterMap respond → Spares regex rules action := by
    intro respond each among
    obtain ⟨t, target, made⟩ := List.mem_filterMap.mp among
    exact each t (spared t target) action made
  cases wanted with
  | killProcess =>
    apply of_target _ member
    intro t its a made
    cases t <;> cases made
    exact its
  | quarantineFile =>
    apply of_target _ member
    intro t its a made
    cases t with
    | file path removed =>
      cases removed <;> cases made
      exact its
    | process name pid => cases made
    | connection remoteIp port => cases made
  | blockIp =>
    apply of_target _ member
    intro t its a made
    cases t <;> cases made
    exact its
  | isolateHost =>
    rw [List.mem_singleton.mp member]
    trivial
  | sendSiemAlert =>
    rw [List.mem_singleton.mp member]
    trivial
  | createNotification => cases member
  | disableAccount => cases member
  | runCommand => cases member

theorem mem_pushed {actions resolved : List ResolvedAction} {action : ResolvedAction}
    (member : action ∈ actions.foldl pushAction resolved) : action ∈ resolved ∨ action ∈ actions := by
  induction actions generalizing resolved with
  | nil => exact Or.inl member
  | cons first actions ih =>
    rcases ih member with before | later
    · rw [pushAction] at before
      split at before
      · exact Or.inl before
      · rcases List.mem_append.mp before with earlier | here
        · exact Or.inl earlier
        · exact Or.inr (List.mem_cons.mpr (Or.inl (List.mem_singleton.mp here)))
    · exact Or.inr (List.mem_cons_of_mem first later)

/-- A rule's responses act on what the threat context or the observed activity names. -/
theorem rule_spares (clear : ContextClear regex rules context)
    (seen : ObservedClear regex rules observed) (detectionRules : List DetectionRule)
    (memory : RuleHitMemory) (now : Nat) {found : RuleMatch}
    (reported : found ∈
      (evaluateDetectionRules toLowercase detectionRules context observed memory now).1)
    (rule : DetectionRule) :
    ∀ action ∈ resolveRuleActions rule found, Spares regex rules action := by
  intro action member
  rw [evaluateDetectionRules_eq] at reported
  have spared : ∀ t ∈ found.targets, TargetSpared regex rules t := by
    intro t target
    rcases match_origin reported target with
      ⟨condition, said, flagged, among⟩ | ⟨ruleId, condition, hit, among, rfl⟩
    · exact flagged_spared clear flagged t among
    · exact hit_spared seen among
  rcases mem_pushed member with none | listed
  · cases none
  · obtain ⟨wanted, _, made⟩ := List.mem_flatMap.mp listed
    exact ruleActions_spare spared made

end Responses

/-- What an authorization covers is protected, and nothing else is taken out, just when no
    authorization covers an address that an incident found in the logs names; such an incident
    may be authorized itself, by its process, its type or its title. -/
theorem authorized_protected {N : Type} (asU64 : N → Option Nat) (regex : Regex)
    (rules : List AllowlistRule) (toLowercase : String → String) (inputs : PipelineInputs N) :
    Protected asU64 regex rules toLowercase inputs ↔
      ∀ i ∈ inputs.incidents, incidentIsAuthorized regex rules i = false →
        ∀ address, logSource i = some address →
          allowlistCovers regex rules .ipAddress address = false := by
  rw [← @context_clear_iff N asU64 regex rules inputs]
  constructor
  · exact fun held => held.1
  · intro clear
    have seen : ObservedClear regex rules _ := observed_clear inputs.observed
    exact ⟨clear, seen, ⟨playbook_spares clear, fun detectionRules memory now found reported rule =>
      rule_spares clear seen detectionRules memory now reported rule⟩, nothing_lost inputs⟩

section BruteForce

/- A brute force found in the logs, from an address of a network that is authorized. -/
def bruteForce : SecurityIncident (Json Nat) where
  incidentType := .credentialTheft
  severity := .high
  title := "Sigma: SSH brute force"
  description := ""
  evidence := .object [("detection".toList, .string "sigma_log".toList),
    ("attack_techniques".toList, .array [.string "T1110".toList]),
    ("event".toList, .object [("src_ip".toList, .string "10.0.0.5".toList)])]
  confidence := 90
  detectedAt := 0

def ownNetwork : AllowlistRule := ⟨.ipAddress, "10.0.0.0/8"⟩

def plainText : Regex := ⟨id, fun _ expression value => expression == "^" ++ value ++ "$"⟩

def blockPlaybook : Playbook :=
  ⟨"p", "block", true, [⟨.networkAlertType, "any", "brute_force"⟩], [⟨.blockIp, "3600"⟩]⟩

/-- An authorized address that the logs name is given to the playbooks, and blocked. -/
theorem authorized_source_blocked :
    let inputs : PipelineInputs Nat := ⟨[bruteForce], [], [], ⟨[], []⟩⟩
    ¬ Protected some plainText [ownNetwork] toAsciiLowercase inputs ∧
      ResolvedAction.blockIp "10.0.0.5" 3600 ∈ (evaluatePlaybook toAsciiLowercase blockPlaybook
        (threatPipelineStage some plainText [ownNetwork] inputs).1).actions := by
  refine ⟨?_, by decide⟩
  intro held
  have uncovered := (context_clear_iff _).mp held.1 bruteForce List.mem_cons_self
    (by decide) "10.0.0.5" (by decide)
  have covered : allowlistCovers plainText [ownNetwork] .ipAddress "10.0.0.5" = true := by
    decide
  rw [uncovered] at covered
  cases covered

end BruteForce

end SentinelAgent.Response
