import Mathlib.Data.List.Nodup
import SentinelAgent.Response.Playbook

/- What a playbook acts on: only what it configured, only on what its conditions
   matched. -/
namespace SentinelAgent.Response
open Text

namespace ResolvedAction

/- The configured action a resolved one carries out. -/
def kind : ResolvedAction → PlaybookActionType
  | killProcess .. => .killProcess
  | quarantineFile .. => .quarantineFile
  | blockIp .. => .blockIp
  | alert .. => .sendSiemAlert
  | notify .. => .createNotification
  | isolateHost .. => .isolateHost
  | disableAccount .. => .disableAccount
  | runCommand .. => .runCommand

def address? : ResolvedAction → Option String
  | blockIp ip _ => some ip
  | _ => none

def account? : ResolvedAction → Option String
  | disableAccount user _ => some user
  | _ => none

end ResolvedAction

/- The configured actions that act on a target of their own. -/
def PlaybookActionType.targeted : PlaybookActionType → Bool
  | .killProcess | .quarantineFile | .blockIp | .disableAccount => true
  | _ => false

section Meaning
variable (toLowercase : String → String) (context : ThreatContext)

/- A condition matches some entity of its kind. -/
def Matched (condition : PlaybookCondition) : Prop :=
  skipped toLowercase condition = false ∧
  match condition.conditionType with
  | .processNameMatch =>
    ∃ process ∈ context.suspiciousProcesses, processMatches toLowercase condition process = true
  | .networkAlertType =>
    ∃ alert ∈ context.networkAlerts, alertMatches toLowercase condition alert = true
  | .fimChange => ∃ alert ∈ context.fimAlerts, fileMatches toLowercase condition alert = true
  | .severityThreshold =>
    ∃ alert ∈ context.networkAlerts, severityReached toLowercase condition alert = true
  | .cvssScore => False

/- The target of an action is an entity the condition matches. -/
def Names (condition : PlaybookCondition) : ResolvedAction → Prop
  | .killProcess name pid => skipped toLowercase condition = false ∧
      condition.conditionType = .processNameMatch ∧ ∃ process ∈ context.suspiciousProcesses,
        processMatches toLowercase condition process = true ∧ process.name = name ∧
        process.pid = pid
  | .quarantineFile path => skipped toLowercase condition = false ∧
      condition.conditionType = .fimChange ∧ ∃ alert ∈ context.fimAlerts,
        fileMatches toLowercase condition alert = true ∧ alert.path = path
  | .blockIp ip _ => skipped toLowercase condition = false ∧
      condition.conditionType = .networkAlertType ∧ ∃ alert ∈ context.networkAlerts,
        alertMatches toLowercase condition alert = true ∧ alert.remoteIp = some ip
  | .disableAccount user _ => skipped toLowercase condition = false ∧
      condition.conditionType = .networkAlertType ∧ ∃ alert ∈ context.networkAlerts,
        alertMatches toLowercase condition alert = true ∧ alert.user = some user
  | _ => False

/- The playbook's trigger: all of its conditions, or one of them. -/
def Triggers (playbook : Playbook) : Prop :=
  if isAll playbook.operator = true then
    playbook.conditions ≠ [] ∧ ∀ condition ∈ playbook.conditions,
      Matched toLowercase context condition
  else ∃ condition ∈ playbook.conditions, Matched toLowercase context condition

/- A configured action has something to act on: it asks for no target, or some
   condition matches one of its kind. -/
def Applies (playbook : Playbook) (configured : PlaybookAction) : Prop :=
  configured.actionType.targeted = true → ∃ condition ∈ playbook.conditions,
    ∃ action, action.kind = configured.actionType ∧ Names toLowercase context condition action

end Meaning

section Evaluation
variable {toLowercase : String → String} {context : ThreatContext}

theorem mem_alertTargets {alert : NetworkAlertInfo} {action : ResolvedAction} :
    action ∈ alertTargets alert ↔ (∃ ip, alert.remoteIp = some ip ∧
        action = .blockIp ip defaultBlockSecs) ∨
      ∃ user, alert.user = some user ∧ action = .disableAccount user defaultAccountLockSecs := by
  simp only [alertTargets, List.mem_append, Option.mem_toList, Option.map_eq_some_iff,
    eq_comm (b := action)]

theorem hits_nonempty (condition : PlaybookCondition) :
    hits toLowercase context condition ≠ [] ↔ Matched toLowercase context condition := by
  rw [hits, Matched]
  by_cases blank : skipped toLowercase condition = true
  · simp [blank]
  · have kept : skipped toLowercase condition = false := by simpa using blank
    simp only [kept, Bool.false_eq_true, if_false, true_and]
    cases condition.conditionType <;> simp

/- Whatever a condition proposes has a target it matched, and the other way
   round whatever it names is proposed, with the default durations. -/
theorem hit_names {condition : PlaybookCondition} {action : ResolvedAction}
    (found : action ∈ (hits toLowercase context condition).flatMap Prod.snd) :
    Names toLowercase context condition action := by
  rw [hits] at found
  by_cases blank : skipped toLowercase condition = true
  · simp [blank] at found
  have kept : skipped toLowercase condition = false := by simpa using blank
  rw [if_neg blank] at found
  cases type : condition.conditionType with
  | processNameMatch =>
    simp only [type, List.mem_flatMap, List.mem_map, List.mem_filter] at found
    obtain ⟨_, ⟨process, ⟨member, fits⟩, rfl⟩, is_kill⟩ := found
    simp only [List.mem_singleton] at is_kill
    subst is_kill
    exact ⟨kept, type, process, member, fits, rfl, rfl⟩
  | networkAlertType =>
    simp only [type, List.mem_flatMap, List.mem_map, List.mem_filter] at found
    obtain ⟨_, ⟨alert, ⟨member, fits⟩, rfl⟩, about⟩ := found
    rcases mem_alertTargets.mp about with ⟨ip, names, rfl⟩ | ⟨user, names, rfl⟩
    · exact ⟨kept, type, alert, member, fits, names⟩
    · exact ⟨kept, type, alert, member, fits, names⟩
  | fimChange =>
    simp only [type, List.mem_flatMap, List.mem_map, List.mem_filter] at found
    obtain ⟨_, ⟨alert, ⟨member, fits⟩, rfl⟩, is_file⟩ := found
    simp only [List.mem_singleton] at is_file
    subst is_file
    exact ⟨kept, type, alert, member, fits, rfl⟩
  | severityThreshold => simp [type] at found
  | cvssScore => simp [type] at found

theorem named_hit {condition : PlaybookCondition} {action : ResolvedAction}
    (named : Names toLowercase context condition action) :
    ∃ candidate ∈ (hits toLowercase context condition).flatMap Prod.snd,
      candidate.kind = action.kind := by
  cases action with
  | killProcess name pid =>
    obtain ⟨kept, type, process, member, fits, rfl, rfl⟩ := named
    refine ⟨.killProcess process.name process.pid, ?_, rfl⟩
    simp only [hits, kept, type, Bool.false_eq_true, if_false, List.mem_flatMap, List.mem_map,
      List.mem_filter]
    exact ⟨_, ⟨process, ⟨member, fits⟩, rfl⟩, by simp⟩
  | quarantineFile path =>
    obtain ⟨kept, type, alert, member, fits, rfl⟩ := named
    refine ⟨.quarantineFile alert.path, ?_, rfl⟩
    simp only [hits, kept, type, Bool.false_eq_true, if_false, List.mem_flatMap, List.mem_map,
      List.mem_filter]
    exact ⟨_, ⟨alert, ⟨member, fits⟩, rfl⟩, by simp⟩
  | blockIp ip secs =>
    obtain ⟨kept, type, alert, member, fits, names⟩ := named
    refine ⟨.blockIp ip defaultBlockSecs, ?_, rfl⟩
    simp only [hits, kept, type, Bool.false_eq_true, if_false, List.mem_flatMap, List.mem_map,
      List.mem_filter]
    exact ⟨_, ⟨alert, ⟨member, fits⟩, rfl⟩, mem_alertTargets.mpr (Or.inl ⟨ip, names, rfl⟩)⟩
  | disableAccount user secs =>
    obtain ⟨kept, type, alert, member, fits, names⟩ := named
    refine ⟨.disableAccount user defaultAccountLockSecs, ?_, rfl⟩
    simp only [hits, kept, type, Bool.false_eq_true, if_false, List.mem_flatMap, List.mem_map,
      List.mem_filter]
    exact ⟨_, ⟨alert, ⟨member, fits⟩, rfl⟩, mem_alertTargets.mpr (Or.inr ⟨user, names, rfl⟩)⟩
  | _ => exact absurd named id

/- The accumulators of the loop, read at its end. -/
theorem tally_from (conditions : List PlaybookCondition) (start : Tally) :
    conditions.foldl (tallyOne toLowercase context) start =
      { matchedConditions := start.matchedConditions ++
          conditions.flatMap fun c => (hits toLowercase context c).map Prod.fst
        actions := start.actions ++
          conditions.flatMap fun c => (hits toLowercase context c).flatMap Prod.snd
        conditionsMatched := start.conditionsMatched +
          conditions.countP fun c => decide (hits toLowercase context c ≠ []) } := by
  induction conditions generalizing start with
  | nil => simp
  | cons condition rest ih =>
    rw [List.foldl_cons, ih]
    simp only [tallyOne, List.flatMap_cons, List.append_assoc, List.countP_cons, Tally.mk.injEq,
      true_and]
    by_cases none : hits toLowercase context condition = []
    · simp [none]
    · simp only [none, if_false, ne_eq, not_false_eq_true, decide_true, if_true]
      omega

theorem tally_actions (conditions : List PlaybookCondition) :
    (tally toLowercase context conditions).actions =
      conditions.flatMap fun c => (hits toLowercase context c).flatMap Prod.snd := by
  simp [tally, tally_from]

theorem tally_count (conditions : List PlaybookCondition) :
    (tally toLowercase context conditions).conditionsMatched =
      conditions.countP fun c => decide (hits toLowercase context c ≠ []) := by
  simp [tally, tally_from]

theorem triggers_iff (playbook : Playbook) :
    playbookTriggers playbook.operator
        (tally toLowercase context playbook.conditions).conditionsMatched
        playbook.conditions.length = true ↔ Triggers toLowercase context playbook := by
  rw [tally_count, playbookTriggers, Triggers]
  have most := List.countP_le_length (l := playbook.conditions)
    (p := fun c => decide (hits toLowercase context c ≠ []))
  have all : playbook.conditions.length ≤ playbook.conditions.countP
      (fun c => decide (hits toLowercase context c ≠ [])) ↔
      ∀ condition ∈ playbook.conditions, Matched toLowercase context condition := by
    constructor
    · intro enough condition member
      have equal := List.countP_eq_length.mp (le_antisymm most enough) condition member
      exact (hits_nonempty condition).mp (of_decide_eq_true equal)
    · intro matched
      apply le_of_eq
      exact (List.countP_eq_length.mpr fun condition member =>
        decide_eq_true ((hits_nonempty condition).mpr (matched condition member))).symm
  by_cases is_all : isAll playbook.operator = true
  · simp only [is_all, if_true, decide_eq_true_eq, all, List.length_pos_iff]
  · simp only [is_all, Bool.false_eq_true, if_false, decide_eq_true_eq, List.countP_pos_iff,
      hits_nonempty]

/- A candidate is let through by a configured action of its own kind. -/
theorem authorizes_iff {configured : PlaybookActionType} {candidate : ResolvedAction} :
    authorizes configured candidate = true ↔
      configured = candidate.kind ∧ candidate.kind.targeted = true := by
  cases candidate <;> simp [authorizes, ResolvedAction.kind, PlaybookActionType.targeted]

end Evaluation

/- The same action for the time the playbook asks. -/
def retimed (lockSecs blockSecs : Option Nat) : ResolvedAction → ResolvedAction
  | .disableAccount user _ => .disableAccount user (lockSecs.getD defaultAccountLockSecs)
  | .blockIp ip _ => .blockIp ip (blockSecs.getD defaultBlockSecs)
  | action => action

theorem once_sublist (lockSecs blockSecs : Option Nat) (locked blocked : List String)
    (actions : List ResolvedAction) :
    (once lockSecs blockSecs locked blocked actions).Sublist
      (actions.map (retimed lockSecs blockSecs)) := by
  induction actions generalizing locked blocked with
  | nil => exact List.Sublist.slnil
  | cons action rest ih =>
    cases action with
    | disableAccount user secs =>
      simp only [once, List.map_cons, retimed]
      split
      · exact (ih _ _).cons _
      · exact (ih _ _).cons_cons _
    | blockIp ip secs =>
      simp only [once, List.map_cons, retimed]
      split
      · exact (ih _ _).cons _
      · exact (ih _ _).cons_cons _
    | _ => exact (ih _ _).cons_cons _

/- Nothing is dropped from a list of which nothing was kept yet. -/
theorem once_eq_nil (lockSecs blockSecs : Option Nat) (actions : List ResolvedAction) :
    once lockSecs blockSecs [] [] actions = [] ↔ actions = [] := by
  cases actions with
  | nil => simp [once]
  | cons action rest => cases action <;> simp [once]

/- Entities kept after one was noted are others than it. -/
theorem fresh_of_noted {kept noted : List String} {name : String} (nodup : kept.Nodup)
    (fresh : ∀ other ∈ kept, other ∉ noted ++ [name]) :
    (∀ other ∈ kept, other ∉ noted) ∧
      (name ∉ noted → (name :: kept).Nodup ∧ ∀ other ∈ name :: kept, other ∉ noted) := by
  have apart : ∀ other ∈ kept, other ∉ noted ∧ other ≠ name := by
    intro other member
    simpa using fresh other member
  have dropped : ∀ other ∈ kept, other ∉ noted := fun other member => (apart other member).1
  refine ⟨dropped, fun unseen => ⟨?_, ?_⟩⟩
  · rw [List.nodup_cons]
    exact ⟨fun member => (apart name member).2 rfl, nodup⟩
  · intro other member
    rcases List.mem_cons.mp member with rfl | later
    · exact unseen
    · exact dropped other later

theorem once_addresses (lockSecs blockSecs : Option Nat) (locked blocked : List String)
    (actions : List ResolvedAction) :
    let kept := (once lockSecs blockSecs locked blocked actions).filterMap ResolvedAction.address?
    kept.Nodup ∧ ∀ ip ∈ kept, ip ∉ blocked := by
  induction actions generalizing locked blocked with
  | nil => simp [once]
  | cons action rest ih =>
    cases action with
    | disableAccount user secs =>
      simp only [once]
      split
      · exact ih _ _
      · exact ih _ _
    | blockIp ip secs =>
      simp only [once]
      obtain ⟨nodup, fresh⟩ := ih locked (blocked ++ [ip])
      obtain ⟨dropped, kept⟩ := fresh_of_noted nodup fresh
      split
      · exact ⟨nodup, dropped⟩
      · rename_i unseen
        exact kept unseen
    | _ => exact ih _ _

theorem once_accounts (lockSecs blockSecs : Option Nat) (locked blocked : List String)
    (actions : List ResolvedAction) :
    let kept := (once lockSecs blockSecs locked blocked actions).filterMap ResolvedAction.account?
    kept.Nodup ∧ ∀ user ∈ kept, user ∉ locked := by
  induction actions generalizing locked blocked with
  | nil => simp [once]
  | cons action rest ih =>
    cases action with
    | blockIp ip secs =>
      simp only [once]
      split
      · exact ih _ _
      · exact ih _ _
    | disableAccount user secs =>
      simp only [once]
      obtain ⟨nodup, fresh⟩ := ih (locked ++ [user]) blocked
      obtain ⟨dropped, kept⟩ := fresh_of_noted nodup fresh
      split
      · exact ⟨nodup, dropped⟩
      · rename_i unseen
        exact kept unseen
    | _ => exact ih _ _

/- What the configured actions without a target add: at most one each, of the
   action's own kind. -/
theorem addConfigured_eq (playbook : Playbook) (texts : List String)
    (actions : List ResolvedAction) (configured : PlaybookAction) :
    (configured.actionType.targeted = true ∧
      addConfigured playbook texts actions configured = actions) ∨
    ∃ added, added.kind = configured.actionType ∧ added.kind.targeted = false ∧
      addConfigured playbook texts actions configured = actions ++ [added] := by
  rw [addConfigured]
  cases type : configured.actionType <;>
    simp [PlaybookActionType.targeted, ResolvedAction.kind]

theorem configured_appended (playbook : Playbook) (texts : List String)
    (configs : List PlaybookAction) (actions : List ResolvedAction) :
    ∃ added, configs.foldl (addConfigured playbook texts) actions = actions ++ added ∧
      (∀ action ∈ added, action.kind.targeted = false ∧
        ∃ configured ∈ configs, configured.actionType = action.kind) ∧
      (added = [] ↔ ∀ configured ∈ configs, configured.actionType.targeted = true) := by
  induction configs generalizing actions with
  | nil => exact ⟨[], by simp⟩
  | cons configured rest ih =>
    rw [List.foldl_cons]
    rcases addConfigured_eq playbook texts actions configured with ⟨targeted, same⟩ |
      ⟨first, kind, plain, appended⟩
    · obtain ⟨added, grows, origin, empty⟩ := ih actions
      rw [same]
      refine ⟨added, grows, ?_, by simp [empty, targeted]⟩
      intro action member
      obtain ⟨plain, source, listed, type⟩ := origin action member
      exact ⟨plain, source, List.mem_cons_of_mem _ listed, type⟩
    · obtain ⟨added, grows, origin, _⟩ := ih (actions ++ [first])
      rw [appended]
      refine ⟨first :: added, by rw [grows, List.append_assoc]; rfl, ?_, ?_⟩
      · intro action member
        rcases List.mem_cons.mp member with rfl | later
        · exact ⟨plain, configured, List.mem_cons_self, kind.symm⟩
        · obtain ⟨plain', source, listed, type⟩ := origin action later
          exact ⟨plain', source, List.mem_cons_of_mem _ listed, type⟩
      · rw [kind] at plain
        simp [plain]

section Evaluation
variable {toLowercase : String → String} {context : ThreatContext}

/- The candidates the playbook configured an action for. -/
def allowed (toLowercase : String → String) (context : ThreatContext) (playbook : Playbook) :
    List ResolvedAction :=
  (playbook.conditions.flatMap fun c => (hits toLowercase context c).flatMap Prod.snd).filter
    fun candidate => playbook.actions.any (authorizes ·.actionType candidate)

theorem mem_allowed {playbook : Playbook} {action : ResolvedAction}
    (member : action ∈ allowed toLowercase context playbook) :
    (∃ condition ∈ playbook.conditions, Names toLowercase context condition action) ∧
      ∃ configured ∈ playbook.actions, configured.actionType = action.kind := by
  simp only [allowed, List.mem_filter, List.mem_flatMap (b := action), List.any_eq_true] at member
  obtain ⟨⟨condition, listed, found⟩, configured, among, authorized⟩ := member
  exact ⟨⟨condition, listed, hit_names (List.mem_flatMap.mpr found)⟩, configured, among,
    (authorizes_iff.mp authorized).1⟩

theorem allowed_nonempty {playbook : Playbook} {configured : PlaybookAction}
    (among : configured ∈ playbook.actions) (targeted : configured.actionType.targeted = true)
    (applies : Applies toLowercase context playbook configured) :
    allowed toLowercase context playbook ≠ [] := by
  obtain ⟨condition, listed, action, kind, named⟩ := applies targeted
  obtain ⟨candidate, proposed, same⟩ := named_hit named
  apply List.ne_nil_of_mem (a := candidate)
  have authorized : authorizes configured.actionType candidate = true :=
    authorizes_iff.mpr ⟨by rw [same, kind], by rw [same, kind]; exact targeted⟩
  exact List.mem_filter.mpr ⟨List.mem_flatMap.mpr ⟨condition, listed, proposed⟩,
    List.any_eq_true.mpr ⟨configured, among, authorized⟩⟩

theorem evaluate_triggered_iff (playbook : Playbook) :
    (evaluatePlaybook toLowercase playbook context).triggered = true ↔
      playbook.enabled = true ∧ Triggers toLowercase context playbook := by
  rw [evaluatePlaybook]
  by_cases enabled : playbook.enabled = true
  · simp only [enabled, if_true, true_and]
    exact triggers_iff playbook
  · simp [enabled]

theorem evaluate_quiet {playbook : Playbook}
    (quiet : ¬ (playbook.enabled = true ∧ Triggers toLowercase context playbook)) :
    (evaluatePlaybook toLowercase playbook context).actions = [] := by
  rw [evaluatePlaybook]
  by_cases enabled : playbook.enabled = true
  · have untriggered : playbookTriggers playbook.operator
        (tally toLowercase context playbook.conditions).conditionsMatched
        playbook.conditions.length = false := by
      by_contra triggered
      exact quiet ⟨enabled, (triggers_iff playbook).mp (by simpa using triggered)⟩
    simp [enabled, untriggered, once]
  · simp [enabled]

/- A playbook that goes off: the allowed candidates, once each and retimed, then
   the configured actions without a target. -/
theorem evaluate_fires {playbook : Playbook} (enabled : playbook.enabled = true)
    (triggers : Triggers toLowercase context playbook) :
    ∃ added, (evaluatePlaybook toLowercase playbook context).actions =
        once ((playbook.configuredParameters .disableAccount).map accountLockDuration)
          ((playbook.configuredParameters .blockIp).map blockDuration) [] []
          (allowed toLowercase context playbook) ++ added ∧
      (∀ action ∈ added, action.kind.targeted = false ∧
        ∃ configured ∈ playbook.actions, configured.actionType = action.kind) ∧
      (added = [] ↔ ∀ configured ∈ playbook.actions, configured.actionType.targeted = true) := by
  have triggered := (triggers_iff playbook).mpr triggers
  simp only [evaluatePlaybook, enabled, triggered, if_true, Bool.true_and, tally_actions]
  exact configured_appended playbook _ playbook.actions _

theorem retimed_kind (lockSecs blockSecs : Option Nat) (action : ResolvedAction) :
    (retimed lockSecs blockSecs action).kind = action.kind := by
  cases action <;> rfl

theorem retimed_names {lockSecs blockSecs : Option Nat} {condition : PlaybookCondition}
    {action : ResolvedAction} (named : Names toLowercase context condition action) :
    Names toLowercase context condition (retimed lockSecs blockSecs action) := by
  cases action <;> exact named

/- The time of a kind of action is the one of its first configuration. -/
theorem configured_duration {playbook : Playbook} {type : PlaybookActionType}
    (duration : String → Nat) (unread : Nat)
    (listed : ∃ configured ∈ playbook.actions, configured.actionType = type) :
    ∃ configured ∈ playbook.actions, configured.actionType = type ∧
      ((playbook.configuredParameters type).map duration).getD unread =
        duration configured.parameters := by
  obtain ⟨configured, among, same⟩ := listed
  cases first : playbook.actions.find? (·.actionType == type) with
  | none =>
    have none_such := List.find?_eq_none.mp first configured among
    simp [same] at none_such
  | some chosen =>
    have fits := List.find?_some first
    exact ⟨chosen, List.mem_of_find?_eq_some first, by simpa using fits,
      by simp [Playbook.configuredParameters, first]⟩

theorem evaluate_mem {playbook : Playbook} {action : ResolvedAction}
    (member : action ∈ (evaluatePlaybook toLowercase playbook context).actions) :
    (∃ configured ∈ playbook.actions, configured.actionType = action.kind) ∧
      (action.kind.targeted = true → ∃ condition ∈ playbook.conditions,
        Names toLowercase context condition action) ∧
      (action.kind.targeted = true → ∃ candidate,
        action = retimed ((playbook.configuredParameters .disableAccount).map accountLockDuration)
          ((playbook.configuredParameters .blockIp).map blockDuration) candidate) := by
  by_cases fires : playbook.enabled = true ∧ Triggers toLowercase context playbook
  · obtain ⟨added, split, origin, _⟩ := evaluate_fires fires.1 fires.2
    rw [split, List.mem_append] at member
    rcases member with kept | appended
    · obtain ⟨candidate, listed, rfl⟩ :=
        List.mem_map.mp ((once_sublist _ _ _ _ _).subset kept)
      obtain ⟨⟨condition, among, named⟩, configured⟩ := mem_allowed listed
      rw [retimed_kind]
      exact ⟨configured, fun _ => ⟨condition, among, retimed_names named⟩,
        fun _ => ⟨candidate, rfl⟩⟩
    · obtain ⟨plain, configured⟩ := origin action appended
      exact ⟨configured, fun targeted => by simp [plain] at targeted,
        fun targeted => by simp [plain] at targeted⟩
  · simp [evaluate_quiet fires] at member

theorem untargeted_selected {added : List ResolvedAction}
    (plain : ∀ action ∈ added, action.kind.targeted = false) :
    added.filterMap ResolvedAction.address? = [] ∧
      added.filterMap ResolvedAction.account? = [] := by
  rw [List.filterMap_eq_nil_iff, List.filterMap_eq_nil_iff]
  constructor <;> intro action member <;> have := plain action member <;>
    cases action <;> simp_all [ResolvedAction.kind, PlaybookActionType.targeted,
      ResolvedAction.address?, ResolvedAction.account?]

theorem evaluate_once (toLowercase : String → String) (context : ThreatContext)
    (playbook : Playbook) :
    ((evaluatePlaybook toLowercase playbook context).actions.filterMap
      ResolvedAction.address?).Nodup ∧
    ((evaluatePlaybook toLowercase playbook context).actions.filterMap
      ResolvedAction.account?).Nodup := by
  by_cases fires : playbook.enabled = true ∧ Triggers toLowercase context playbook
  · obtain ⟨added, split, origin, _⟩ := evaluate_fires fires.1 fires.2
    obtain ⟨no_address, no_account⟩ :=
      untargeted_selected fun action member => (origin action member).1
    rw [split, List.filterMap_append, List.filterMap_append, no_address, no_account,
      List.append_nil, List.append_nil]
    exact ⟨(once_addresses _ _ _ _ _).1, (once_accounts _ _ _ _ _).1⟩
  · simp [evaluate_quiet fires]

theorem evaluate_nonempty_iff (playbook : Playbook) :
    (evaluatePlaybook toLowercase playbook context).actions ≠ [] ↔
      (playbook.enabled = true ∧ Triggers toLowercase context playbook) ∧
        ∃ configured ∈ playbook.actions, Applies toLowercase context playbook configured := by
  by_cases fires : playbook.enabled = true ∧ Triggers toLowercase context playbook
  · obtain ⟨added, split, origin, empty⟩ := evaluate_fires fires.1 fires.2
    rw [split]
    constructor
    · intro some_action
      refine ⟨fires, ?_⟩
      by_cases plain : added = []
      · rw [plain, List.append_nil, Ne, once_eq_nil] at some_action
        obtain ⟨action, member⟩ := List.exists_mem_of_ne_nil _ some_action
        obtain ⟨⟨condition, among, named⟩, configured, listed, kind⟩ := mem_allowed member
        exact ⟨configured, listed, fun _ => ⟨condition, among, action, kind.symm, named⟩⟩
      · rw [empty] at plain
        push Not at plain
        obtain ⟨configured, listed, untargeted⟩ := plain
        exact ⟨configured, listed, fun targeted => absurd targeted untargeted⟩
    · rintro ⟨_, configured, listed, applies⟩ nothing
      obtain ⟨none_kept, none_added⟩ := List.append_eq_nil_iff.mp nothing
      rw [once_eq_nil] at none_kept
      have targeted := empty.mp none_added configured listed
      exact allowed_nonempty listed targeted applies none_kept
  · simp [evaluate_quiet fires, fires]

/- An automated response stays within what its playbook configured and what the
   threat named. -/
theorem response_confined (toLowercase : String → String) (playbook : Playbook)
    (context : ThreatContext) :
    let result := evaluatePlaybook toLowercase playbook context
    (∀ action ∈ result.actions,
      ∃ configured ∈ playbook.actions, configured.actionType = action.kind) ∧
    (∀ action ∈ result.actions, action.kind.targeted = true →
      ∃ condition ∈ playbook.conditions, Names toLowercase context condition action) ∧
    (result.actions.filterMap ResolvedAction.address?).Nodup ∧
    (result.actions.filterMap ResolvedAction.account?).Nodup ∧
    (∀ ip secs, .blockIp ip secs ∈ result.actions → ∃ configured ∈ playbook.actions,
      configured.actionType = .blockIp ∧ secs = blockDuration configured.parameters) ∧
    (∀ user secs, .disableAccount user secs ∈ result.actions → ∃ configured ∈ playbook.actions,
      configured.actionType = .disableAccount ∧
        secs = accountLockDuration configured.parameters) ∧
    (playbook.enabled = false ∨ ¬ Triggers toLowercase context playbook → result.actions = []) ∧
    (playbook.enabled = true → isAll playbook.operator = true →
      (result.triggered = true ↔
        ∀ condition ∈ playbook.conditions, Matched toLowercase context condition) ∧
      (result.actions ≠ [] ↔
        (∀ condition ∈ playbook.conditions, Matched toLowercase context condition) ∧
          ∃ configured ∈ playbook.actions, Applies toLowercase context playbook configured)) := by
  intro result
  obtain ⟨addresses, accounts⟩ := evaluate_once toLowercase context playbook
  refine ⟨fun action member => (evaluate_mem member).1,
    fun action member => (evaluate_mem member).2.1, addresses, accounts, ?_, ?_, ?_, ?_⟩
  · intro ip secs member
    obtain ⟨configured, _, retime⟩ := evaluate_mem member
    obtain ⟨candidate, same⟩ := retime rfl
    obtain ⟨chosen, listed, type, duration⟩ :=
      configured_duration blockDuration defaultBlockSecs configured
    cases candidate <;> simp only [retimed, ResolvedAction.blockIp.injEq, reduceCtorEq] at same
    exact ⟨chosen, listed, type, same.2.trans duration⟩
  · intro user secs member
    obtain ⟨configured, _, retime⟩ := evaluate_mem member
    obtain ⟨candidate, same⟩ := retime rfl
    obtain ⟨chosen, listed, type, duration⟩ :=
      configured_duration accountLockDuration defaultAccountLockSecs configured
    cases candidate <;>
      simp only [retimed, ResolvedAction.disableAccount.injEq, reduceCtorEq] at same
    exact ⟨chosen, listed, type, same.2.trans duration⟩
  · rintro (disabled | untriggered)
    · exact evaluate_quiet fun fires => by simp [disabled] at fires
    · exact evaluate_quiet fun fires => untriggered fires.2
  · intro enabled is_all
    have some_condition : playbook.conditions ≠ [] := by
      intro none
      simp [Playbook.operator, none, isAll] at is_all
    have triggers : Triggers toLowercase context playbook ↔
        ∀ condition ∈ playbook.conditions, Matched toLowercase context condition := by
      simp [Triggers, is_all, some_condition]
    constructor
    · rw [evaluate_triggered_iff, triggers]
      simp [enabled]
    · rw [evaluate_nonempty_iff, triggers]
      simp [enabled]

end Evaluation

/- All the conditions matched, and nothing configured has a target. -/
def hunt : Playbook :=
  { id := "1"
    name := "hunt"
    enabled := true
    conditions := [⟨.processNameMatch, "all", "miner"⟩]
    actions := [⟨.quarantineFile, ""⟩] }

def minerSeen : ThreatContext := ⟨[⟨"xminer", 7, "xminer -o pool"⟩], [], []⟩

theorem matched_without_target :
    hunt.enabled = true ∧ isAll hunt.operator = true ∧
      (∀ condition ∈ hunt.conditions, Matched toAsciiLowercase minerSeen condition) ∧
      (evaluatePlaybook toAsciiLowercase hunt minerSeen).actions = [] := by
  refine ⟨rfl, by decide, ?_, by decide⟩
  intro condition member
  rw [List.mem_singleton.mp member, ← hits_nonempty]
  decide

end SentinelAgent.Response
