import SentinelAgent.Response.IsolationCleanUp

/- An isolation that fails: when the rules, the record and the flag still agree. -/
namespace SentinelAgent.Isolation
open Batches

/- The rules of one isolation are in place, all of them and nothing else. -/
def Applied (system : System) (firewall : Firewall) (allowed dnsServers : List IpAddr) : Prop :=
  match system with
  | .macos => firewall.anchor = pfRules allowed dnsServers
  | .windows => firewall.netsh = netshApply allowed dnsServers
  | .linux ipv6 => ∀ family, firewall.tables family =
      if family = true ∧ ipv6 = false then .notIsolated (firewall.tables family).own
      else .isolated allowed dnsServers family (firewall.tables family).own

def NoRules (system : System) (firewall : Firewall) : Prop :=
  match system with
  | .macos => firewall.anchor = []
  | .windows => firewall.netsh = []
  | .linux _ => ∀ family, firewall.tables family = .notIsolated (firewall.tables family).own

/- An older record does not say which resolvers it was applied with. -/
def InForce (system : System) (firewall : Firewall) (state : IsolationState) : Prop :=
  ∃ dnsServers, (∀ listed, state.dnsServers = some listed → dnsServers = listed) ∧
    Applied system firewall state.allowed dnsServers

def Agrees (system : System) (host : Host) : Prop :=
  match host.record with
  | some state => host.isolated = true ∧ InForce system host.firewall state
  | none => host.isolated = false ∧ NoRules system host.firewall

/- The isolation on record, if there was one, is still recorded with its list. -/
def Kept (before after : Host) : Prop :=
  ∀ state, before.record = some state →
    ∃ state', after.record = some state' ∧ state'.allowed = state.allowed

def FailsSafely (system : System) (attempt : Attempt) (reason : String) (durationSecs : Nat)
    (host : Host) : Prop :=
  ∀ e, (isolateHost system attempt reason durationSecs host).2 = .error e →
    Agrees system (isolateHost system attempt reason durationSecs host).1 ∧
      Kept host (isolateHost system attempt reason durationSecs host).1

/- The call stops before it changes a rule. -/
def Untouched (system : System) (attempt : Attempt) : Prop :=
  (∃ text, attempt.channel = .error text) ∨
  match system with
  | .macos => (attempt.directoryFails || attempt.rulesFileFails || attempt.loadFails) = true
  | .windows => attempt.profilesOff.map Text.trim ≠ some "0"
  | .linux _ => False

section Conditions
variable (system : System) (attempt : Attempt) (allowed : List IpAddr)

/- No command that builds the rules is refused. -/
def AllAccepted : Prop :=
  match system with
  | .macos => attempt.enabled ≠ none
  | .windows => ∀ n < (netshApply allowed attempt.resolvers).length, attempt.refused .apply n = false
  | .linux ipv6 =>
    (∀ n < (iptablesApply allowed attempt.resolvers false).length,
      attempt.refused .apply n = false) ∧
    (ipv6 = true → ∀ n < (iptablesApply allowed attempt.resolvers true).length,
      attempt.refused .applyIpv6 n = false)

def fromClear (tables : Bool → Netfilter) (allowed dnsServers : List IpAddr) :
    Bool → Netfilter :=
  Function.update (notIsolated tables) false
    (.isolated allowed dnsServers false (tables false).own)

/- While the rules are built, no clean-up command is refused that has something to
   remove. -/
def ApplyCleansUp (firewall : Firewall) : Prop :=
  match system with
  | .macos => attempt.enabled = none → attempt.refused .back 0 = false
  | .windows =>
    Harmless runNetsh firewall.netsh netshRelease (attempt.refused .before) ∧
    RollbackHarmless runNetsh netshRelease (attempt.refused .back) []
      ((netshApply allowed attempt.resolvers).map .add) (attempt.refused .apply)
  | .linux ipv6 =>
    Harmless runIptables firewall.tables iptablesRelease (attempt.refused .before) ∧
    RollbackHarmless runIptables iptablesRelease (attempt.refused .back)
      (notIsolated firewall.tables)
      ((iptablesApply allowed attempt.resolvers false).map (false, ·)) (attempt.refused .apply) ∧
    (ipv6 = true → (∀ n < (iptablesApply allowed attempt.resolvers false).length,
        attempt.refused .apply n = false) →
      RollbackHarmless runIptables iptablesRelease (attempt.refused .backIpv6)
        (fromClear firewall.tables allowed attempt.resolvers)
        ((iptablesApply allowed attempt.resolvers true).map (true, ·))
        (attempt.refused .applyIpv6))

/- The first of these batches, on its own. -/
def BeforeCleansUp (firewall : Firewall) : Prop :=
  match system with
  | .macos => True
  | .windows => Harmless runNetsh firewall.netsh netshRelease (attempt.refused .before)
  | .linux _ => Harmless runIptables firewall.tables iptablesRelease (attempt.refused .before)

/- Nor is one when the rules are removed again from a firewall they are in. -/
def RemovalCleansUp (firewall : Firewall) : Prop :=
  match system with
  | .macos => attempt.refused .removal 0 = false
  | .windows => Harmless runNetsh firewall.netsh netshRelease (attempt.refused .removal)
  | .linux _ => Harmless runIptables firewall.tables iptablesRelease (attempt.refused .removal)

/- The firewall with all the rules of the call. -/
def inPlace (firewall : Firewall) : Firewall :=
  match system with
  | .macos => { firewall with anchor := pfRules allowed attempt.resolvers }
  | .windows => { firewall with netsh := netshApply allowed attempt.resolvers }
  | .linux ipv6 => { firewall with
      tables := fun family =>
        if family = true ∧ ipv6 = false then .notIsolated (firewall.tables family).own
        else .isolated allowed attempt.resolvers family (firewall.tables family).own }

/- The clean-up of a call that has come to change the rules. -/
def CleansUp (firewall : Firewall) : Prop :=
  ∀ allowed, attempt.channel = .ok allowed →
    ApplyCleansUp system attempt allowed firewall ∧
      (AllAccepted system attempt allowed → attempt.stored ≠ .written →
        RemovalCleansUp system attempt (inPlace system attempt allowed firewall))

def NothingFails : Prop :=
  ∀ allowed, attempt.channel = .ok allowed →
    AllAccepted system attempt allowed ∧ attempt.stored = .written

end Conditions

/- Any state the release commands can clear. -/
def Clearable (system : System) (firewall : Firewall) : Prop :=
  match system with
  | .macos => True
  | .windows => OwnNames firewall.netsh
  | .linux _ => ∀ family, Tidy (firewall.tables family)

theorem tidy_notIsolated (own : Hook → Packet → Bool) : Tidy (.notIsolated own) :=
  ⟨Or.inl rfl, Or.inl rfl, Or.inl rfl⟩

theorem tidy_isolated (allowed dnsServers : List IpAddr) (ipv6 : Bool)
    (own : Hook → Packet → Bool) : Tidy (.isolated allowed dnsServers ipv6 own) :=
  ⟨Or.inr rfl, Or.inr rfl, Or.inr rfl⟩

theorem netshApply_names (allowed dnsServers : List IpAddr) :
    OwnNames (netshApply allowed dnsServers) := by
  intro rule member
  simp only [netshApply, List.mem_append, List.mem_cons, List.not_mem_nil, or_false] at member
  rcases member with ((rfl | rfl | rfl) | resolver) | rfl | rfl | rfl
  · simp [netshRules]
  · simp [netshRules]
  · simp [netshRules]
  · split at resolver
    · exact absurd resolver List.not_mem_nil
    · simp only [List.mem_cons, List.not_mem_nil, or_false] at resolver
      rcases resolver with rfl | rfl <;> simp [netshRules]
  · simp [netshRules]
  · simp [netshRules]
  · simp [netshRules]

theorem agrees_clearable {system : System} {host : Host} (agrees : Agrees system host) :
    Clearable system host.firewall := by
  rw [Agrees] at agrees
  cases system with
  | macos => trivial
  | windows =>
    cases recorded : host.record with
    | none =>
      simp only [recorded, NoRules] at agrees
      intro rule member
      rw [agrees.2] at member
      exact absurd member List.not_mem_nil
    | some state =>
      simp only [recorded, InForce, Applied] at agrees
      obtain ⟨_, dnsServers, _, applied⟩ := agrees
      rw [Clearable, applied]
      exact netshApply_names _ _
  | linux ipv6 =>
    intro family
    cases recorded : host.record with
    | none =>
      simp only [recorded, NoRules] at agrees
      rw [agrees.2 family]
      exact tidy_notIsolated _
    | some state =>
      simp only [recorded, InForce, Applied] at agrees
      obtain ⟨_, dnsServers, _, applied⟩ := agrees
      rw [applied family]
      split
      · exact tidy_notIsolated _
      · exact tidy_isolated _ _ _ _

/- Rules in place are not none. -/
theorem applied_not_none {system : System} {firewall : Firewall} {allowed dnsServers : List IpAddr}
    (applied : Applied system firewall allowed dnsServers) : ¬ NoRules system firewall := by
  intro none
  cases system with
  | macos =>
    simp only [Applied, NoRules] at applied none
    rw [none] at applied
    simp [pfRules] at applied
  | windows =>
    simp only [Applied, NoRules] at applied none
    rw [none] at applied
    simp [netshApply] at applied
  | linux ipv6 =>
    have first := applied false
    rw [none false] at first
    simp only [Bool.false_eq_true, false_and, if_false] at first
    have hooks := congrFun (congrArg Netfilter.hooks first) .input
    simp [Netfilter.notIsolated, Netfilter.isolated] at hooks

/- Some of the first commands of an isolation, run where there was none. -/
theorem netsh_added (start rules : List NetshRule) :
    (rules.map NetshCommand.add).foldlM runNetsh start = some (start ++ rules) := by
  induction rules generalizing start with
  | nil => simp
  | cons rule rest ih =>
    rw [List.map_cons, List.foldlM_cons, runNetsh, Option.bind_eq_bind, Option.bind_some, ih,
      List.append_assoc, List.singleton_append]

theorem one_family (tables : Bool → Netfilter) (family : Bool) (commands : List IptCommand) :
    (commands.map (family, ·)).foldlM runIptables tables =
      (commands.foldlM Netfilter.run (tables family)).map (Function.update tables family) := by
  induction commands generalizing tables with
  | nil => simp
  | cons command rest ih =>
    rw [List.map_cons, List.foldlM_cons, List.foldlM_cons, runIptables]
    cases (tables family).run command with
    | none => rfl
    | some table =>
      simp only [Option.map_some, Option.bind_eq_bind, Option.bind_some]
      rw [ih, Function.update_self]
      congr 1
      funext table'
      rw [Function.update_idem]

def inserted (hook : Hook) : IptCommand → Option Chain
  | .insertHook other chain => if other = hook then some chain else none
  | _ => none

theorem hooks_inserted {table table' : Netfilter} {commands : List IptCommand}
    (plain : ∀ hook chain, .deleteHook hook chain ∉ commands)
    (ran : commands.foldlM Netfilter.run table = some table') (hook : Hook) :
    table'.hooks hook = (commands.filterMap (inserted hook)).reverse ++ table.hooks hook := by
  induction commands generalizing table with
  | nil =>
    rw [List.foldlM_nil] at ran
    rw [← Option.some.inj ran]
    rfl
  | cons command rest ih =>
    cases first : table.run command with
    | none => simp [first] at ran
    | some next =>
      simp only [List.foldlM_cons, first, Option.bind_eq_bind, Option.bind_some] at ran
      have later := ih (fun hook chain member => plain hook chain (List.mem_cons_of_mem _ member))
        ran
      have step : next.hooks hook = (inserted hook command).toList ++ table.hooks hook := by
        cases command with
        | newChain chain =>
          cases found : table.chains chain <;> simp [Netfilter.run, found] at first
          rw [← first]
          rfl
        | append chain rule =>
          cases found : table.chains chain <;> simp [Netfilter.run, found] at first
          rw [← first]
          rfl
        | insertHook other chain =>
          cases found : table.chains chain <;> simp [Netfilter.run, found] at first
          rw [← first]
          by_cases same : hook = other
          · simp [inserted, same]
          · simp [inserted, Function.update_of_ne same, Ne.symm same]
        | deleteHook other chain => exact absurd List.mem_cons_self (plain other chain)
        | flush chain =>
          cases found : table.chains chain <;> simp [Netfilter.run, found] at first
          rw [← first]
          rfl
        | deleteChain chain =>
          simp only [Netfilter.run, Option.ite_none_right_eq_some, Option.some.injEq] at first
          rw [← first.2]
          rfl
      rw [later, step, List.filterMap_cons]
      cases inserted hook command <;> simp

theorem apply_inserts (allowed dnsServers : List IpAddr) (ipv6 : Bool) (hook : Hook) :
    (iptablesApply allowed dnsServers ipv6).filterMap (inserted hook) =
      if hook = .input then [.isoIn] else [.isoOut] := by
  have rules : (iptRules allowed dnsServers ipv6).filterMap
      (fun entry => inserted hook (.append entry.1 entry.2)) = [] :=
    List.filterMap_eq_nil_iff.mpr fun _ _ => rfl
  rw [iptablesApply, List.filterMap_append, List.filterMap_append, List.filterMap_map]
  refine (congrArg (fun middle => _ ++ middle ++ _) rules).trans ?_
  cases hook <;> rfl

theorem part_tidy {allowed dnsServers : List IpAddr} {ipv6 : Bool} {n : Nat} {table : Netfilter}
    {own : Hook → Packet → Bool}
    (ran : ((iptablesApply allowed dnsServers ipv6).take n).foldlM Netfilter.run
      (.notIsolated own) = some table) : Tidy table := by
  have plain : ∀ hook chain, .deleteHook hook chain ∉
      (iptablesApply allowed dnsServers ipv6).take n := by
    intro hook chain member
    have among := List.mem_of_mem_take member
    simp [iptablesApply] at among
  have one : ∀ hook, table.hooks hook = [] ∨
      table.hooks hook = if hook = .input then [.isoIn] else [.isoOut] := by
    intro hook
    have hooks := hooks_inserted plain ran hook
    have part := (List.take_sublist n (iptablesApply allowed dnsServers ipv6)).filterMap
      (inserted hook)
    rw [apply_inserts] at part
    have before : (Netfilter.notIsolated own).hooks hook = [] := rfl
    rw [hooks, before, List.append_nil]
    split at part <;> rename_i which <;>
      rcases List.sublist_singleton.mp part with nothing | one
    · exact Or.inl (by rw [nothing, List.reverse_nil])
    · exact Or.inr (by rw [one, if_pos which, List.reverse_singleton])
    · exact Or.inl (by rw [nothing, List.reverse_nil])
    · exact Or.inr (by rw [one, if_neg which, List.reverse_singleton])
  exact ⟨one .input, one .output, one .forward⟩

theorem family_outcome {tables : Bool → Netfilter} {family : Bool} {own : Hook → Packet → Bool}
    (attempt : Attempt) (allowed dnsServers : List IpAddr) (applying clearing : Stage)
    (start : tables family = .notIsolated own) (tidy : ∀ other, Tidy (tables other)) :
    ((∀ n < (iptablesApply allowed dnsServers family).length, attempt.refused applying n = false) ∧
      run runIptables iptablesRelease attempt applying clearing tables
        ((iptablesApply allowed dnsServers family).map (family, ·)) =
          (Function.update tables family (.isolated allowed dnsServers family own), true) ∧
      RollbackHarmless runIptables iptablesRelease (attempt.refused clearing) tables
        ((iptablesApply allowed dnsServers family).map (family, ·)) (attempt.refused applying)) ∨
    (¬ (∀ n < (iptablesApply allowed dnsServers family).length,
        attempt.refused applying n = false) ∧
      ∃ left, run runIptables iptablesRelease attempt applying clearing tables
        ((iptablesApply allowed dnsServers family).map (family, ·)) = (left, false) ∧
      (RollbackHarmless runIptables iptablesRelease (attempt.refused clearing) tables
        ((iptablesApply allowed dnsServers family).map (family, ·)) (attempt.refused applying) ↔
          ∀ other, left other = .notIsolated (left other).own)) := by
  have all : ((iptablesApply allowed dnsServers family).map (family, ·)).foldlM runIptables tables =
      some (Function.update tables family (.isolated allowed dnsServers family own)) := by
    have whole := runAll_apply allowed dnsServers family own
    rw [Netfilter.runAll] at whole
    rw [one_family, start, whole]
    rfl
  rcases orRollback_whole runIptables iptablesRelease (attempt.refused clearing) all with
    ⟨accepted, result, quiet⟩ | ⟨some_refused, n, part, first, result, quiet⟩
  · exact Or.inl ⟨by simpa using accepted, result, quiet⟩
  · right
    constructor
    · simpa using some_refused
    · have part_clears : ∀ other, Tidy (part other) := by
        rw [← List.map_take, one_family, start] at first
        obtain ⟨table, ran, rfl⟩ := Option.map_eq_some_iff.mp first
        intro other
        by_cases same : other = family
        · subst same
          rw [Function.update_self]
          exact part_tidy ran
        · rw [Function.update_of_ne same]
          exact tidy other
      exact ⟨_, result, quiet.trans (no_tables_iff part_clears _).symm⟩

section Outcomes
variable {system : System} {attempt : Attempt} {allowed : List IpAddr} {firewall : Firewall}

theorem before_of_apply (cleans : ApplyCleansUp system attempt allowed firewall) :
    BeforeCleansUp system attempt firewall := by
  cases system with
  | macos => trivial
  | windows => exact cleans.1
  | linux ipv6 => exact cleans.1

/- Where no list is given the call ends at once. -/
theorem before_of_cleans (touched : ¬ Untouched system attempt)
    (cleans : CleansUp system attempt firewall) : BeforeCleansUp system attempt firewall := by
  cases channel : attempt.channel with
  | error text => exact absurd (Or.inl ⟨text, channel⟩) touched
  | ok allowed => exact before_of_apply (cleans allowed channel).1

theorem before_of_none (none : NoRules system firewall) :
    BeforeCleansUp system attempt firewall := by
  cases system with
  | macos => trivial
  | windows =>
    simp only [NoRules] at none
    rw [BeforeCleansUp, none]
    have idle : ∀ command ∈ netshRelease, (runNetsh [] command).getD [] = [] := by
      intro command member
      obtain ⟨name, _, rfl⟩ := List.mem_map.mp member
      rfl
    exact (harmless_idle runNetsh idle _).1
  | linux ipv6 =>
    have tidy : ∀ family, Tidy (firewall.tables family) := by
      intro family
      rw [none family]
      exact tidy_notIsolated _
    rw [BeforeCleansUp, ← tables_cleared_iff tidy]
    have idle : ∀ command ∈ iptablesRelease,
        (runIptables firewall.tables command).getD firewall.tables = firewall.tables := by
      intro command member
      by_contra effective
      have trace := release_effect member effective
      rw [iptTrace] at trace
      rw [none command.1] at trace
      cases found : command.2 <;> simp [found, Netfilter.notIsolated] at trace
    rw [(harmless_idle runIptables idle _).2]
    funext family
    exact none family

theorem windows_outcome (own : OwnNames firewall.netsh)
    (harmless : BeforeCleansUp .windows attempt firewall)
    (off : attempt.profilesOff.map Text.trim = some "0") :
    (AllAccepted .windows attempt allowed ∧ ApplyCleansUp .windows attempt allowed firewall ∧
      applyRules .windows attempt allowed attempt.resolvers firewall =
        (inPlace .windows attempt allowed firewall, some none)) ∨
    (¬ AllAccepted .windows attempt allowed ∧
      ∃ after, applyRules .windows attempt allowed attempt.resolvers firewall = (after, none) ∧
        (ApplyCleansUp .windows attempt allowed firewall ↔ NoRules .windows after)) := by
  have cleared := (netsh_cleared_iff own (attempt.refused .before)).mpr harmless
  obtain ⟨printed, found, zero⟩ := Option.map_eq_some_iff.mp off
  have all := netsh_added [] (netshApply allowed attempt.resolvers)
  rcases orRollback_whole runNetsh netshRelease (attempt.refused .back) all with
    ⟨accepted, result, quiet⟩ | ⟨some_refused, n, part, first, result, quiet⟩
  · left
    refine ⟨by simpa [AllAccepted] using accepted, ⟨harmless, quiet⟩, ?_⟩
    simp only [applyRules, found, zero, if_true, cleared, run, result]
    rfl
  · right
    constructor
    · simpa [AllAccepted] using some_refused
    · have names : OwnNames part := by
        rw [← List.map_take, netsh_added, List.nil_append] at first
        rw [← Option.some.inj first]
        exact fun rule member => netshApply_names _ _ rule (List.mem_of_mem_take member)
      refine ⟨{ firewall with
        netsh := bestEffort runNetsh part netshRelease (attempt.refused .back) }, ?_, ?_⟩
      · simp only [applyRules, found, zero, if_true, cleared, run, result]
        rfl
      · rw [ApplyCleansUp, NoRules, netsh_cleared_iff names]
        constructor
        · exact fun cleans => quiet.mp cleans.2
        · exact fun cleans => ⟨harmless, quiet.mpr cleans⟩

theorem linux_outcome {ipv6 : Bool} (tidy : ∀ family, Tidy (firewall.tables family))
    (harmless : BeforeCleansUp (.linux ipv6) attempt firewall) :
    (AllAccepted (.linux ipv6) attempt allowed ∧
      ApplyCleansUp (.linux ipv6) attempt allowed firewall ∧
      applyRules (.linux ipv6) attempt allowed attempt.resolvers firewall =
        (inPlace (.linux ipv6) attempt allowed firewall, some none)) ∨
    (¬ AllAccepted (.linux ipv6) attempt allowed ∧
      ∃ after, applyRules (.linux ipv6) attempt allowed attempt.resolvers firewall =
          (after, none) ∧
        (ApplyCleansUp (.linux ipv6) attempt allowed firewall ↔ NoRules (.linux ipv6) after)) := by
  have cleared := (tables_cleared_iff tidy (attempt.refused .before)).mpr harmless
  have none_tidy : ∀ family, Tidy (notIsolated firewall.tables family) :=
    fun family => tidy_notIsolated _
  rcases family_outcome attempt allowed attempt.resolvers .apply .back
      (show notIsolated firewall.tables false = _ from rfl) none_tidy with
    ⟨accepted, result, quiet⟩ | ⟨some_refused, left, result, quiet⟩
  · cases ipv6 with
    | false =>
      left
      refine ⟨⟨accepted, by simp⟩, ⟨harmless, quiet, by simp⟩, ?_⟩
      simp only [applyRules, cleared, result, Bool.and_false, Bool.false_eq_true, if_false,
        if_true, inPlace]
      congr 2
      funext family
      cases family <;> simp [notIsolated]
    | true =>
      have started : ∀ family, Tidy (fromClear firewall.tables allowed attempt.resolvers family) := by
        intro family
        cases family with
        | false => exact tidy_isolated _ _ _ _
        | true => exact tidy_notIsolated _
      rcases family_outcome attempt allowed attempt.resolvers .applyIpv6 .backIpv6
          (show fromClear firewall.tables allowed attempt.resolvers true = _ from rfl) started with
        ⟨accepted6, result6, quiet6⟩ | ⟨some_refused6, left, result6, quiet6⟩
      · left
        refine ⟨⟨accepted, fun _ => accepted6⟩, ⟨harmless, quiet, fun _ _ => quiet6⟩, ?_⟩
        rw [fromClear] at result6
        simp only [applyRules, cleared, result, Bool.and_true, if_true, result6, inPlace]
        congr 2
        funext family
        cases family <;> simp
      · right
        refine ⟨fun accepted => some_refused6 (accepted.2 rfl), { firewall with tables := left },
          ?_, ?_⟩
        · rw [fromClear] at result6
          simp only [applyRules, cleared, result, Bool.and_true, if_true, result6,
            Bool.false_eq_true, if_false]
        · rw [ApplyCleansUp, NoRules, ← quiet6]
          constructor
          · exact fun cleans => cleans.2.2 rfl accepted
          · exact fun cleans => ⟨harmless, quiet, fun _ _ => cleans⟩
  · right
    refine ⟨fun accepted => some_refused accepted.1, { firewall with tables := left }, ?_, ?_⟩
    · simp only [applyRules, cleared, result, Bool.false_and, Bool.false_eq_true, if_false]
    · rw [ApplyCleansUp, NoRules, ← quiet]
      constructor
      · exact fun cleans => cleans.2.1
      · exact fun cleans => ⟨harmless, cleans, fun _ accepted => absurd accepted some_refused⟩

theorem macos_outcome (loads : (attempt.directoryFails || attempt.rulesFileFails ||
    attempt.loadFails) = false) :
    (AllAccepted .macos attempt allowed ∧ ApplyCleansUp .macos attempt allowed firewall ∧
      ∃ enabled, attempt.enabled = some enabled ∧
        applyRules .macos attempt allowed attempt.resolvers firewall =
          ({ inPlace .macos attempt allowed firewall with
            tokens := enabled.token :: firewall.tokens }, some (Edr.pfToken enabled.output))) ∨
    (¬ AllAccepted .macos attempt allowed ∧
      ∃ after, applyRules .macos attempt allowed attempt.resolvers firewall = (after, none) ∧
        (ApplyCleansUp .macos attempt allowed firewall ↔ NoRules .macos after)) := by
  cases found : attempt.enabled with
  | some enabled =>
    left
    refine ⟨by simp [AllAccepted, found], by simp [ApplyCleansUp, found], enabled, rfl, ?_⟩
    simp [applyRules, loads, found, inPlace]
  | none =>
    right
    constructor
    · simp [AllAccepted, found]
    · simp only [applyRules, loads, found, Bool.false_eq_true, if_false]
      refine ⟨_, rfl, ?_⟩
      simp only [ApplyCleansUp, found, NoRules]
      cases attempt.refused .back 0 <;> simp [pfRules]

/- What a call does to the rules once it has begun to change them. -/
theorem apply_outcome (allowed : List IpAddr) (clearable : Clearable system firewall)
    (harmless : BeforeCleansUp system attempt firewall) (touched : ¬ Untouched system attempt) :
    (AllAccepted system attempt allowed ∧ ApplyCleansUp system attempt allowed firewall ∧
      ∃ tokens token, applyRules system attempt allowed attempt.resolvers firewall =
        ({ inPlace system attempt allowed firewall with tokens := tokens }, some token)) ∨
    (¬ AllAccepted system attempt allowed ∧
      ∃ after, applyRules system attempt allowed attempt.resolvers firewall = (after, none) ∧
        (ApplyCleansUp system attempt allowed firewall ↔ NoRules system after)) := by
  obtain ⟨_, goes_on⟩ := not_or.mp touched
  cases system with
  | macos =>
    rcases macos_outcome (Bool.eq_false_iff.mpr goes_on) with
      ⟨accepted, cleans, enabled, _, result⟩ | failed
    · exact Or.inl ⟨accepted, cleans, _, _, result⟩
    · exact Or.inr failed
  | windows =>
    rcases windows_outcome clearable harmless (not_not.mp goes_on) with
      ⟨accepted, cleans, result⟩ | failed
    · exact Or.inl ⟨accepted, cleans, _, _, result⟩
    · exact Or.inr failed
  | linux ipv6 =>
    rcases linux_outcome clearable harmless with ⟨accepted, cleans, result⟩ | failed
    · exact Or.inl ⟨accepted, cleans, _, _, result⟩
    · exact Or.inr failed

theorem untouched_apply (untouched : Untouched system attempt)
    (channel : attempt.channel = .ok allowed) :
    applyRules system attempt allowed attempt.resolvers firewall = (firewall, none) := by
  rcases untouched with ⟨text, refused⟩ | untouched
  · rw [channel] at refused
    cases refused
  · cases system with
    | macos => simp only [applyRules, untouched, if_true]
    | windows =>
      simp only [applyRules]
      split
      · rfl
      · rename_i printed found
        have other : Text.trim printed ≠ "0" := by
          intro zero
          simp [found, zero] at untouched
        rw [if_neg other]
    | linux ipv6 => exact untouched.elim

theorem inPlace_applied :
    Applied system (inPlace system attempt allowed firewall) allowed attempt.resolvers := by
  cases system with
  | macos => rfl
  | windows => rfl
  | linux ipv6 =>
    intro family
    simp only [inPlace]
    split <;> rfl

theorem removed_iff (tokens : List String) (token : Option String) :
    NoRules system (removeRules system (attempt.refused .removal) token
      { inPlace system attempt allowed firewall with tokens := tokens }) ↔
      RemovalCleansUp system attempt (inPlace system attempt allowed firewall) := by
  cases system with
  | macos =>
    simp only [NoRules, removeRules, RemovalCleansUp, inPlace]
    cases attempt.refused .removal 0 <;> simp [pfRules]
  | windows => exact netsh_cleared_iff (netshApply_names _ _) _
  | linux ipv6 =>
    have tidy : ∀ family, Tidy ((inPlace (.linux ipv6) attempt allowed firewall).tables family) := by
      intro family
      simp only [inPlace]
      split
      · exact tidy_notIsolated _
      · exact tidy_isolated _ _ _ _
    exact no_tables_iff tidy _

/- A record that could not be stored leaves it to the removal. -/
theorem unstored_removed_iff {stored : Stored} (accepted : AllAccepted system attempt allowed)
    (cleans : ApplyCleansUp system attempt allowed firewall) (unstored : stored ≠ .written)
    (tokens : List String) (token : Option String) :
    NoRules system (removeRules system (attempt.refused .removal) token
        { inPlace system attempt allowed firewall with tokens := tokens }) ↔
      ApplyCleansUp system attempt allowed firewall ∧
        (AllAccepted system attempt allowed → stored ≠ .written →
          RemovalCleansUp system attempt (inPlace system attempt allowed firewall)) := by
  rw [removed_iff]
  constructor
  · exact fun removed => ⟨cleans, fun _ _ => removed⟩
  · exact fun removed => removed.2 accepted unstored

variable {reason : String} {durationSecs : Nat} {host : Host}

theorem isolate_untouched (untouched : Untouched system attempt) :
    (isolateHost system attempt reason durationSecs host).1 = host := by
  cases channel : attempt.channel with
  | error text => simp only [isolateHost, channel]
  | ok allowed => simp only [isolateHost, channel, untouched_apply untouched channel]

/- A call that changes rules succeeds, or it fails and leaves no rules exactly where
   its clean-up was refused nothing. -/
theorem touched_outcome (reason : String) (durationSecs : Nat)
    (clearable : Clearable system host.firewall)
    (harmless : BeforeCleansUp system attempt host.firewall)
    (touched : ¬ Untouched system attempt) :
    (NothingFails system attempt ∧ CleansUp system attempt host.firewall ∧
      ∃ host' state, isolateHost system attempt reason durationSecs host = (host', .ok state)) ∨
    (¬ NothingFails system attempt ∧
      ∃ host' e, isolateHost system attempt reason durationSecs host = (host', .error e) ∧
        host'.isolated = host.isolated ∧ (host.record = none → host'.record = none) ∧
        (NoRules system host'.firewall ↔ CleansUp system attempt host.firewall)) := by
  cases channel : attempt.channel with
  | error text => exact absurd (Or.inl ⟨text, channel⟩) touched
  | ok allowed =>
    have cleans_iff : CleansUp system attempt host.firewall ↔
        ApplyCleansUp system attempt allowed host.firewall ∧
          (AllAccepted system attempt allowed → attempt.stored ≠ .written →
            RemovalCleansUp system attempt (inPlace system attempt allowed host.firewall)) := by
      simp only [CleansUp, channel, Except.ok.injEq, forall_eq']
    have nothing_iff : NothingFails system attempt ↔
        AllAccepted system attempt allowed ∧ attempt.stored = .written := by
      simp only [NothingFails, channel, Except.ok.injEq, forall_eq']
    rw [nothing_iff, cleans_iff]
    rcases apply_outcome allowed clearable harmless touched with
      ⟨accepted, cleans, tokens, token, result⟩ | ⟨some_refused, after, result, none_iff⟩
    · cases stored : attempt.stored with
      | written =>
        refine Or.inl ⟨⟨accepted, rfl⟩, ⟨cleans, fun _ other => absurd rfl other⟩, ?_⟩
        simp only [isolateHost, channel, result, stored]
        exact ⟨_, _, rfl⟩
      | failed =>
        refine Or.inr ⟨by simp, ?_⟩
        simp only [isolateHost, channel, result, stored]
        exact ⟨_, _, rfl, rfl, fun none => none,
          unstored_removed_iff accepted cleans (by decide) tokens token⟩
      | damaged =>
        refine Or.inr ⟨by simp, ?_⟩
        simp only [isolateHost, channel, result, stored]
        exact ⟨_, _, rfl, rfl, fun _ => rfl,
          unstored_removed_iff accepted cleans (by decide) tokens token⟩
    · refine Or.inr ⟨fun nothing => some_refused nothing.1, ?_⟩
      simp only [isolateHost, channel, result]
      refine ⟨_, _, rfl, rfl, fun none => none, ?_⟩
      rw [← none_iff]
      constructor
      · exact fun cleans => ⟨cleans, fun accepted => absurd accepted some_refused⟩
      · exact fun cleans => cleans.1

theorem safe_of_ok {host' : Host} {state : IsolationState}
    (result : isolateHost system attempt reason durationSecs host = (host', .ok state)) :
    FailsSafely system attempt reason durationSecs host := by
  intro e failed
  rw [result] at failed
  cases failed

theorem safe_of_error_iff {host' : Host} {e : IsolationError}
    (result : isolateHost system attempt reason durationSecs host = (host', .error e)) :
    FailsSafely system attempt reason durationSecs host ↔
      Agrees system host' ∧ Kept host host' := by
  rw [FailsSafely, result]
  constructor
  · exact fun safe => safe e rfl
  · exact fun safe _ _ => safe

end Outcomes

theorem none_safe_iff {system : System} {host host' : Host} (agrees : Agrees system host)
    (none : host.record = none) (flag : host'.isolated = host.isolated)
    (still : host'.record = Option.none) :
    Agrees system host' ∧ Kept host host' ↔ NoRules system host'.firewall := by
  rw [Agrees, none] at agrees
  rw [Agrees, still, flag]
  constructor
  · exact fun safe => safe.1.2
  · intro cleared
    refine ⟨⟨agrees.1, cleared⟩, ?_⟩
    intro state found
    rw [none] at found
    cases found

theorem isolated_not_safe {system : System} {host host' : Host} (isolated : host.record ≠ none)
    (cleared : NoRules system host'.firewall) :
    ¬ (Agrees system host' ∧ Kept host host') := by
  rintro ⟨agrees, kept⟩
  obtain ⟨state, found⟩ := Option.ne_none_iff_exists'.mp isolated
  obtain ⟨state', still, _⟩ := kept state found
  rw [Agrees, still] at agrees
  obtain ⟨_, dnsServers, _, applied⟩ := agrees
  exact applied_not_none applied cleared

/- A host without isolation is left so unless a clean-up command is refused. An
   isolated one keeps its isolation if the call succeeds or changes no rule; where the
   clean-up works, only then. -/
theorem fails_safely_iff {system : System} {attempt : Attempt} {host : Host} (reason : String)
    (durationSecs : Nat) (agrees : Agrees system host) :
    (host.record = none → (FailsSafely system attempt reason durationSecs host ↔
      Untouched system attempt ∨ CleansUp system attempt host.firewall)) ∧
    (host.record ≠ none →
      (Untouched system attempt ∨
          (CleansUp system attempt host.firewall ∧ NothingFails system attempt) →
        FailsSafely system attempt reason durationSecs host) ∧
      (CleansUp system attempt host.firewall →
        FailsSafely system attempt reason durationSecs host →
          Untouched system attempt ∨ NothingFails system attempt)) := by
  have clearable := agrees_clearable agrees
  by_cases untouched : Untouched system attempt
  · have unchanged : FailsSafely system attempt reason durationSecs host := by
      intro e _
      rw [isolate_untouched untouched]
      exact ⟨agrees, fun state found => ⟨state, found, rfl⟩⟩
    constructor
    · intro _
      constructor
      · exact fun _ => Or.inl untouched
      · exact fun _ => unchanged
    · exact fun _ => ⟨fun _ => unchanged, fun _ _ => Or.inl untouched⟩
  · constructor
    · intro none
      have harmless : BeforeCleansUp system attempt host.firewall := by
        rw [Agrees, none] at agrees
        exact before_of_none agrees.2
      rcases touched_outcome reason durationSecs clearable harmless untouched with
        ⟨_, cleans, host', state, result⟩ | ⟨_, host', e, result, flag, still, cleared⟩
      · constructor
        · exact fun _ => Or.inr cleans
        · exact fun _ => safe_of_ok result
      · rw [safe_of_error_iff result, none_safe_iff agrees none flag (still none), cleared]
        constructor
        · exact Or.inr
        · exact fun either => either.resolve_left untouched
    · intro isolated
      have outcome : CleansUp system attempt host.firewall → _ := fun cleans =>
        touched_outcome reason durationSecs clearable (before_of_cleans untouched cleans) untouched
      constructor
      · rintro (early | ⟨cleans, nothing⟩)
        · exact absurd early untouched
        · rcases outcome cleans with ⟨_, _, host', state, result⟩ | ⟨fails, _⟩
          · exact safe_of_ok result
          · exact absurd nothing fails
      · intro cleans safe
        rcases outcome cleans with ⟨nothing, _⟩ | ⟨_, host', e, result, _, _, cleared⟩
        · exact Or.inr nothing
        · exact absurd ((safe_of_error_iff result).mp safe)
            (isolated_not_safe isolated (cleared.mpr cleans))

/- Clean-up commands that are never refused. -/
theorem cleans_of_never {attempt : Attempt} (before : attempt.refused .before = never)
    (back : attempt.refused .back = never) (backIpv6 : attempt.refused .backIpv6 = never)
    (removal : attempt.refused .removal = never) (system : System) (firewall : Firewall) :
    CleansUp system attempt firewall := by
  intro allowed _
  cases system with
  | macos =>
    rw [ApplyCleansUp, RemovalCleansUp, back, removal]
    exact ⟨fun _ => rfl, fun _ _ => rfl⟩
  | windows =>
    rw [ApplyCleansUp, RemovalCleansUp, before, back, removal]
    exact ⟨⟨harmless_never _ _ _, rollbackHarmless_never _ _ _ _ _⟩,
      fun _ _ => harmless_never _ _ _⟩
  | linux ipv6 =>
    rw [ApplyCleansUp, RemovalCleansUp, before, back, backIpv6, removal]
    exact ⟨⟨harmless_never _ _ _, rollbackHarmless_never _ _ _ _ _,
      fun _ _ => rollbackHarmless_never _ _ _ _ _⟩, fun _ _ => harmless_never _ _ _⟩

def clearFirewall : Firewall :=
  ⟨[], [], [], fun _ => .notIsolated fun _ _ => true⟩

def server : IpAddr := .v4 3221225985

/- The host answers `iptables -N` with an error. -/
def firstRefused : Attempt where
  channel := .ok [server]
  resolvers := []
  now := 100
  directoryFails := false
  rulesFileFails := false
  loadFails := false
  enabled := none
  profilesOff := none
  refused stage n := stage = .apply && n = 0
  stored := .written

def hostIsolated : Host :=
  ⟨inPlace (.linux false) firstRefused [server] clearFirewall,
    some ⟨0, none, "", [server], some [], none⟩, true⟩

theorem firstRefused_cleans (firewall : Firewall) :
    CleansUp (.linux false) firstRefused firewall := by
  apply cleans_of_never <;> rfl

theorem hostIsolated_agrees : Agrees (.linux false) hostIsolated :=
  ⟨rfl, [], fun _ same => Option.some.inj same, inPlace_applied⟩

theorem firstRefused_fails : ¬ NothingFails (.linux false) firstRefused := by
  intro nothing
  have first := (nothing [server] rfl).1.1 0 (by decide)
  simp [firstRefused] at first

/- Isolated again with a command refused: the rules are gone, the host counts as
   isolated. -/
theorem isolated_again_refused : Agrees (.linux false) hostIsolated ∧
    ¬ FailsSafely (.linux false) firstRefused "" 0 hostIsolated := by
  have touched : ¬ Untouched (.linux false) firstRefused := by
    simp [Untouched, firstRefused]
  constructor
  · exact hostIsolated_agrees
  · rcases touched_outcome "" 0 (agrees_clearable hostIsolated_agrees)
        (before_of_cleans touched (firstRefused_cleans _)) touched with
      ⟨nothing, _⟩ | ⟨_, host', e, result, _, _, cleared⟩
    · exact absurd nothing firstRefused_fails
    · rw [safe_of_error_iff result]
      exact isolated_not_safe (by decide) (cleared.mpr (firstRefused_cleans _))

theorem first_isolation_refused :
    FailsSafely (.linux false) firstRefused "" 0 ⟨clearFirewall, none, false⟩ := by
  have agrees : Agrees (.linux false) ⟨clearFirewall, none, false⟩ := ⟨rfl, fun _ => rfl⟩
  exact ((fails_safely_iff "" 0 agrees).1 rfl).mpr (Or.inr (firstRefused_cleans _))

end SentinelAgent.Isolation
