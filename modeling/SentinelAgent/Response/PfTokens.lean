import SentinelAgent.Library.Runs
import SentinelAgent.Response.HostIsolation

/- The references that keep pf enabled on macOS: acquired by an isolation, kept in its
   record, released when it is lifted. -/
namespace SentinelAgent.Isolation
open Edr (pfToken)

inductive Action where
  | isolate (attempt : Attempt) (reason : String) (durationSecs : Nat)
  | release (lift : Lift)
  | startUp (rebooted : Bool) (attempt : Attempt) (lift : Lift)

def step (host : Host) : Action → Host
  | .isolate attempt reason durationSecs =>
    (isolateHost .macos attempt reason durationSecs host).1
  | .release lift => (releaseHost .macos lift host).1
  | .startUp rebooted attempt lift => startUp .macos rebooted attempt lift host

/- The reference acquired while the rules are applied. -/
def acquired (attempt : Attempt) : Option Edr.Enabled :=
  if attempt.directoryFails || attempt.rulesFileFails || attempt.loadFails then none
  else attempt.enabled

def Held (host : Host) : Prop :=
  ∀ state, host.record = some state →
    ∃ token ∈ host.firewall.tokens, state.pfToken = some token

/- A release that reports success, asked for or at start-up. -/
def LiftsOk (host : Host) : Action → Prop
  | .isolate .. => False
  | .release lift => (releaseHost .macos lift host).2 = .ok ()
  | .startUp _ attempt lift => ∃ state, host.record = some state ∧
      reconcileAction state attempt.now = .release ∧ (releaseHost .macos lift host).2 = .ok ()

def NoLeak (host : Host) (action : Action) : Prop :=
  Held (step host action) ∧ (LiftsOk host action → (step host action).firewall.tokens = [])

/- What is held is what is on record. -/
def OnRecord (tokens : List String) : Option IsolationState → Prop
  | none => tokens = []
  | some state => ∃ token, state.pfToken = some token ∧ tokens = [token]

def TokensAgree (host : Host) : Prop := OnRecord host.firewall.tokens host.record

def Prints (enabled : Edr.Enabled) : Prop := pfToken enabled.output = some enabled.token

/- `pfctl -X` releases the token on record exactly if the record goes. -/
def LiftsWhole (lift : Lift) : Prop := lift.refused 1 = lift.unlinkFails

def AcquiresWhole (host : Host) (attempt : Attempt) : Prop :=
  ∀ enabled, acquired attempt = some enabled → Prints enabled ∧
    (attempt.stored ≠ .failed → host.record = none) ∧
    (attempt.stored ≠ .written → attempt.refused .removal 1 = false)

def TokensMeet (host : Host) : Action → Prop
  | .isolate attempt _ _ => (∃ text, attempt.channel = .error text) ∨ AcquiresWhole host attempt
  | .release lift => host.record = none ∨ LiftsWhole lift
  | .startUp rebooted attempt lift => ∀ state, host.record = some state →
      match rebooted, reconcileAction state attempt.now with
      | true, .release => lift.unlinkFails = false
      | false, .release => LiftsWhole lift
      | true, .reapply _ =>
        ∃ enabled, acquired attempt = some enabled ∧ Prints enabled ∧ attempt.stored = .written
      | false, .reapply _ => acquired attempt = none

theorem apply_tokens (attempt : Attempt) (allowed dnsServers : List IpAddr)
    (firewall : Firewall) :
    (applyRules .macos attempt allowed dnsServers firewall).2 =
      (acquired attempt).map (pfToken ·.output) ∧
    (applyRules .macos attempt allowed dnsServers firewall).1.tokens =
      ((acquired attempt).map (·.token)).toList ++ firewall.tokens := by
  simp only [applyRules, acquired]
  split
  · exact ⟨rfl, rfl⟩
  · cases attempt.enabled with
    | none => exact ⟨rfl, rfl⟩
    | some enabled => exact ⟨rfl, rfl⟩

theorem remove_tokens (refused : Nat → Bool) (token : String) (firewall : Firewall) :
    (removeRules .macos refused (some token) firewall).tokens =
      if refused 1 then firewall.tokens else firewall.tokens.erase token := rfl

theorem isolate_agrees {host : Host} {attempt : Attempt} (agree : TokensAgree host)
    (whole : AcquiresWhole host attempt) (reason : String) (durationSecs : Nat) :
    TokensAgree (isolateHost .macos attempt reason durationSecs host).1 := by
  cases channel : attempt.channel with
  | error text => simpa only [isolateHost, channel] using agree
  | ok allowed =>
    obtain ⟨result, tokens⟩ := apply_tokens attempt allowed attempt.resolvers host.firewall
    obtain ⟨⟨firewall, done⟩, applied⟩ :
        ∃ outcome, applyRules .macos attempt allowed attempt.resolvers host.firewall = outcome :=
      ⟨_, rfl⟩
    rw [applied] at result tokens
    cases found : acquired attempt with
    | none =>
      simp only [found, Option.map_none, Option.toList_none, List.nil_append] at result tokens
      simp only [isolateHost, channel, applied, result, TokensAgree, tokens]
      exact agree
    | some enabled =>
      obtain ⟨prints, unrecorded, removes⟩ := whole enabled found
      rw [Prints] at prints
      simp only [found, Option.map_some, prints, Option.toList_some, List.singleton_append]
        at result tokens
      have back : attempt.stored ≠ .written →
          (removeRules .macos (attempt.refused .removal) (some enabled.token) firewall).tokens =
            host.firewall.tokens := by
        intro cancelled
        rw [remove_tokens, removes cancelled, tokens]
        exact List.erase_cons_head _ _
      cases stored : attempt.stored with
      | written =>
        rw [TokensAgree, unrecorded (by simp [stored])] at agree
        simp only [isolateHost, channel, applied, result, stored]
        exact ⟨enabled.token, rfl, by rw [tokens, agree]⟩
      | failed =>
        simp only [isolateHost, channel, applied, result, stored]
        rw [TokensAgree, back (by simp [stored])]
        exact agree
      | damaged =>
        rw [TokensAgree, unrecorded (by simp [stored])] at agree
        simp only [isolateHost, channel, applied, result, stored]
        rw [TokensAgree, back (by simp [stored])]
        exact agree

theorem release_agrees {host : Host} {lift : Lift} (agree : TokensAgree host)
    (whole : host.record = none ∨ LiftsWhole lift) :
    TokensAgree (releaseHost .macos lift host).1 := by
  rw [TokensAgree] at agree
  cases found : host.record with
  | none =>
    rw [found] at agree
    rw [releaseHost, found]
    split <;> exact agree
  | some state =>
    have whole : LiftsWhole lift := whole.resolve_left (by simp [found])
    rw [found] at agree
    obtain ⟨token, on_record, held⟩ := agree
    simp only [releaseHost, found, Option.bind_some, on_record]
    rw [LiftsWhole] at whole
    cases fails : lift.unlinkFails with
    | true =>
      refine ⟨token, on_record, ?_⟩
      rw [if_pos rfl, remove_tokens, whole, fails, held]
      rfl
    | false =>
      rw [fails] at whole
      simp only [Bool.false_eq_true, if_false, TokensAgree, OnRecord]
      rw [remove_tokens, whole, held]
      simp

theorem reapply_agrees {host : Host} {attempt : Attempt} {state : IsolationState} {secs : Option Nat}
    (lift : Lift) (found : host.record = some state)
    (reapply : reconcileAction state attempt.now = .reapply secs)
    (held : (host.firewall.tokens = [] ∧
        ∃ enabled, acquired attempt = some enabled ∧ Prints enabled ∧ attempt.stored = .written) ∨
      (TokensAgree host ∧ acquired attempt = none)) :
    TokensAgree (reconcile .macos attempt lift host) := by
  obtain ⟨result, tokens⟩ := apply_tokens attempt state.allowed
    (state.dnsServers.getD attempt.resolvers) host.firewall
  obtain ⟨⟨firewall, done⟩, applied⟩ : ∃ outcome, applyRules .macos attempt state.allowed
      (state.dnsServers.getD attempt.resolvers) host.firewall = outcome := ⟨_, rfl⟩
  rw [applied] at result tokens
  rcases held with ⟨empty, enabled, acquires, prints, stored⟩ | ⟨agree, acquires⟩
  · rw [Prints] at prints
    simp only [acquires, Option.map_some, prints, Option.toList_some, empty, List.append_nil]
      at result tokens
    simp only [reconcile, found, reapply, applied, result, stored]
    exact ⟨enabled.token, rfl, tokens⟩
  · simp only [acquires, Option.map_none, Option.toList_none, List.nil_append] at result tokens
    simp only [reconcile, found, reapply, applied, result, TokensAgree, tokens]
    rw [TokensAgree, found] at agree
    exact agree

theorem startUp_agrees {host : Host} {rebooted : Bool} {attempt : Attempt} {lift : Lift}
    (agree : TokensAgree host) (meets : TokensMeet host (.startUp rebooted attempt lift)) :
    TokensAgree (startUp .macos rebooted attempt lift host) := by
  rw [startUp]
  obtain unrecorded | ⟨state, found⟩ := Option.eq_none_or_eq_some host.record
  · rw [TokensAgree, unrecorded] at agree
    simp only [reconcile, unrecorded, TokensAgree]
    cases rebooted with
    | true => rfl
    | false => exact agree
  · have meets := meets state found
    cases action : reconcileAction state attempt.now with
    | release =>
      rw [action] at meets
      simp only [reconcile, found, action]
      cases rebooted with
      | true =>
        simp only at meets
        simp only [releaseHost, meets, if_true, Bool.false_eq_true, if_false, reboot, TokensAgree]
        cases on_record : state.pfToken with
        | none => simp [OnRecord, removeRules, on_record]
        | some token => simp [OnRecord, removeRules, on_record]
      | false =>
        rw [TokensAgree, found] at agree
        exact release_agrees agree (Or.inr meets)
    | reapply secs =>
      rw [action] at meets
      cases rebooted with
      | true => exact reapply_agrees lift found action (Or.inl ⟨rfl, meets⟩)
      | false => exact reapply_agrees lift found action (Or.inr ⟨agree, meets⟩)

theorem step_agrees {host : Host} {action : Action} (agree : TokensAgree host)
    (meets : TokensMeet host action) : TokensAgree (step host action) := by
  cases action with
  | isolate attempt reason durationSecs =>
    rcases meets with ⟨text, channel⟩ | whole
    · simp only [step, isolateHost, channel]
      exact agree
    · exact isolate_agrees agree whole reason durationSecs
  | release lift => exact release_agrees agree meets
  | startUp rebooted attempt lift => exact startUp_agrees agree meets

theorem lifted_unrecorded {host : Host} {action : Action} (lifts : LiftsOk host action) :
    (step host action).record = none := by
  have gone : ∀ {lift : Lift} {before : Host}, (releaseHost .macos lift host).2 = .ok () →
      (releaseHost .macos lift before).1.record = none := by
    intro lift before ok
    cases fails : lift.unlinkFails with
    | true => simp [releaseHost, fails] at ok
    | false => simp [releaseHost, fails]
  cases action with
  | isolate attempt reason durationSecs => exact lifts.elim
  | release lift => exact gone lifts
  | startUp rebooted attempt lift =>
    obtain ⟨state, found, release, ok⟩ := lifts
    simp only [step, startUp, reconcile, found, release]
    exact gone ok

theorem agree_held {host : Host} (agree : TokensAgree host) : Held host := by
  intro state found
  rw [TokensAgree, found] at agree
  obtain ⟨token, on_record, held⟩ := agree
  exact ⟨token, by simp [held], on_record⟩

/- Over a run whose calls acquire a reference only where none is on record, and release
   what they take off the record. -/
theorem no_leak_along (host : Host) (agree : TokensAgree host) (actions : List Action)
    (meets : Runs.Along step TokensMeet host actions) : Runs.Along step NoLeak host actions := by
  apply Runs.along_imp (I := TokensAgree) ?_ (fun _ _ => step_agrees) agree meets
  intro host action agree meets
  have after := step_agrees agree meets
  constructor
  · exact agree_held after
  · intro lifts
    rw [TokensAgree, lifted_unrecorded lifts] at after
    exact after

/- Nothing fails. -/
def smooth (token output : String) : Attempt where
  channel := .ok [.v4 3221225985]
  resolvers := []
  now := 100
  directoryFails := false
  rulesFileFails := false
  loadFails := false
  enabled := some { token, output }
  profilesOff := none
  refused _ _ := false
  stored := .written

def smoothLift : Lift := ⟨fun _ => false, false⟩

def newHost : Host := ⟨⟨[], [], [], fun _ => .notIsolated fun _ _ => true⟩, none, false⟩

def firstIsolation : Action := .isolate (smooth "100" "pf enabled\nToken : 100\n") "" 0

def secondIsolation : Action := .isolate (smooth "101" "pf enabled\nToken : 101\n") "" 0

theorem isolated_and_released_keeps_none :
    Runs.Along step NoLeak newHost [firstIsolation, .release smoothLift] := by
  apply no_leak_along newHost rfl
  refine ⟨Or.inr ?_, Or.inr rfl, trivial⟩
  intro enabled acquires
  cases acquires
  exact ⟨by rw [Prints]; decide, fun _ => rfl, fun failed => absurd rfl failed⟩

theorem isolated_twice_leaks : ¬ Runs.Along step NoLeak newHost
    [firstIsolation, secondIsolation, .release smoothLift] := by
  rintro ⟨_, _, ⟨_, released⟩, _⟩
  have tokens := released rfl
  have first : pfToken "pf enabled\nToken : 100\n" = some "100" := by decide
  have second : pfToken "pf enabled\nToken : 101\n" = some "101" := by decide
  simp [step, firstIsolation, secondIsolation, smooth, smoothLift, newHost, isolateHost,
    applyRules, releaseHost, removeRules, recorded, first, second] at tokens

end SentinelAgent.Isolation
