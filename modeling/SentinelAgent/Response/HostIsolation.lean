import SentinelAgent.Edr.PfBlocklist
import SentinelAgent.Library.Batches
import SentinelAgent.Library.Text
import SentinelAgent.Response.IsolationFilter

/- Isolating a host, lifting the isolation and taking it up again at start-up. Each
   command, look-up and file operation of a call may fail; which ones do is an
   argument of the call. -/
namespace SentinelAgent.Isolation
open Batches
open Edr (pfToken)

inductive System where
  | macos
  | windows
  | linux (ipv6 : Bool)
  deriving DecidableEq

structure IsolationState where
  isolatedAt : Int
  releaseAt : Option Int
  reason : String
  allowed : List IpAddr
  dnsServers : Option (List IpAddr)
  pfToken : Option String
  deriving DecidableEq

/- The agent's part of the firewall: the rules in the pf anchor and the references
   that keep pf enabled, the Windows rules, the tables of both families. -/
structure Firewall where
  anchor : List PfRule
  tokens : List String
  netsh : List NetshRule
  tables : Bool → Netfilter

structure Host where
  firewall : Firewall
  record : Option IsolationState
  isolated : Bool

inductive NetshCommand where
  | add (rule : NetshRule)
  | delete (name : String)

def runNetsh (rules : List NetshRule) : NetshCommand → Option (List NetshRule)
  | .add rule => some (rules ++ [rule])
  | .delete name =>
    if rules.any (·.name == name) then some (rules.filter (·.name != name)) else none

def runIptables (tables : Bool → Netfilter) (command : Bool × IptCommand) :
    Option (Bool → Netfilter) :=
  ((tables command.1).run command.2).map (Function.update tables command.1)

def netshRelease : List NetshCommand := netshRules.map .delete

/- The batches of commands of one call. -/
inductive Stage where
  | before | apply | back | applyIpv6 | backIpv6 | removal
  deriving DecidableEq

inductive Stored where
  | written | failed | damaged
  deriving DecidableEq

/- What the host answers during one call. `enabled` is what `pfctl -E` acquires and
   prints, `profilesOff` what the check of the firewall profiles prints. A record
   whose writing failed is as it was, or damaged and no longer read. -/
structure Attempt where
  channel : Except String (List IpAddr)
  resolvers : List IpAddr
  now : Int
  directoryFails : Bool
  rulesFileFails : Bool
  loadFails : Bool
  enabled : Option Edr.Enabled
  profilesOff : Option String
  refused : Stage → Nat → Bool
  stored : Stored

inductive IsolationError where
  | refused (text : String)
  | failed
  | cancelled
  | recordLeft
  deriving DecidableEq

/- `run_all_or_rollback`, with the refusals of its two batches. -/
def run {S C : Type} (exec : S → C → Option S) (rollback : List C) (attempt : Attempt)
    (applying clearing : Stage) (s : S) (commands : List C) : S × Bool :=
  orRollback exec rollback (attempt.refused clearing) s commands (attempt.refused applying)

/- `apply_rules`. The states pf keeps of older connections are not part of the
   model, nor is what is done to them. -/
def applyRules (system : System) (attempt : Attempt) (allowed dnsServers : List IpAddr)
    (firewall : Firewall) : Firewall × Option (Option String) :=
  match system with
  | .macos =>
    if attempt.directoryFails || attempt.rulesFileFails || attempt.loadFails then (firewall, none)
    else
      match attempt.enabled with
      | none => ({ firewall with
          anchor := if attempt.refused .back 0 then pfRules allowed dnsServers else [] }, none)
      | some enabled => ({ firewall with
          anchor := pfRules allowed dnsServers, tokens := enabled.token :: firewall.tokens },
          some (pfToken enabled.output))
  | .windows =>
    match attempt.profilesOff with
    | none => (firewall, none)
    | some printed =>
      if Text.trim printed = "0" then
        let cleared := bestEffort runNetsh firewall.netsh netshRelease (attempt.refused .before)
        let (rules, done) := run runNetsh netshRelease attempt .apply .back cleared
          ((netshApply allowed dnsServers).map .add)
        ({ firewall with netsh := rules }, if done then some none else none)
      else (firewall, none)
  | .linux ipv6 =>
    let cleared := bestEffort runIptables firewall.tables iptablesRelease (attempt.refused .before)
    let (tables, done) := run runIptables iptablesRelease attempt .apply .back cleared
      ((iptablesApply allowed dnsServers false).map (false, ·))
    if done && ipv6 then
      let (tables, done) := run runIptables iptablesRelease attempt .applyIpv6 .backIpv6 tables
        ((iptablesApply allowed dnsServers true).map (true, ·))
      ({ firewall with tables := tables }, if done then some none else none)
    else ({ firewall with tables := tables }, if done then some none else none)

/- `remove_rules`, with the refusals of its commands. -/
def removeRules (system : System) (refused : Nat → Bool) (token : Option String)
    (firewall : Firewall) : Firewall :=
  match system with
  | .macos =>
    { firewall with
      anchor := if refused 0 then firewall.anchor else []
      tokens := match token with
        | none => firewall.tokens
        | some token => if refused 1 then firewall.tokens else firewall.tokens.erase token }
  | .windows => { firewall with netsh := bestEffort runNetsh firewall.netsh netshRelease refused }
  | .linux _ =>
    { firewall with tables := bestEffort runIptables firewall.tables iptablesRelease refused }

def maxI64 : Int := 2 ^ 63 - 1

def maxReasonChars : Nat := 300

/- The state one call would record. -/
def recorded (attempt : Attempt) (reason : String) (durationSecs : Nat) (allowed : List IpAddr)
    (token : Option String) : IsolationState :=
  { isolatedAt := attempt.now
    releaseAt := if 0 < durationSecs then
      some (min (attempt.now + min (durationSecs : Int) maxI64) maxI64) else none
    reason := String.ofList (reason.toList.take maxReasonChars)
    allowed := allowed
    dnsServers := some attempt.resolvers
    pfToken := token }

def isolateHost (system : System) (attempt : Attempt) (reason : String) (durationSecs : Nat)
    (host : Host) : Host × Except IsolationError IsolationState :=
  match attempt.channel with
  | .error text => (host, .error (.refused text))
  | .ok allowed =>
    match applyRules system attempt allowed attempt.resolvers host.firewall with
    | (firewall, none) => ({ host with firewall := firewall }, .error .failed)
    | (firewall, some token) =>
      let state := recorded attempt reason durationSecs allowed token
      match attempt.stored with
      | .written => (⟨firewall, some state, true⟩, .ok state)
      | stored => ({ host with
          firewall := removeRules system (attempt.refused .removal) token firewall
          record := if stored = .damaged then none else host.record }, .error .cancelled)

/- What the host answers while the isolation is lifted. -/
structure Lift where
  refused : Nat → Bool
  unlinkFails : Bool

def releaseHost (system : System) (lift : Lift) (host : Host) :
    Host × Except IsolationError Unit :=
  let firewall := removeRules system lift.refused (host.record.bind (·.pfToken)) host.firewall
  if lift.unlinkFails then (⟨firewall, host.record, false⟩, .error .recordLeft)
  else (⟨firewall, none, false⟩, .ok ())

/- What a restart has to do about a recorded isolation. -/
inductive Reconcile where
  | release
  | reapply (remainingSecs : Option Nat)
  deriving DecidableEq

def reconcileAction (state : IsolationState) (now : Int) : Reconcile :=
  match state.releaseAt with
  | none => .reapply none
  | some releaseAt =>
    if releaseAt ≤ now then .release else .reapply (some (releaseAt - now).toNat)

/- What a start of the host leaves of the rules: those of pf and iptables go. -/
def reboot (system : System) (firewall : Firewall) : Firewall :=
  match system with
  | .macos => { firewall with anchor := [], tokens := [] }
  | .windows => firewall
  | .linux _ => { firewall with tables := fun ipv6 => .notIsolated (firewall.tables ipv6).own }

/- `reconcile_host_isolation`. -/
def reconcile (system : System) (attempt : Attempt) (lift : Lift) (host : Host) : Host :=
  match host.record with
  | none => host
  | some state =>
    match reconcileAction state attempt.now with
    | .release => (releaseHost system lift host).1
    | .reapply _ =>
      let dnsServers := state.dnsServers.getD attempt.resolvers
      match applyRules system attempt state.allowed dnsServers host.firewall with
      | (firewall, none) => { host with firewall := firewall }
      | (firewall, some token) =>
        { firewall := firewall
          isolated := true
          record := match attempt.stored with
            | .written => some { state with pfToken := token, dnsServers := some dnsServers }
            | .failed => host.record
            | .damaged => none }

/- The agent starts: its memory is empty, and after a reboot so are the rules. -/
def startUp (system : System) (rebooted : Bool) (attempt : Attempt) (lift : Lift) (host : Host) :
    Host :=
  let firewall := if rebooted then reboot system host.firewall else host.firewall
  reconcile system attempt lift { host with firewall := firewall, isolated := false }

end SentinelAgent.Isolation
