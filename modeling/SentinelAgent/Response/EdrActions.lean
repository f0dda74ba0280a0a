import SentinelAgent.Edr.ProcessIdentity
import SentinelAgent.Edr.Quarantine
import SentinelAgent.Response.AccountLocks
import SentinelAgent.Response.AddressBlocks
import SentinelAgent.Response.Allowlist
import SentinelAgent.Response.HostIsolation
import SentinelAgent.Response.Playbook

/-!
The response actions on the host: what each of them refuses, and what it does. Where the
agent has no rights of its own, the actions that need them are handed to its service. What
the host answers while an action runs is an argument of the call.
-/
namespace SentinelAgent.Response
open Files Text

/- What an event for the SIEM is about. -/
structure SiemRecord where
  severity : Nat
  name : String
  description : String
  deriving DecidableEq

/- What the agent changes on a host, starts there or tells of it. -/
structure Host where
  blocks : AddressBlocks.Agent
  locks : Accounts.Locks
  isolation : Isolation.Host
  files : Fs
  killed : List UInt32
  ran : List String
  sent : List SiemRecord
  notified : List (String × String)

/- What an agent is configured with. `readPath` reads the text of a path. -/
structure Setup where
  system : Accounts.System
  toLowercase : String → String
  readPath : String → FilePath
  format : Edr.MetaFormat
  store : Place
  cwd : Place
  commands : List (String × String)

structure HostAnswers where
  isAdmin : Bool
  unreachable : Option String
  ownPid : UInt32
  names : Option (List String)
  kill : Option String
  quarantine : Edr.QuarantineAnswers
  block : AddressBlocks.BlockAnswers
  ipv6 : Bool
  isolate : Isolation.Attempt
  lock : Accounts.DisableAnswers
  untrusted : String → Option String
  command : Option String

/- How an action ended; one that panicked has no result. -/
inductive Outcome where
  | done
  | failed (text : String)
  | panicked
  deriving DecidableEq

/- The errors of the actions are of one kind, which says so. -/
def internal (text : String) : String := "internal error: " ++ text

def isCommandName (name : String) : Bool :=
  !name.isEmpty && name.utf8ByteSize ≤ 64 &&
    name.toList.all fun c => c.isLower || c.isDigit || c == '-' || c == '_'

def isolationSystem (system : Accounts.System) (ipv6 : Bool) : Isolation.System :=
  match system with
  | .macos => .macos
  | .windows => .windows
  | _ => .linux ipv6

def isolationText : Isolation.IsolationError → String
  | .refused text => text
  | .failed => "Host isolation failed"
  | .cancelled => "Host isolation cancelled: its state could not be recorded"
  | .recordLeft => "Isolation rules removed, but its record could not be deleted"

section Actions
variable (setup : Setup) (answers : HostAnswers)

/- Why a process may not be killed. -/
def killRefusal (processName : String) (pid : UInt32) : Option String :=
  if pid = 0 ∨ pid = 1 then
    some s!"Anti-Draper protection: PID {pid} is reserved and cannot be terminated"
  else if pid = answers.ownPid then
    some "Anti-Draper protection: Cannot terminate the Sentinel Agent process"
  else
    match Edr.confirmProcessIdentity setup.toLowercase processName pid answers.names with
    | .error text => some text
    | .ok () => none

def killProcess (processName : String) (pid : UInt32) (host : Host) : Host × Outcome :=
  match killRefusal setup answers processName pid with
  | some text => (host, .failed (internal text))
  | none =>
    match answers.kill with
    | some text => (host, .failed (internal text))
    | none => ({ host with killed := host.killed ++ [pid] }, .done)

def quarantineFile (path : String) (host : Host) : Host × Outcome :=
  let (files, result) := Edr.quarantineFile setup.format setup.store setup.cwd answers.quarantine
    (setup.readPath path) host.files
  ({ host with files := files }, match result with
    | .ok _ => .done
    | .error text => .failed (internal text))

/- Through the service: its error comes back as a text, and of a panic nothing does. -/
def delegate (action : Host → Host × Outcome) (host : Host) : Host × Outcome :=
  if answers.isAdmin then action host
  else
    match answers.unreachable with
    | some text => (host, .failed (internal text))
    | none =>
      match action host with
      | (host, .failed text) => (host, .failed (internal text))
      | (host, .panicked) => (host, .failed (internal "Unreadable service answer"))
      | (host, .done) => (host, .done)

def blockIp (ip : String) (durationSecs : Nat) (host : Host) : Host × Outcome :=
  delegate answers (fun host =>
    match AddressBlocks.blockIp parseIpAddr ip durationSecs answers.block host.blocks with
    | (blocks, .ok ()) => ({ host with blocks := blocks }, .done)
    | (blocks, .error (.failed text)) => ({ host with blocks := blocks }, .failed (internal text))
    | (blocks, .error .overflow) => ({ host with blocks := blocks }, .panicked)) host

def isolateHost (reason : String) (durationSecs : Nat) (host : Host) : Host × Outcome :=
  delegate answers (fun host =>
    match Isolation.isolateHost (isolationSystem setup.system answers.ipv6) answers.isolate reason
        durationSecs host.isolation with
    | (isolation, .ok _) => ({ host with isolation := isolation }, .done)
    | (isolation, .error e) =>
      ({ host with isolation := isolation }, .failed (internal (isolationText e)))) host

def disableAccount (user : String) (durationSecs : Nat) (host : Host) : Host × Outcome :=
  delegate answers (fun host =>
    match Accounts.disableAccount setup.system user durationSecs answers.lock host.locks with
    | (locks, .ok ()) => ({ host with locks := locks }, .done)
    | (locks, .error text) => ({ host with locks := locks }, .failed (internal text))) host

/- The program a response command stands for, or why none may be run. -/
def commandProgram (name : String) : Except String String :=
  match setup.commands.lookup name with
  | none => .error ("no response command named '" ++ name ++
      "' is declared in the agent's configuration")
  | some program =>
    match answers.untrusted program with
    | some reason =>
      .error ("response command '" ++ name ++ "': the program " ++ program ++ " " ++ reason)
    | none => .ok program

def runResponseCommand (name : String) (host : Host) : Host × Outcome :=
  match commandProgram setup answers name with
  | .error text => (host, .failed (internal text))
  | .ok program =>
    match answers.command with
    | some text => ({ host with ran := host.ran ++ [program] }, .failed (internal text))
    | none => ({ host with ran := host.ran ++ [program] }, .done)

/- Where the agent acts itself, or its service does. -/
def served : Bool := answers.isAdmin || answers.unreachable.isNone

end Actions

/- Why an action is turned away for safety: it is on what is protected, or there is no
   way to do it here. -/
inductive Refusal where
  | invalidTarget (reason : String)
  | limit
  | protectedTarget (reason : String)
  | unsupported (reason : String)
  deriving DecidableEq

section Refused
variable (setup : Setup) (answers : HostAnswers)

def quarantineRefusal (path : String) (files : Fs) : Option Refusal :=
  match files.canonicalize setup.cwd (setup.readPath path) with
  | none => none
  | some source =>
    if Edr.isProtectedTarget source
        (Edr.protectedPaths setup.store answers.quarantine.others files) then
      some (.protectedTarget ("Anti-Draper protection: refusing to quarantine protected path: " ++
        source.text))
    else if answers.quarantine.inspectFails then none
    else
      match files.node source with
      | some (.file _) => none
      | _ => some (.unsupported ("Refusing to quarantine '" ++ source.text ++
          "': not a regular file"))

def blockRefusal (ip : String) : Option Refusal :=
  match AddressBlocks.checkBlock parseIpAddr ip answers.block with
  | .error text => some (.protectedTarget text)
  | .ok _ => none

def isolateRefusal : Option Refusal :=
  match answers.isolate.channel with
  | .error text => some (.protectedTarget text)
  | .ok _ => none

def lockRefusal (user : String) : Option Refusal :=
  let lock := answers.lock.lock
  if lock.inventory.users.isEmpty then none
  else
    match Accounts.refusal setup.system lock.inventory user lock.own lock.console with
    | some reason => some (.protectedTarget s!"Refusing to lock: {reason}")
    | none =>
      if Accounts.isLocked setup.system user lock then none
      else if (Accounts.lockCommand setup.system user true).isNone then
        some (.unsupported "locking an account is not supported here")
      else none

def commandRefusal (name : String) : Option Refusal :=
  match commandProgram setup answers name with
  | .error text => some (.unsupported text)
  | .ok _ => none

/- What the host itself turns away of an action it is asked for. -/
def edrRefusal (action : ResolvedAction) (host : Host) : Option Refusal :=
  match action with
  | .killProcess name pid => (killRefusal setup answers name pid).map .protectedTarget
  | .quarantineFile path => quarantineRefusal setup answers path host.files
  | .blockIp ip _ => if served answers then blockRefusal answers ip else none
  | .isolateHost _ => if served answers then isolateRefusal answers else none
  | .disableAccount user _ => if served answers then lockRefusal setup answers user else none
  | .runCommand name _ => commandRefusal setup answers name
  | _ => none

/- A block whose end is past the last second there is. -/
def Overflows (action : ResolvedAction) (host : Host) : Prop :=
  match action with
  | .blockIp ip durationSecs => answers.isAdmin = true ∧
      (∃ address, AddressBlocks.checkBlock parseIpAddr ip answers.block = .ok address) ∧
      answers.block.firewall = .done ∧ 0 < durationSecs ∧
      AddressBlocks.unblockAt host.blocks.board.now durationSecs = none
  | _ => False

end Refused

section Consistent
variable {setup : Setup} {answers : HostAnswers} {host : Host} {r : Refusal}

/- An action that is refused fails, and leaves the host as it is. -/
def Fails (result : Host × Outcome) (host : Host) : Prop :=
  ∃ text, result = (host, .failed text)

theorem delegate_fails {action : Host → Host × Outcome} (acts : served answers = true)
    (fails : Fails (action host) host) : Fails (delegate answers action host) host := by
  obtain ⟨text, same⟩ := fails
  rw [delegate]
  split
  · exact ⟨text, same⟩
  · rename_i unprivileged
    have reached : answers.unreachable = none := by
      simpa [served, unprivileged] using acts
    simp only [reached, same]
    exact ⟨_, rfl⟩

theorem kill_fails {name : String} {pid : UInt32}
    (refused : (killRefusal setup answers name pid).map Refusal.protectedTarget = some r) :
    Fails (killProcess setup answers name pid host) host := by
  rw [Option.map_eq_some_iff] at refused
  obtain ⟨text, its, _⟩ := refused
  rw [killProcess, its]
  exact ⟨_, rfl⟩

theorem quarantine_fails {path : String}
    (refused : quarantineRefusal setup answers path host.files = some r) :
    Fails (quarantineFile setup answers path host) host := by
  have checked : ∃ text, Edr.quarantineCheck setup.store setup.cwd answers.quarantine
      (setup.readPath path) host.files = .error text := by
    unfold quarantineRefusal at refused
    unfold Edr.quarantineCheck
    cases found : host.files.canonicalize setup.cwd (setup.readPath path) with
    | none => exact ⟨_, rfl⟩
    | some source =>
      simp only [found] at refused ⊢
      split
      · exact ⟨_, rfl⟩
      · rename_i free
        rw [if_neg free] at refused
        split
        · exact ⟨_, rfl⟩
        · rename_i inspected
          rw [if_neg inspected] at refused
          split
          · rename_i content regular
            simp [regular] at refused
          · exact ⟨_, rfl⟩
  obtain ⟨text, its⟩ := checked
  rw [quarantineFile, Edr.quarantineFile, its]
  exact ⟨_, rfl⟩

theorem block_fails {ip : String} {durationSecs : Nat} (acts : served answers = true)
    (refused : blockRefusal answers ip = some r) :
    Fails (blockIp answers ip durationSecs host) host := by
  refine delegate_fails acts ?_
  obtain ⟨text, its⟩ : ∃ text,
      AddressBlocks.checkBlock parseIpAddr ip answers.block = .error text := by
    rw [blockRefusal] at refused
    split at refused
    · exact ⟨_, ‹_›⟩
    · cases refused
  rw [AddressBlocks.blockIp, its]
  exact ⟨_, rfl⟩

theorem isolate_fails {reason : String} {durationSecs : Nat} (acts : served answers = true)
    (refused : isolateRefusal answers = some r) :
    Fails (isolateHost setup answers reason durationSecs host) host := by
  refine delegate_fails acts ?_
  obtain ⟨text, its⟩ : ∃ text, answers.isolate.channel = .error text := by
    rw [isolateRefusal] at refused
    split at refused
    · exact ⟨_, ‹_›⟩
    · cases refused
  rw [Isolation.isolateHost, its]
  exact ⟨_, rfl⟩

theorem lock_fails {user : String} {durationSecs : Nat} (acts : served answers = true)
    (refused : lockRefusal setup answers user = some r) :
    Fails (disableAccount setup answers user durationSecs host) host := by
  refine delegate_fails acts ?_
  have not_locked : ∃ text, Accounts.lockAccount setup.system user answers.lock.lock =
      .error text := by
    rw [lockRefusal] at refused
    rw [Accounts.lockAccount]
    by_cases unlisted : answers.lock.lock.inventory.users.isEmpty = true
    · rw [if_pos unlisted] at refused
      cases refused
    rw [if_neg unlisted] at refused ⊢
    cases its : Accounts.refusal setup.system answers.lock.lock.inventory user
        answers.lock.lock.own answers.lock.lock.console with
    | some reason => exact ⟨_, rfl⟩
    | none =>
      rw [its] at refused
      by_cases locked : Accounts.isLocked setup.system user answers.lock.lock = true
      · simp [locked] at refused
      · simp only [if_neg locked] at refused ⊢
        cases command : Accounts.lockCommand setup.system user true with
        | none => exact ⟨_, rfl⟩
        | some _ => simp [command] at refused
  obtain ⟨text, its⟩ := not_locked
  rw [Accounts.disableAccount, its]
  exact ⟨_, rfl⟩

theorem command_fails {name : String} (refused : commandRefusal setup answers name = some r) :
    Fails (runResponseCommand setup answers name host) host := by
  rw [commandRefusal] at refused
  rw [runResponseCommand]
  split at refused
  · exact ⟨_, rfl⟩
  · cases refused

/- Nothing but a block panics, and only where its end cannot be counted. -/
theorem delegate_panics {action : Host → Host × Outcome} :
    (delegate answers action host).2 = .panicked ↔
      answers.isAdmin = true ∧ (action host).2 = .panicked := by
  rw [delegate]
  split
  · rename_i admin
    simp [admin]
  · rename_i unprivileged
    simp only [unprivileged, Bool.false_eq_true, false_and, iff_false]
    split
    · simp
    · split <;> simp

theorem block_panics {ip : String} {durationSecs : Nat} :
    (blockIp answers ip durationSecs host).2 = .panicked ↔
      Overflows answers (.blockIp ip durationSecs) host := by
  rw [blockIp, delegate_panics, Overflows, AddressBlocks.blockIp]
  refine and_congr_right fun _ => ?_
  cases AddressBlocks.checkBlock parseIpAddr ip answers.block with
  | error text => simp
  | ok address =>
    cases answers.block.firewall with
    | failed text still => simp
    | done =>
      by_cases timed : 0 < durationSecs
      · simp only [timed, AddressBlocks.Agent.block]
        cases AddressBlocks.unblockAt host.blocks.board.now durationSecs with
        | none => simp
        | some time => simp
      · simp [timed]

end Consistent

end SentinelAgent.Response
