import Mathlib.Data.List.Sort
import SentinelAgent.Library.Runs
import SentinelAgent.Response.Accounts

/- Accounts locked one after the other, each with the inventory collected again. The
   accounts of the host are as its files list them; which of them are locked the files
   of Linux and macOS do not say. -/
namespace SentinelAgent.Accounts

structure Host where
  accounts : List UserAccount
  groups : List GroupEntry
  locked : List String
  deriving DecidableEq

def lockedNow (system : System) (host : Host) (name : String) : Bool :=
  host.locked.any (same system · name)

/- An account as the inventory lists it. -/
def listed (system : System) (host : Host) (u : UserAccount) : UserAccount :=
  { u with canLogIn :=
      if system = .windows then !lockedNow system host u.name else canLogIn u.shell }

def collect (system : System) (host : Host) : SystemInventory where
  users := (host.accounts.map (listed system host)).insertionSort fun a b => a.name ≤ b.name
  groups := host.groups.insertionSort fun a b => a.name ≤ b.name

/- A host that reads as these two files do. -/
def linuxHost (passwd group : String) : Host := ⟨parsePasswd passwd, parseGroup group, []⟩

structure DisableCall where
  user : String
  own : Option String
  console : Option String
  said : Option String
  lock : Except String Unit

def DisableCall.answers (call : DisableCall) (inventory : SystemInventory) : LockAnswers :=
  ⟨inventory, call.own, call.console, call.said, call.lock⟩

def callStep (system : System) (host : Host) (call : DisableCall) : Host :=
  match lockAccount system call.user (call.answers (collect system host)) with
  | .ok true => { host with locked := call.user :: host.locked }
  | _ => host

def InAdminGroup (system : System) (host : Host) (u : UserAccount) : Prop :=
  ∃ group ∈ host.groups, adminGroups.contains (Text.toAsciiLowercase group.name) = true ∧
    ∃ member ∈ group.members, same system u.name (Text.afterLast '\\' member) = true

/- An administrator other than root who has a login shell, locked or not. -/
structure Administers (system : System) (host : Host) (u : UserAccount) : Prop where
  account : u ∈ host.accounts
  group : InAdminGroup system host u
  shell : system = .windows ∨ canLogIn u.shell = true
  ordinary : u.isRootEquivalent = false

def Remaining (system : System) (host : Host) : Prop :=
  ∃ u, Administers system host u ∧ lockedNow system host u.name = false

/- A user the refusal counts as one of the other administrators. -/
def Counted (system : System) (host : Host) (user : String) (u : UserAccount) : Prop :=
  u ∈ host.accounts ∧ ∃ member ∈ others system (collect system host) user,
    counts system member (listed system host u) = true

/- A call that locks an administrator who was not: of the others it counted, one is not
   locked already. -/
def CountsRight (system : System) (host : Host) (call : DisableCall) : Prop :=
  lockAccount system call.user (call.answers (collect system host)) = .ok true →
    isAdministrator system (collect system host) call.user = true →
      lockedNow system host call.user = false →
        ∃ u, Counted system host call.user u ∧ lockedNow system host u.name = false

section Names
variable {system : System} {a b c : String}

theorem same_symm (first : same system a b = true) : same system b a = true :=
  same_iff.mpr (same_iff.mp first).symm

theorem same_trans (first : same system a b = true) (second : same system b c = true) :
    same system a c = true :=
  same_iff.mpr ((same_iff.mp first).trans (same_iff.mp second))

theorem lockedNow_same {host : Host} (names : same system a b = true) :
    lockedNow system host a = lockedNow system host b := by
  have each : (same system · a) = (same system · b) := by
    funext name
    rw [Bool.eq_iff_iff]
    constructor
    · exact fun its => same_trans its names
    · exact fun its => same_trans its (same_symm names)
  rw [lockedNow, lockedNow, each]

end Names

section Counting
variable {system : System} {host : Host} {user : String}

theorem mem_administrators {member : String} :
    member ∈ administrators system (collect system host) ↔
      (∃ group ∈ host.groups, adminGroups.contains (Text.toAsciiLowercase group.name) = true ∧
        ∃ written ∈ group.members, Text.afterLast '\\' written = member) ∧
      ∃ u ∈ host.accounts, counts system member (listed system host u) = true := by
  simp only [administrators, collect, List.mem_filter, List.mem_map, List.mem_flatMap,
    List.mem_insertionSort, List.any_eq_true]
  constructor
  · rintro ⟨⟨written, ⟨group, ⟨among, admin⟩, within⟩, part⟩, _, ⟨u, account, rfl⟩, counted⟩
    exact ⟨⟨group, among, admin, written, within, part⟩, u, account, counted⟩
  · rintro ⟨⟨group, among, admin, written, within, part⟩, u, account, counted⟩
    exact ⟨⟨written, ⟨group, ⟨among, admin⟩, within⟩, part⟩, _, ⟨u, account, rfl⟩, counted⟩

/- Who is counted has a login shell and is in an administrators' group. -/
theorem counts_iff {member : String} {u : UserAccount} :
    counts system member (listed system host u) = true ↔
      same system u.name member = true ∧
        (if system = .windows then lockedNow system host u.name = false
          else canLogIn u.shell = true) ∧ u.isRootEquivalent = false := by
  simp only [counts, listed, UserAccount.isRootEquivalent, Bool.and_eq_true, Bool.not_eq_true',
    and_assoc]
  split <;> simp

theorem counted_administers {member : String} {u : UserAccount} (account : u ∈ host.accounts)
    (among : member ∈ administrators system (collect system host))
    (counted : counts system member (listed system host u) = true) :
    Administers system host u := by
  obtain ⟨name, shell, ordinary⟩ := counts_iff.mp counted
  obtain ⟨⟨group, within, admin, written, is_member, part⟩, _⟩ := mem_administrators.mp among
  refine ⟨account, ⟨group, within, admin, written, is_member, by rwa [part]⟩, ?_, ordinary⟩
  split at shell
  · rename_i windows
    exact Or.inl windows
  · exact Or.inr shell

/- A free administrator is counted. -/
theorem administers_counted {u : UserAccount} (administers : Administers system host u)
    (free : lockedNow system host u.name = false) :
    ∃ member ∈ administrators system (collect system host),
      counts system member (listed system host u) = true := by
  obtain ⟨account, ⟨group, within, admin, written, is_member, name⟩, shell, ordinary⟩ :=
    administers
  have counted : counts system (Text.afterLast '\\' written) (listed system host u) = true := by
    refine counts_iff.mpr ⟨name, ?_, ordinary⟩
    split
    · exact free
    · rename_i other
      exact shell.resolve_left other
  exact ⟨_, mem_administrators.mpr ⟨⟨group, within, admin, written, is_member, rfl⟩, u, account,
    counted⟩, counted⟩

theorem mem_others {member : String} : member ∈ others system (collect system host) user ↔
    member ∈ administrators system (collect system host) ∧ same system member user = false := by
  rw [others, List.mem_filter, Bool.not_eq_true']

end Counting

section Calls
variable {system : System} {host : Host} {call : DisableCall}

theorem callStep_locked
    (locks : lockAccount system call.user (call.answers (collect system host)) = .ok true) :
    callStep system host call = { host with locked := call.user :: host.locked } := by
  rw [callStep, locks]

theorem callStep_refused
    (refused : lockAccount system call.user (call.answers (collect system host)) ≠ .ok true) :
    callStep system host call = host := by
  rw [callStep]
  split
  · rename_i locks
    exact absurd locks refused
  · rfl

theorem remaining_locked_iff {user : String} :
    Remaining system { host with locked := user :: host.locked } ↔
      ∃ u, Administers system host u ∧ same system user u.name = false ∧
        lockedNow system host u.name = false := by
  have locked (name : String) : lockedNow system { host with locked := user :: host.locked } name =
      (same system user name || lockedNow system host name) := rfl
  have administers (u : UserAccount) :
      Administers system { host with locked := user :: host.locked } u ↔
        Administers system host u := by
    constructor
    · exact fun its => ⟨its.account, its.group, its.shell, its.ordinary⟩
    · exact fun its => ⟨its.account, its.group, its.shell, its.ordinary⟩
  simp only [Remaining, locked, administers, Bool.or_eq_false_iff]

/- One call leaves an administrator, if there was one, exactly if it counts right. -/
theorem call_keeps_iff :
    (Remaining system host → Remaining system (callStep system host call)) ↔
      CountsRight system host call := by
  by_cases locks : lockAccount system call.user (call.answers (collect system host)) = .ok true
  · rw [callStep_locked locks, remaining_locked_iff]
    constructor
    · intro keeps _ administrator free
      obtain ⟨member, among, its⟩ := List.any_eq_true.mp administrator
      obtain ⟨_, u, account, counted⟩ := mem_administrators.mp among
      have name : same system u.name call.user = true :=
        same_trans (counts_iff.mp counted).1 its
      have first : Remaining system host :=
        ⟨u, counted_administers account among counted, by rwa [lockedNow_same name]⟩
      obtain ⟨w, administers, other, w_free⟩ := keeps first
      obtain ⟨member', among', counted'⟩ := administers_counted administers w_free
      refine ⟨w, ⟨administers.account, member', mem_others.mpr ⟨among', ?_⟩, counted'⟩, w_free⟩
      by_contra its'
      have back : same system call.user w.name = true :=
        same_symm (same_trans (counts_iff.mp counted').1 (by simpa using its'))
      rw [back] at other
      cases other
    · rintro right ⟨w, administers, free⟩
      by_cases its : same system call.user w.name = true
      · obtain ⟨member, among, counted⟩ := administers_counted administers free
        have member_is : same system member call.user = true :=
          same_trans (same_symm (counts_iff.mp counted).1) (same_symm its)
        have administrator : isAdministrator system (collect system host) call.user = true :=
          List.any_eq_true.mpr ⟨member, among, member_is⟩
        have user_free : lockedNow system host call.user = false := by
          rwa [lockedNow_same its]
        obtain ⟨u, ⟨account, member', among', counted'⟩, u_free⟩ :=
          right locks administrator user_free
        obtain ⟨among', other⟩ := mem_others.mp among'
        refine ⟨u, counted_administers account among' counted', ?_, u_free⟩
        by_contra its'
        have back : same system member' call.user = true :=
          same_trans (same_symm (counts_iff.mp counted').1) (same_symm (by simpa using its'))
        rw [back] at other
        cases other
      · exact ⟨w, administers, by simpa using its, free⟩
  · rw [callStep_refused locks]
    constructor
    · exact fun _ locked => absurd locked locks
    · exact fun _ remaining => remaining

theorem remaining_before (remaining : Remaining system (callStep system host call)) :
    Remaining system host := by
  by_cases locks : lockAccount system call.user (call.answers (collect system host)) = .ok true
  · rw [callStep_locked locks, remaining_locked_iff] at remaining
    obtain ⟨u, administers, _, free⟩ := remaining
    exact ⟨u, administers, free⟩
  · rwa [callStep_refused locks] at remaining

theorem run_accounts (system : System) (host : Host) (calls : List DisableCall) :
    (Runs.run (callStep system) host calls).accounts = host.accounts := by
  refine Runs.run_invariant (I := fun after : Host => after.accounts = host.accounts) ?_ rfl calls
  intro after call same
  by_cases locks : lockAccount system call.user (call.answers (collect system after)) = .ok true
  · rwa [callStep_locked locks]
  · rwa [callStep_refused locks]

/- Windows lists a locked account as one that cannot log in. -/
theorem windows_counts_right : CountsRight .windows host call := by
  intro locks administrator _
  have left := others_counted (locked_allowed locks) administrator
  obtain ⟨member, among⟩ := List.exists_mem_of_ne_nil _ left
  obtain ⟨_, u, account, counted⟩ := mem_administrators.mp (mem_others.mp among).1
  obtain ⟨_, free, _⟩ := counts_iff.mp counted
  exact ⟨u, ⟨account, member, among, counted⟩, by simpa using free⟩

end Calls

theorem remaining_before_run {system : System} {host : Host} {calls : List DisableCall}
    (remaining : Remaining system (Runs.run (callStep system) host calls)) :
    Remaining system host := by
  induction calls generalizing host with
  | nil => exact remaining
  | cons call calls ih => exact remaining_before (ih remaining)

/- Two administrators, both with a shell. -/
def twoAdministrators : Host := linuxHost
  ("root:x:0:0:root:/root:/bin/bash\nalice:x:1000:1000::/home/alice:/bin/bash\n" ++
    "bob:x:1001:1001::/home/bob:/bin/bash\n")
  "root:x:0:\nsudo:x:27:alice,bob\n"

theorem twoAdministrators_read : twoAdministrators =
    ⟨[⟨"root", "0", some "0", some "/root", some "/bin/bash", true⟩,
      ⟨"alice", "1000", some "1000", some "/home/alice", some "/bin/bash", true⟩,
      ⟨"bob", "1001", some "1001", some "/home/bob", some "/bin/bash", true⟩],
      [⟨"root", some "0", []⟩, ⟨"sudo", some "27", ["alice", "bob"]⟩], []⟩ := by
  decide +kernel

def lockCall (user : String) : DisableCall := ⟨user, none, none, some (user ++ " P"), .ok ()⟩

theorem both_locked :
    (Runs.run (callStep .linux) twoAdministrators [lockCall "bob", lockCall "alice"]).locked =
      ["alice", "bob"] := by
  rw [twoAdministrators_read]
  decide

end SentinelAgent.Accounts
