import SentinelAgent.Library.Text

/- The local accounts: what the inventory says of them, which of them may be locked,
   and with which commands. -/
namespace SentinelAgent.Accounts
open Text

inductive System where
  | linux | macos | windows | other
  deriving DecidableEq

structure UserAccount where
  name : String
  id : String
  groupId : Option String
  home : Option String
  shell : Option String
  canLogIn : Bool
  deriving DecidableEq

def UserAccount.isRootEquivalent (u : UserAccount) : Bool := u.id == "0"

structure GroupEntry where
  name : String
  id : Option String
  members : List String
  deriving DecidableEq

/- The part of the inventory that is about accounts. -/
structure SystemInventory where
  users : List UserAccount
  groups : List GroupEntry
  deriving DecidableEq

def adminGroups : List String := ["sudo", "wheel", "admin", "administrators", "administrateurs"]

def isAccountName (name : String) : Bool :=
  !name.isEmpty && name.utf8ByteSize ≤ 64 && !startsWith name '-' &&
    name.toList.all fun c => c.isAlphanum || c == '.' || c == '_' || c == '-'

/- Whether two names are those of one account. -/
def same (system : System) (a b : String) : Bool :=
  if system = .linux then a == b else eqIgnoreAsciiCase a b

/- The account a name stands for. -/
def account (system : System) (name : String) : String :=
  if system = .linux then name else toAsciiLowercase name

theorem same_iff {system : System} {a b : String} :
    same system a b = true ↔ account system a = account system b := by
  rw [same, account, account]
  split
  · exact beq_iff_eq
  · exact beq_iff_eq

section Refusal
variable (system : System) (inventory : SystemInventory) (user : String)

def builtin (account : UserAccount) : Bool :=
  ["root", "administrator", "administrateur"].any (eqIgnoreAsciiCase user) ||
    account.isRootEquivalent || (system = .windows && account.id.endsWith "-500")

def firstOrdinary : Nat := if system = .macos then 500 else 1000

def isSystem (account : UserAccount) : Bool :=
  startsWith user '_' ||
    (system ≠ .windows && (parseUnsigned 64 account.id).any (· < firstOrdinary system))

def counts (member : String) (u : UserAccount) : Bool :=
  same system u.name member && u.canLogIn && !u.isRootEquivalent

/- The members of the administrators' groups that the refusal counts. -/
def administrators : List String :=
  ((inventory.groups.filter fun group => adminGroups.contains (toAsciiLowercase group.name)).flatMap
    (·.members)).map (afterLast '\\') |>.filter fun member =>
      inventory.users.any (counts system member)

def others : List String :=
  (administrators system inventory).filter fun member => !same system member user

def isAdministrator : Bool := (administrators system inventory).any (same system · user)

def refusal (own console : Option String) : Option String :=
  if !isAccountName user then some s!"'{user}' is not an account name"
  else
    match inventory.users.find? fun u => same system u.name user with
    | none => some s!"no local account is named '{user}'"
    | some account =>
      if builtin system user account then some s!"'{user}' is the administrator account of the system"
      else if isSystem system user account then some s!"'{user}' is a system account"
      else if own.any (same system · user) then some s!"'{user}' is the account the agent runs as"
      else if console.any (same system · user) then
        some s!"'{user}' is the account using this machine now"
      else if isAdministrator system inventory user && (others system inventory user).isEmpty then
        some s!"'{user}' is the last account that can administer this machine"
      else none

end Refusal

/- An administrator is not refused only where another one is counted. -/
theorem others_counted {system : System} {inventory : SystemInventory} {user : String}
    {own console : Option String} (allowed : refusal system inventory user own console = none)
    (administrator : isAdministrator system inventory user = true) :
    others system inventory user ≠ [] := by
  intro none_left
  rw [refusal, administrator, none_left] at allowed
  split at allowed
  · cases allowed
  · split at allowed
    · cases allowed
    · simp only [List.isEmpty_nil, Bool.and_self, if_true] at allowed
      split_ifs at allowed

def lockCommand (system : System) (user : String) (lock : Bool) : Option (List String) :=
  match system, lock with
  | .linux, true => some ["usermod", "--lock", "--expiredate", "1", user]
  | .linux, false => some ["usermod", "--unlock", "--expiredate", "", user]
  | .macos, true => some ["/usr/bin/dscl", ".", "-append", "/Users/" ++ user,
      "AuthenticationAuthority", ";DisabledUser;"]
  | .macos, false => some ["/usr/bin/dscl", ".", "-delete", "/Users/" ++ user,
      "AuthenticationAuthority", ";DisabledUser;"]
  | .windows, true => some ["net", "user", user, "/active:no"]
  | .windows, false => some ["net", "user", user, "/active:yes"]
  | .other, _ => none

def saysLocked (system : System) (output : String) : Bool :=
  match system with
  | .linux => ((words output)[1]?).any (startsWith · 'L')
  | .macos => contains output ";DisabledUser;"
  | _ => false

/- What the tools of the system answer while an account is locked: the inventory, the
   two accounts in use, what is said of the lock, the lock itself. -/
structure LockAnswers where
  inventory : SystemInventory
  own : Option String
  console : Option String
  said : Option String
  lock : Except String Unit

def isLocked (system : System) (user : String) (answers : LockAnswers) : Bool :=
  match system with
  | .linux => answers.said.any (saysLocked system)
  | .macos => answers.said.any (saysLocked system)
  | _ => answers.inventory.users.any fun u => eqIgnoreAsciiCase u.name user && !u.canLogIn

/- `disable_account` up to the lock: whether the account was locked now. The sessions
   it ends are not part of the model. -/
def lockAccount (system : System) (user : String) (answers : LockAnswers) : Except String Bool :=
  if answers.inventory.users.isEmpty then
    .error "accounts could not be listed: nothing is locked without knowing them"
  else
    match refusal system answers.inventory user answers.own answers.console with
    | some reason => .error s!"Refusing to lock: {reason}"
    | none =>
      if isLocked system user answers then .ok false
      else
        match lockCommand system user true with
        | none => .error "locking an account is not supported here"
        | some _ => answers.lock.map fun _ => true

theorem locked_allowed {system : System} {user : String} {answers : LockAnswers}
    (locked : lockAccount system user answers = .ok true) :
    refusal system answers.inventory user answers.own answers.console = none := by
  rw [lockAccount] at locked
  split at locked
  · cases locked
  · split at locked
    · cases locked
    · rename_i allowed
      exact allowed

/- Reading the inventory. -/
def noLoginShells : List String := ["nologin", "false", "sync", "halt", "shutdown"]

def canLogIn (shell : Option String) : Bool :=
  shell.any fun shell => trim shell != "" && !noLoginShells.contains (afterLast '/' shell)

def maxEntries : Nat := 5000

def field (fields : List String) (index : Nat) : Option String :=
  (fields[index]?.map trim).filter (· != "")

def passwdLine (line : String) : Option UserAccount :=
  let fields := split ':' line
  match field fields 0, field fields 2 with
  | some name, some id => some
    { name, id, groupId := field fields 3, home := field fields 5, shell := field fields 6,
      canLogIn := canLogIn (field fields 6) }
  | _, _ => none

def entryLines (content : String) : List String :=
  (lines content).filter fun line => !startsWith line '#' && !startsWith line '+'

def parsePasswd (content : String) : List UserAccount :=
  ((entryLines content).filterMap passwdLine).take maxEntries

def groupLine (line : String) : Option GroupEntry :=
  let fields := split ':' line
  (field fields 0).map fun name =>
    { name, id := field fields 2,
      members := ((fields[3]?.map (split ',')).getD []).map trim |>.filter (· != "") }

def parseGroup (content : String) : List GroupEntry :=
  ((entryLines content).filterMap groupLine).take maxEntries

end SentinelAgent.Accounts
