import SentinelAgent.Library.Ordered
import SentinelAgent.Response.Accounts

/- What the machine holds, and what differs from one inventory of it to the next. -/
namespace SentinelAgent.Inventory
open Text Ordered
open Accounts (UserAccount GroupEntry)

structure ServiceEntry where
  name : String
  state : String
  command : Option String
  deriving DecidableEq

structure ListeningPort where
  protocol : String
  address : String
  port : Nat
  process : Option String
  deriving DecidableEq

/- What identifies the listener across restarts. -/
def ListeningPort.key (p : ListeningPort) : String :=
  let process := p.process.getD "?"
  s!"{p.protocol}/{p.port}/{process}"

structure Hotfix where
  id : String
  description : Option String
  installedOn : Option String
  deriving DecidableEq

structure SystemDescription where
  hostname : Option String
  osName : Option String
  osVersion : Option String
  kernel : Option String
  architecture : Option String
  manufacturer : Option String
  model : Option String
  serialNumber : Option String
  processor : Option String
  cores : Option Nat
  threads : Option Nat
  memoryBytes : Option Nat
  bootedAt : Option Int
  deriving DecidableEq

inductive SystemField where
  | hostname | operatingSystem | kernel | hardware | serialNumber | processor | memory
  deriving DecidableEq

def SystemField.all : List SystemField :=
  [.hostname, .operatingSystem, .kernel, .hardware, .serialNumber, .processor, .memory]

def SystemDescription.osLabel (s : SystemDescription) : Option String :=
  match s.osName, s.osVersion with
  | some name, some version =>
    if contains name version then some name else some s!"{name} {version}"
  | some name, none => some name
  | none, version => version

/- In whole GiB. -/
def memoryLabel (bytes : Nat) : String :=
  s!"{(bytes + 536870912) % 18446744073709551616 / 1073741824} Gio"

def SystemDescription.value (s : SystemDescription) (field : SystemField) : Option String :=
  match field with
  | .hostname => s.hostname
  | .operatingSystem => s.osLabel
  | .kernel => s.kernel
  | .hardware =>
    match s.manufacturer, s.model with
    | some manufacturer, some model => some s!"{manufacturer} {model}"
    | manufacturer, model => model <|> manufacturer
  | .serialNumber => s.serialNumber
  | .processor => s.processor
  | .memory => s.memoryBytes.map memoryLabel

def SystemDescription.or (s other : SystemDescription) : SystemDescription where
  hostname := s.hostname <|> other.hostname
  osName := s.osName <|> other.osName
  osVersion := s.osVersion <|> other.osVersion
  kernel := s.kernel <|> other.kernel
  architecture := s.architecture <|> other.architecture
  manufacturer := s.manufacturer <|> other.manufacturer
  model := s.model <|> other.model
  serialNumber := s.serialNumber <|> other.serialNumber
  processor := s.processor <|> other.processor
  cores := s.cores <|> other.cores
  threads := s.threads <|> other.threads
  memoryBytes := s.memoryBytes <|> other.memoryBytes
  bootedAt := s.bootedAt <|> other.bootedAt

/- The accounts and groups, and what else is compared. The time of the collection and the
   containers are kept only. -/
structure SystemInventory extends Accounts.SystemInventory where
  system : Option SystemDescription
  services : List ServiceEntry
  listeningPorts : List ListeningPort
  hotfixes : List Hotfix
  deriving DecidableEq

inductive InventoryChange where
  | userAdded (user : UserAccount)
  | userRemoved (user : UserAccount)
  | userChanged (before after : UserAccount)
  | groupMemberAdded (group member : String)
  | groupMemberRemoved (group member : String)
  | serviceAdded (service : ServiceEntry)
  | serviceRemoved (service : ServiceEntry)
  | serviceChanged (before after : ServiceEntry)
  | portOpened (port : ListeningPort) (known : Bool)
  | portClosed (port : ListeningPort)
  | systemChanged (field : SystemField) (before after : String)
  | hotfixInstalled (hotfix : Hotfix)
  | hotfixRemoved (hotfix : Hotfix)
  deriving DecidableEq

def privilegedGroups : List String :=
  ["sudo", "wheel", "admin", "root", "adm", "docker", "lxd", "libvirt", "shadow", "disk",
    "administrators", "administrateurs"]

def isPrivilegedGroup (name : String) : Bool := privilegedGroups.contains (toAsciiLowercase name)

def systemChange (old new : SystemDescription) (field : SystemField) : Option InventoryChange :=
  match old.value field, new.value field with
  | some before, some after =>
    if before ≠ after then some (.systemChanged field before after) else none
  | _, _ => none

def userChange (previous user : UserAccount) : Option InventoryChange :=
  if previous.id ≠ user.id ∨ previous.shell ≠ user.shell then some (.userChanged previous user)
  else none

def serviceChange (previous service : ServiceEntry) : Option InventoryChange :=
  if previous ≠ service then some (.serviceChanged previous service) else none

abbrev Members := Std.TreeSet (String × String) (lexOrd : Ord (String × String)).compare

/- Who is in which group, as the group and the member. -/
def memberships (groups : List GroupEntry) : List (String × String) :=
  groups.flatMap fun group => group.members.map fun member => (group.name, member)

def members (groups : List GroupEntry) : Members := .ofList (memberships groups) _

section Diff
variable (before after : SystemInventory)

def systemChanges : List InventoryChange :=
  match before.system, after.system with
  | some old, some new => SystemField.all.filterMap (systemChange old new)
  | _, _ => []

def userChanges : List InventoryChange :=
  if before.users ≠ [] ∧ after.users ≠ [] then
    let old := collect UserAccount.name before.users
    let new := collect UserAccount.name after.users
    arrivals (fun _ user => .userAdded user) userChange old new ++
      departures .userRemoved old new
  else []

def groupChanges : List InventoryChange :=
  if before.groups ≠ [] ∧ after.groups ≠ [] then
    let old := members before.groups
    let new := members after.groups
    (new.toList.filter fun entry => !old.contains entry).map
        (fun entry => .groupMemberAdded entry.1 entry.2) ++
      (old.toList.filter fun entry => !new.contains entry).map
        (fun entry => .groupMemberRemoved entry.1 entry.2)
  else []

def serviceChanges : List InventoryChange :=
  if before.services ≠ [] ∧ after.services ≠ [] then
    let old := collect ServiceEntry.name before.services
    let new := collect ServiceEntry.name after.services
    arrivals (fun _ service => .serviceAdded service) serviceChange old new ++
      departures .serviceRemoved old new
  else []

def portChanges (knownPorts : Std.TreeMap String Int) : List InventoryChange :=
  if before.listeningPorts ≠ [] ∧ after.listeningPorts ≠ [] then
    let old := collect ListeningPort.key before.listeningPorts
    let new := collect ListeningPort.key after.listeningPorts
    arrivals (fun key port => .portOpened port (knownPorts.contains key)) (fun _ _ => none)
        old new ++
      departures .portClosed old new
  else []

def Hotfix.key (hotfix : Hotfix) : String := toAsciiUppercase hotfix.id

def hotfixChanges : List InventoryChange :=
  if before.hotfixes ≠ [] ∧ after.hotfixes ≠ [] then
    let old := collect Hotfix.key before.hotfixes
    let new := collect Hotfix.key after.hotfixes
    arrivals (fun _ hotfix => .hotfixInstalled hotfix) (fun _ _ => none) old new ++
      departures .hotfixRemoved old new
  else []

/- A list that one of the two could not collect is empty, and skipped. -/
def diff (knownPorts : Std.TreeMap String Int) : List InventoryChange :=
  systemChanges before after ++ userChanges before after ++ groupChanges before after ++
    serviceChanges before after ++ portChanges before after knownPorts ++
    hotfixChanges before after

end Diff

structure InventoryState where
  inventory : Option SystemInventory
  knownPorts : Std.TreeMap String Int

/- Seven days, in nanoseconds. -/
def portMemory : Int := 604800000000000

/- What was not collected keeps its previous value. -/
def carryOver (previous current : SystemInventory) : SystemInventory where
  users := if current.users = [] then previous.users else current.users
  groups := if current.groups = [] then previous.groups else current.groups
  services := if current.services = [] then previous.services else current.services
  listeningPorts :=
    if current.listeningPorts = [] then previous.listeningPorts else current.listeningPorts
  hotfixes := if current.hotfixes = [] then previous.hotfixes else current.hotfixes
  system :=
    match current.system, previous.system with
    | some system, some previous => some (system.or previous)
    | system, previous => system <|> previous

def InventoryState.update (state : InventoryState) (current : SystemInventory) (now : Int) :
    List InventoryChange × InventoryState :=
  let known := state.knownPorts.filter fun _ seen => decide (seen > now - portMemory)
  (match state.inventory with
    | some previous => diff previous current known
    | none => [],
   { knownPorts := current.listeningPorts.foldl (fun m port => m.insert port.key now) known
     inventory := some (match state.inventory with
      | some previous => carryOver previous current
      | none => current) })

end SentinelAgent.Inventory
