import Mathlib.Algebra.Group.Nat.Defs
import Mathlib.Logic.Function.Basic

/-!
The system inventory as the platform receives it. The parts are those of a snapshot, entries
already brought within the limits of the wire; times are in nanoseconds.
-/
namespace SentinelAgent.SystemInventory

inductive InventorySection where
  | system | users | groups | services | listeningPorts | hotfixes | containers
  deriving DecidableEq, Repr

def InventorySection.all : List InventorySection :=
  [.system, .users, .groups, .services, .listeningPorts, .hotfixes, .containers]

theorem InventorySection.mem_all (s : InventorySection) : s ∈ InventorySection.all := by
  cases s <;> decide

structure InventorySystemPayload where
  hostname : Option String
  osName : Option String
  osVersion : Option String
  kernel : Option String
  architecture : Option String
  manufacturer : Option String
  model : Option String
  serialNumber : Option String
  processor : Option String
  cores : Option Nat
  threads : Option Nat
  memoryBytes : Option Nat
  bootedAt : Option Int
  deriving DecidableEq, Repr

structure InventoryUserPayload where
  name : String
  id : String
  groupId : Option String
  home : Option String
  shell : Option String
  canLogIn : Bool
  privileged : Bool
  deriving DecidableEq, Repr

structure InventoryGroupPayload where
  name : String
  id : Option String
  members : List String
  membersTotal : Nat
  privileged : Bool
  deriving DecidableEq, Repr

structure InventoryServicePayload where
  name : String
  state : String
  command : Option String
  deriving DecidableEq, Repr

structure InventoryPortPayload where
  protocol : String
  address : String
  port : Nat
  process : Option String
  localOnly : Bool
  deriving DecidableEq, Repr

structure InventoryHotfixPayload where
  id : String
  description : Option String
  installedOn : Option String
  deriving DecidableEq, Repr

structure InventoryContainerPayload where
  engine : String
  id : String
  name : String
  image : String
  state : String
  user : Option String
  risks : List String
  canTakeHost : Bool
  deriving DecidableEq, Repr

structure InventoryList (T : Type) where
  items : List T
  total : Nat
  deriving DecidableEq, Repr

def Payload : InventorySection → Type
  | .system => InventorySystemPayload
  | .users => InventoryList InventoryUserPayload
  | .groups => InventoryList InventoryGroupPayload
  | .services => InventoryList InventoryServicePayload
  | .listeningPorts => InventoryList InventoryPortPayload
  | .hotfixes => InventoryList InventoryHotfixPayload
  | .containers => InventoryList InventoryContainerPayload

instance (s : InventorySection) : DecidableEq (Payload s) :=
  match s with
  | .system => inferInstanceAs (DecidableEq InventorySystemPayload)
  | .users => inferInstanceAs (DecidableEq (InventoryList InventoryUserPayload))
  | .groups => inferInstanceAs (DecidableEq (InventoryList InventoryGroupPayload))
  | .services => inferInstanceAs (DecidableEq (InventoryList InventoryServicePayload))
  | .listeningPorts => inferInstanceAs (DecidableEq (InventoryList InventoryPortPayload))
  | .hotfixes => inferInstanceAs (DecidableEq (InventoryList InventoryHotfixPayload))
  | .containers => inferInstanceAs (DecidableEq (InventoryList InventoryContainerPayload))

/- The sections of one inventory, none missing. -/
abbrev Inventory := (s : InventorySection) → Payload s

/- The sections an upload carries, or the platform holds. -/
abbrev Parts := (s : InventorySection) → Option (Payload s)

structure SystemInventoryUpload where
  collectedAt : Int
  full : Bool
  parts : Parts

def SystemInventoryUpload.whole (collectedAt : Int) (inventory : Inventory) :
    SystemInventoryUpload where
  collectedAt := collectedAt
  full := true
  parts s := some (inventory s)

/- The start of the machine and its memory below the gibibyte are not compared. -/
def InventorySystemPayload.stable (system : InventorySystemPayload) : InventorySystemPayload :=
  { system with
    bootedAt := none
    memoryBytes := system.memoryBytes.map fun bytes => (bytes + 2 ^ 29) / 2 ^ 30 }

def stable : (s : InventorySection) → Payload s → Payload s
  | .system, system => InventorySystemPayload.stable system
  | .users, list => list
  | .groups, list => list
  | .services, list => list
  | .listeningPorts, list => list
  | .hotfixes, list => list
  | .containers, list => list

section Fingerprints

/- The hash of a section's JSON. -/
variable {H : Type} (fingerprint : (s : InventorySection) → Payload s → H)

/- A map by section: `none` where the section has no entry. -/
abbrev InventoryFingerprints (H : Type) := InventorySection → Option H

def print (s : InventorySection) (part : Payload s) : H := fingerprint s (stable s part)

def SystemInventoryUpload.fingerprints (u : SystemInventoryUpload) : InventoryFingerprints H :=
  fun s => (u.parts s).map (print fingerprint s)

def SystemInventoryUpload.only (u : SystemInventoryUpload) (sections : InventorySection → Bool) :
    SystemInventoryUpload where
  collectedAt := u.collectedAt
  full := false
  parts s := if sections s then u.parts s else none

variable {fingerprint} {u : SystemInventoryUpload} {sections : InventorySection → Bool}
  {s : InventorySection}

@[simp] theorem full_whole (collectedAt : Int) (inventory : Inventory) :
    (SystemInventoryUpload.whole collectedAt inventory).full = true := rfl

@[simp] theorem fingerprints_whole (collectedAt : Int) (inventory : Inventory) :
    (SystemInventoryUpload.whole collectedAt inventory).fingerprints fingerprint s =
      some (print fingerprint s (inventory s)) := rfl

@[simp] theorem full_only : (u.only sections).full = false := rfl

/-- The fingerprints of what is kept are the fingerprints kept. -/
theorem fingerprints_only : (u.only sections).fingerprints fingerprint s =
    if sections s then u.fingerprints fingerprint s else none := by
  by_cases kept : sections s = true
  · simp [SystemInventoryUpload.fingerprints, SystemInventoryUpload.only, kept]
  · simp [SystemInventoryUpload.fingerprints, SystemInventoryUpload.only, kept]

end Fingerprints

end SentinelAgent.SystemInventory
