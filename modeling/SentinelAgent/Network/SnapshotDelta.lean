import Mathlib.Data.Finset.Dedup
import Mathlib.Data.List.Perm.Basic
import SentinelAgent.Library.Runs
import SentinelAgent.Network.Connection

/-!
The changes between two snapshots of the network, and what a platform holds that applies those it
is sent.
-/
namespace SentinelAgent.Network
open Runs

inductive InterfaceStatus where
  | up | down | unknown
  deriving DecidableEq

inductive InterfaceType where
  | ethernet | wiFi | loopback | virtual | vpn | bridge | unknown
  deriving DecidableEq

structure NetworkInterface where
  name : String
  macAddress : Option String
  ipv4Addresses : List String
  ipv6Addresses : List String
  status : InterfaceStatus
  speedMbps : Option Nat
  mtu : Option Nat
  isVirtual : Bool
  interfaceType : InterfaceType
  deriving DecidableEq

structure RouteEntry where
  destination : String
  gateway : Option String
  netmask : String
  interface : String
  metric : Option Nat
  flags : List String
  isDefault : Bool
  deriving DecidableEq

structure DnsConfiguration where
  servers : List String
  searchDomains : List String
  suffix : Option String
  deriving DecidableEq

/- What of a snapshot a delta tells. -/
structure NetworkSnapshot where
  interfaces : List NetworkInterface
  connections : List NetworkConnection
  routes : List RouteEntry
  dns : DnsConfiguration
  hash : String

structure NetworkDelta where
  addedInterfaces : List NetworkInterface
  removedInterfaces : List String
  changedInterfaces : List NetworkInterface
  connections : List NetworkConnection
  dnsChanged : Option DnsConfiguration
  routesChanged : Bool
  routes : Option (List RouteEntry)
  hash : String

section Calculate

/- The map by name: of interfaces of one name the last stays. The order it is gone through in says
   nothing. -/
def byName : List NetworkInterface → List NetworkInterface
  | [] => []
  | i :: rest => if rest.any (·.name = i.name) then byName rest else i :: byName rest

def getInterface (name : String) (map : List NetworkInterface) : Option NetworkInterface :=
  map.find? (·.name = name)

def interfaceChanged (old new : NetworkInterface) : Bool :=
  old.macAddress != new.macAddress || old.ipv4Addresses != new.ipv4Addresses ||
    old.ipv6Addresses != new.ipv6Addresses || old.status != new.status ||
    old.speedMbps != new.speedMbps || old.mtu != new.mtu

def dnsChanged (old new : DnsConfiguration) : Bool :=
  old.servers != new.servers || old.searchDomains != new.searchDomains || old.suffix != new.suffix

def routeKey (r : RouteEntry) : String × Option String × String :=
  (r.destination, r.gateway, r.interface)

def routesChanged (old new : List RouteEntry) : Bool :=
  if old.length ≠ new.length then true
  else (old.map routeKey).toFinset != (new.map routeKey).toFinset

def calculate (old new : NetworkSnapshot) : NetworkDelta :=
  let oldInterfaces := byName old.interfaces
  let newInterfaces := byName new.interfaces
  let changed := routesChanged old.routes new.routes
  { addedInterfaces := newInterfaces.filter fun i => (getInterface i.name oldInterfaces).isNone
    removedInterfaces :=
      (oldInterfaces.filter fun i => (getInterface i.name newInterfaces).isNone).map (·.name)
    changedInterfaces := newInterfaces.filter fun i =>
      (getInterface i.name oldInterfaces).any (interfaceChanged · i)
    connections := new.connections
    dnsChanged := if dnsChanged old.dns new.dns then some new.dns else none
    routesChanged := changed
    routes := if changed then some new.routes else none
    hash := new.hash }

def deltaHasChanges (delta : NetworkDelta) : Bool :=
  !delta.addedInterfaces.isEmpty || !delta.removedInterfaces.isEmpty ||
    !delta.changedInterfaces.isEmpty || delta.dnsChanged.isSome || delta.routesChanged

def createFullDelta (snapshot : NetworkSnapshot) : NetworkDelta where
  addedInterfaces := snapshot.interfaces
  removedInterfaces := []
  changedInterfaces := []
  connections := snapshot.connections
  dnsChanged := some snapshot.dns
  routesChanged := true
  routes := some snapshot.routes
  hash := snapshot.hash

def processSnapshot (last : Option NetworkSnapshot) (snapshot : NetworkSnapshot) :
    Option NetworkDelta × Option NetworkSnapshot :=
  match last with
  | none => (some (createFullDelta snapshot), some snapshot)
  | some last =>
    let delta := calculate last snapshot
    (if deltaHasChanges delta then some delta else none, some snapshot)

end Calculate

section Platform

/- What a platform knows of the network. -/
structure Held where
  interfaces : List NetworkInterface
  connections : List NetworkConnection
  routes : List RouteEntry
  dns : DnsConfiguration

def NetworkSnapshot.held (s : NetworkSnapshot) : Held := ⟨s.interfaces, s.connections, s.routes, s.dns⟩

/- Up to the order of the lists. -/
structure Held.Same (held other : Held) : Prop where
  interfaces : held.interfaces.Perm other.interfaces
  connections : held.connections.Perm other.connections
  routes : held.routes.Perm other.routes
  dns : held.dns = other.dns

def stays (delta : NetworkDelta) (i : NetworkInterface) : Bool :=
  !delta.removedInterfaces.contains i.name && !delta.changedInterfaces.any (·.name = i.name)

/- The removed ones go, the changed ones are replaced, the added ones come. -/
def Held.apply (held : Held) (delta : NetworkDelta) : Held where
  interfaces := held.interfaces.filter (stays delta) ++
    (delta.changedInterfaces ++ delta.addedInterfaces)
  connections := delta.connections
  routes := delta.routes.getD held.routes
  dns := delta.dnsChanged.getD held.dns

/- The interfaces of one name. -/
def named (name : String) (interfaces : List NetworkInterface) : List NetworkInterface :=
  interfaces.filter (·.name = name)

/- What a delta can carry about a name: of a new or changed one a single interface, and of one that
   does not differ where it is compared nothing. -/
def CarriesName (old new : List NetworkInterface) (name : String) : Prop :=
  match getInterface name (byName old), getInterface name (byName new) with
  | _, none => True
  | none, some _ => (named name new).length = 1
  | some before, some after =>
    if interfaceChanged before after then (named name new).length = 1
    else (named name old).Perm (named name new)

structure Carried (old new : NetworkSnapshot) : Prop where
  interfaces : ∀ name, CarriesName old.interfaces new.interfaces name
  routes : routesChanged old.routes new.routes = false → old.routes.Perm new.routes

theorem named_append (name : String) (as bs : List NetworkInterface) :
    named name (as ++ bs) = named name as ++ named name bs := List.filter_append ..

theorem perm_iff_named {as bs : List NetworkInterface} :
    as.Perm bs ↔ ∀ name, (named name as).Perm (named name bs) := by
  constructor
  · intro perm name
    exact perm.filter _
  · intro parts
    rw [List.perm_iff_count]
    intro i
    have counted (xs : List NetworkInterface) : xs.count i = (named i.name xs).count i :=
      (List.count_filter (by simp)).symm
    rw [counted as, counted bs, (parts i.name).count_eq]

theorem named_eq_nil {name : String} {interfaces : List NetworkInterface} :
    named name interfaces = [] ↔ ∀ i ∈ interfaces, i.name ≠ name := by
  simp [named]

/-- The map has the last interface of each name. -/
theorem named_byName (name : String) (interfaces : List NetworkInterface) :
    named name (byName interfaces) = (named name interfaces).getLast?.toList := by
  induction interfaces with
  | nil => rfl
  | cons i rest ih =>
    unfold byName
    by_cases later : rest.any (·.name = i.name)
    · rw [if_pos later, ih]
      by_cases here : i.name = name
      · have some_later : named name rest ≠ [] := by
          rw [ne_eq, named_eq_nil]
          intro none_named
          obtain ⟨j, member, same⟩ := List.any_eq_true.mp later
          exact none_named j member ((of_decide_eq_true same).trans here)
        have first : named name (i :: rest) = i :: named name rest := by simp [named, here]
        rw [first, List.getLast?_cons_of_ne_nil some_later]
      · have skipped : named name (i :: rest) = named name rest := by simp [named, here]
        rw [skipped]
    · rw [if_neg later]
      by_cases here : i.name = name
      · have none_later : named name rest = [] := by
          rw [named_eq_nil]
          intro j member same
          exact later (List.any_eq_true.mpr ⟨j, member, decide_eq_true (same.trans here.symm)⟩)
        have first (xs : List NetworkInterface) : named name (i :: xs) = i :: named name xs := by
          simp [named, here]
        rw [first, first, ih, none_later]
        rfl
      · have skipped (xs : List NetworkInterface) : named name (i :: xs) = named name xs := by
          simp [named, here]
        rw [skipped, skipped, ih]

theorem getInterface_eq (name : String) (interfaces : List NetworkInterface) :
    getInterface name (byName interfaces) = (named name interfaces).getLast? := by
  have heads : getInterface name (byName interfaces) = (named name (byName interfaces)).head? := by
    rw [getInterface, named, List.head?_filter]
  rw [heads, named_byName]
  cases (named name interfaces).getLast? <;> rfl

theorem named_filter (name : String) (interfaces : List NetworkInterface)
    (p : NetworkInterface → Bool) : named name (interfaces.filter p) =
      (named name interfaces).filter p := by
  rw [named, named, List.filter_filter, List.filter_filter]
  refine List.filter_congr fun i _ => ?_
  rw [Bool.and_comm]

theorem named_filter_name (name : String) (interfaces : List NetworkInterface)
    (q : String → Bool) : named name (interfaces.filter fun i => q i.name) =
      if q name then named name interfaces else [] := by
  rw [named_filter]
  split_ifs with kept
  · refine List.filter_eq_self.mpr fun i member => ?_
    rw [of_decide_eq_true (List.mem_filter.mp member).2]
    exact kept
  · refine List.filter_eq_nil_iff.mpr fun i member => ?_
    rw [of_decide_eq_true (List.mem_filter.mp member).2]
    exact kept

theorem named_map (name : String) (interfaces : List NetworkInterface) :
    named name (byName interfaces) = (getInterface name (byName interfaces)).toList := by
  rw [named_byName, getInterface_eq]

section Parts
variable (old new : NetworkSnapshot) (name : String)

theorem named_added : named name (calculate old new).addedInterfaces =
    if (getInterface name (byName old.interfaces)).isNone then
      (getInterface name (byName new.interfaces)).toList else [] := by
  rw [← named_map]
  exact named_filter_name name _ fun other => (getInterface other (byName old.interfaces)).isNone

theorem named_changed : named name (calculate old new).changedInterfaces =
    (getInterface name (byName new.interfaces)).toList.filter fun i =>
      (getInterface name (byName old.interfaces)).any (interfaceChanged · i) := by
  rw [← named_map]
  refine (named_filter name _ _).trans (List.filter_congr fun i member => ?_)
  rw [of_decide_eq_true (List.mem_filter.mp member).2]

theorem removed_iff : name ∈ (calculate old new).removedInterfaces ↔
    (getInterface name (byName old.interfaces)).isSome = true ∧
      getInterface name (byName new.interfaces) = none := by
  have all_named : name ∈ (calculate old new).removedInterfaces ↔
      named name ((byName old.interfaces).filter fun i =>
        (getInterface i.name (byName new.interfaces)).isNone) ≠ [] := by
    rw [ne_eq, named_eq_nil, calculate, List.mem_map]
    push Not
    rfl
  have parts := named_filter_name name (byName old.interfaces)
    fun other => (getInterface other (byName new.interfaces)).isNone
  rw [all_named, parts, named_map]
  cases getInterface name (byName old.interfaces) <;>
    cases getInterface name (byName new.interfaces) <;> simp

theorem named_staying : named name (old.interfaces.filter (stays (calculate old new))) =
    if name ∉ (calculate old new).removedInterfaces ∧
      named name (calculate old new).changedInterfaces = [] then named name old.interfaces
    else [] := by
  have by_name := named_filter_name name old.interfaces fun other =>
    !(calculate old new).removedInterfaces.contains other &&
      !(calculate old new).changedInterfaces.any (·.name = other)
  refine by_name.trans (if_congr ?_ rfl rfl)
  rw [named_eq_nil]
  simp

theorem named_applied : named name (old.held.apply (calculate old new)).interfaces =
    named name (old.interfaces.filter (stays (calculate old new))) ++
      (named name (calculate old new).changedInterfaces ++
        named name (calculate old new).addedInterfaces) := by
  rw [← named_append, ← named_append]
  rfl

/-- What is held of one name after a delta. -/
theorem carries_iff : (named name (old.held.apply (calculate old new)).interfaces).Perm
    (named name new.interfaces) ↔ CarriesName old.interfaces new.interfaces name := by
  rw [named_applied, named_staying, named_changed, named_added, CarriesName]
  simp only [removed_iff]
  have last_old := getInterface_eq name old.interfaces
  have last_new := getInterface_eq name new.interfaces
  have single : ∀ i, getInterface name (byName new.interfaces) = some i →
      ([i].Perm (named name new.interfaces) ↔ (named name new.interfaces).length = 1) := by
    intro i found
    rw [last_new] at found
    constructor
    · intro perm
      exact perm.length_eq.symm
    · intro alone
      obtain ⟨j, only⟩ := List.length_eq_one_iff.mp alone
      rw [only] at found ⊢
      cases found
      exact List.Perm.refl _
  cases before : getInterface name (byName old.interfaces) with
  | none =>
    have none_old : named name old.interfaces = [] := by
      rwa [before, eq_comm, List.getLast?_eq_none_iff] at last_old
    cases after : getInterface name (byName new.interfaces) with
    | none =>
      have none_new : named name new.interfaces = [] := by
        rwa [after, eq_comm, List.getLast?_eq_none_iff] at last_new
      simp [none_old, none_new]
    | some i => simpa [none_old] using single i after
  | some j =>
    cases after : getInterface name (byName new.interfaces) with
    | none =>
      have none_new : named name new.interfaces = [] := by
        rwa [after, eq_comm, List.getLast?_eq_none_iff] at last_new
      simp [none_new]
    | some i =>
      by_cases differs : interfaceChanged j i = true
      · simpa [differs] using single i after
      · simp [differs]

end Parts

theorem dnsChanged_eq_false {old new : DnsConfiguration} : dnsChanged old new = false ↔ old = new := by
  obtain ⟨servers, domains, suffix⟩ := old
  obtain ⟨servers', domains', suffix'⟩ := new
  simp [dnsChanged, and_assoc]

theorem dns_applied (old new : NetworkSnapshot) :
    (old.held.apply (calculate old new)).dns = new.dns := by
  simp only [Held.apply, calculate, NetworkSnapshot.held]
  cases changed : dnsChanged old.dns new.dns with
  | true => rfl
  | false => exact dnsChanged_eq_false.mp changed

theorem routes_applied (old new : NetworkSnapshot) :
    (old.held.apply (calculate old new)).routes.Perm new.routes ↔
      (routesChanged old.routes new.routes = false → old.routes.Perm new.routes) := by
  simp only [Held.apply, calculate, NetworkSnapshot.held]
  cases routesChanged old.routes new.routes <;> simp

/-- A delta carries the whole change exactly where each name is carried, and the routes where they
do not differ by what is compared. -/
theorem carried_iff (old new : NetworkSnapshot) :
    (old.held.apply (calculate old new)).Same new.held ↔ Carried old new := by
  constructor
  · intro same
    exact ⟨fun name => (carries_iff old new name).mp (perm_iff_named.mp same.interfaces name),
      (routes_applied old new).mp same.routes⟩
  · intro carried
    exact ⟨perm_iff_named.mpr fun name => (carries_iff old new name).mpr (carried.interfaces name),
      List.Perm.refl _, (routes_applied old new).mpr carried.routes, dns_applied old new⟩

end Platform

section Runs

theorem Held.Same.refl (held : Held) : held.Same held := ⟨.refl _, .refl _, .refl _, rfl⟩

theorem Held.Same.trans {a b c : Held} (first : a.Same b) (second : b.Same c) : a.Same c :=
  ⟨first.interfaces.trans second.interfaces, first.connections.trans second.connections,
    first.routes.trans second.routes, first.dns.trans second.dns⟩

theorem Held.Same.symm {a b : Held} (same : a.Same b) : b.Same a :=
  ⟨same.interfaces.symm, same.connections.symm, same.routes.symm, same.dns.symm⟩

/- The order of what is held does not matter for what a delta makes of it. -/
theorem apply_same {a b : Held} (same : a.Same b) (delta : NetworkDelta) :
    (a.apply delta).Same (b.apply delta) where
  interfaces := (same.interfaces.filter _).append_right _
  connections := .refl _
  routes := by
    cases given : delta.routes with
    | none => simpa [Held.apply, given] using same.routes
    | some routes => simp [Held.apply, given]
  dns := by simp [Held.apply, same.dns]

/- The agent's last snapshot, the last one of which it sent a delta, and the platform. -/
structure Sync where
  last : Option NetworkSnapshot
  sent : Option NetworkSnapshot
  platform : Held

def Sync.start : Sync := ⟨none, none, ⟨[], [], [], ⟨[], [], none⟩⟩⟩

def syncStep (s : Sync) (snapshot : NetworkSnapshot) : Sync :=
  match processSnapshot s.last snapshot with
  | (some delta, last) => ⟨last, some snapshot, s.platform.apply delta⟩
  | (none, last) => ⟨last, s.sent, s.platform⟩

/- After a snapshot the platform holds it, and it is left unsent only if it is the last one sent. -/
structure InStep (s : Sync) (snapshot : NetworkSnapshot) : Prop where
  holds : (syncStep s snapshot).platform.Same snapshot.held
  unsent : (processSnapshot s.last snapshot).1 = none →
    ∃ sent, s.sent = some sent ∧ sent.held.Same snapshot.held

/- No interface came, went or differs where it is compared, nor do the settings and the routes. -/
structure Unmoved (old new : NetworkSnapshot) : Prop where
  interfaces : ∀ name,
    match getInterface name (byName old.interfaces), getInterface name (byName new.interfaces) with
    | none, none => True
    | some before, some after => interfaceChanged before after = false
    | _, _ => False
  dns : old.dns = new.dns
  routes : routesChanged old.routes new.routes = false

/- A delta carries the change, and connections do not change alone. -/
def Carries (s : Sync) (snapshot : NetworkSnapshot) : Prop :=
  ∀ last, s.last = some last → Carried last snapshot ∧
    (Unmoved last snapshot → last.connections.Perm snapshot.connections)

theorem eq_nil_iff_named {interfaces : List NetworkInterface} :
    interfaces = [] ↔ ∀ name, named name interfaces = [] := by
  constructor
  · rintro rfl name
    rfl
  · intro none_named
    cases interfaces with
    | nil => rfl
    | cons i rest => exact absurd rfl (named_eq_nil.mp (none_named i.name) i List.mem_cons_self)

/-- A delta without changes is one of snapshots that are alike. -/
theorem no_changes_iff (old new : NetworkSnapshot) :
    deltaHasChanges (calculate old new) = false ↔ Unmoved old new := by
  have parts : deltaHasChanges (calculate old new) = false ↔
      (∀ name, named name (calculate old new).addedInterfaces = [] ∧
        name ∉ (calculate old new).removedInterfaces ∧
          named name (calculate old new).changedInterfaces = []) ∧
      old.dns = new.dns ∧ routesChanged old.routes new.routes = false := by
    rw [← dnsChanged_eq_false]
    simp only [forall_and, ← eq_nil_iff_named, ← List.eq_nil_iff_forall_not_mem]
    have told : (calculate old new).dnsChanged.isSome = dnsChanged old.dns new.dns := by
      simp only [calculate]
      cases dnsChanged old.dns new.dns <;> rfl
    have told' : (calculate old new).routesChanged = routesChanged old.routes new.routes := rfl
    rw [deltaHasChanges, told, told']
    simp [and_assoc]
  have each : ∀ name, (named name (calculate old new).addedInterfaces = [] ∧
      name ∉ (calculate old new).removedInterfaces ∧
        named name (calculate old new).changedInterfaces = []) ↔
      match getInterface name (byName old.interfaces), getInterface name (byName new.interfaces) with
      | none, none => True
      | some before, some after => interfaceChanged before after = false
      | _, _ => False := by
    intro name
    rw [named_added, removed_iff, named_changed]
    cases getInterface name (byName old.interfaces) <;>
      cases getInterface name (byName new.interfaces) <;> simp
  rw [parts]
  constructor
  · rintro ⟨interfaces, dns, routes⟩
    exact ⟨fun name => (each name).mp (interfaces name), dns, routes⟩
  · rintro ⟨interfaces, dns, routes⟩
    exact ⟨fun name => (each name).mpr (interfaces name), dns, routes⟩

/-- Between snapshots that are alike the delta carries the connections, and nothing else. -/
theorem unmoved_same_iff {old new : NetworkSnapshot} (alike : Unmoved old new) :
    old.held.Same new.held ↔ Carried old new ∧ old.connections.Perm new.connections := by
  have parts : ∀ name, CarriesName old.interfaces new.interfaces name ↔
      (named name old.interfaces).Perm (named name new.interfaces) := by
    intro name
    have compared := alike.interfaces name
    have last_old := getInterface_eq name old.interfaces
    have last_new := getInterface_eq name new.interfaces
    unfold CarriesName
    cases before : getInterface name (byName old.interfaces) with
    | none =>
      rw [before] at compared last_old
      cases after : getInterface name (byName new.interfaces) with
      | none =>
        rw [after] at last_new
        rw [List.getLast?_eq_none_iff.mp last_old.symm, List.getLast?_eq_none_iff.mp last_new.symm]
        simp
      | some i =>
        rw [after] at compared
        exact compared.elim
    | some j =>
      rw [before] at compared
      cases after : getInterface name (byName new.interfaces) with
      | none =>
        rw [after] at compared
        exact compared.elim
      | some i =>
        rw [after] at compared
        simp [compared]
  constructor
  · intro same
    exact ⟨⟨fun name => (parts name).mpr (perm_iff_named.mp same.interfaces name),
      fun _ => same.routes⟩, same.connections⟩
  · rintro ⟨carried, connections⟩
    exact ⟨perm_iff_named.mpr fun name => (parts name).mp (carried.interfaces name), connections,
      carried.routes alike.routes, alike.dns⟩

/- The platform holds the agent's last snapshot, which is the last one sent. -/
structure SyncInv (s : Sync) : Prop where
  first : s.last = none → s = Sync.start
  holds : ∀ last, s.last = some last → s.platform.Same last.held
  sent : ∀ last, s.last = some last → ∃ sent, s.sent = some sent ∧ sent.held.Same last.held

theorem in_step_iff {s : Sync} (inv : SyncInv s) (snapshot : NetworkSnapshot) :
    InStep s snapshot ↔ Carries s snapshot := by
  cases at_last : s.last with
  | none =>
    have begins := inv.first at_last
    subst begins
    have full : (syncStep Sync.start snapshot).platform.Same snapshot.held := by
      simp only [syncStep, processSnapshot, Sync.start, Held.apply, createFullDelta]
      exact ⟨List.Perm.refl _, List.Perm.refl _, List.Perm.refl _, rfl⟩
    constructor
    · intro _ last given
      cases given
    · intro _
      exact ⟨full, fun unsent => nomatch unsent⟩
  | some last =>
    have holds := inv.holds last at_last
    have only : Carries s snapshot ↔ Carried last snapshot ∧
        (Unmoved last snapshot → last.connections.Perm snapshot.connections) := by
      constructor
      · exact fun carries => carries last at_last
      · intro carried other given
        cases at_last.symm.trans given
        exact carried
    rw [only]
    cases changes : deltaHasChanges (calculate last snapshot) with
    | true =>
      have not_alike : ¬ Unmoved last snapshot := by
        rw [← no_changes_iff, changes]
        exact Bool.noConfusion
      have sends : (processSnapshot s.last snapshot) =
          (some (calculate last snapshot), some snapshot) := by
        rw [at_last, processSnapshot]
        simp [changes]
      have applied : (syncStep s snapshot).platform = s.platform.apply (calculate last snapshot) := by
        rw [syncStep, sends]
      have moved := apply_same holds (calculate last snapshot)
      rw [← carried_iff]
      constructor
      · intro in_step
        exact ⟨moved.symm.trans (applied ▸ in_step.holds), fun alike => absurd alike not_alike⟩
      · rintro ⟨carried, _⟩
        refine ⟨applied ▸ moved.trans carried, fun unsent => ?_⟩
        rw [sends] at unsent
        cases unsent
    | false =>
      have alike := (no_changes_iff last snapshot).mp changes
      have keeps : (processSnapshot s.last snapshot) = (none, some snapshot) := by
        rw [at_last, processSnapshot]
        simp [changes]
      have stays : (syncStep s snapshot).platform = s.platform := by
        rw [syncStep, keeps]
      have both : (Carried last snapshot ∧ (Unmoved last snapshot →
          last.connections.Perm snapshot.connections)) ↔ last.held.Same snapshot.held := by
        rw [unmoved_same_iff alike]
        exact and_congr_right fun _ => ⟨fun alone => alone alike, fun perm _ => perm⟩
      rw [both]
      constructor
      · intro in_step
        exact holds.symm.trans (stays ▸ in_step.holds)
      · intro same
        refine ⟨stays ▸ holds.trans same, fun _ => ?_⟩
        obtain ⟨sent, was_sent, same_sent⟩ := inv.sent last at_last
        exact ⟨sent, was_sent, same_sent.trans same⟩

theorem last_step (s : Sync) (snapshot : NetworkSnapshot) :
    (syncStep s snapshot).last = some snapshot := by
  unfold syncStep processSnapshot
  cases s.last with
  | none => rfl
  | some last =>
    simp only
    split_ifs <;> rfl

theorem inv_in_step {s : Sync} {snapshot : NetworkSnapshot} (in_step : InStep s snapshot) :
    SyncInv (syncStep s snapshot) where
  first := fun none_yet => by
    rw [last_step] at none_yet
    cases none_yet
  holds := fun last given => by
    rw [last_step] at given
    cases given
    exact in_step.holds
  sent := fun last given => by
    rw [last_step] at given
    cases given
    cases told : (processSnapshot s.last snapshot).1 with
    | none =>
      obtain ⟨sent, was_sent, same⟩ := in_step.unsent told
      refine ⟨sent, ?_, same⟩
      rw [← was_sent, syncStep]
      split
      · rename_i delta last result
        rw [result] at told
        cases told
      · rfl
    | some delta =>
      refine ⟨snapshot, ?_, Held.Same.refl _⟩
      rw [syncStep]
      split
      · rfl
      · rename_i last result
        rw [result] at told
        cases told

/-- Where a delta carries the change of two snapshots, and in which runs the platform keeps up. -/
theorem deltas_carry_iff (old new : NetworkSnapshot) (snapshots : List NetworkSnapshot) :
    ((old.held.apply (calculate old new)).Same new.held ↔ Carried old new) ∧
      (Along syncStep InStep Sync.start snapshots ↔
        Along syncStep Carries Sync.start snapshots) := by
  refine ⟨carried_iff old new, along_iff (I := SyncInv)
    (fun s snapshot inv => in_step_iff inv snapshot) (fun s snapshot _ => inv_in_step) ?_⟩
  exact ⟨fun _ => rfl, fun _ given => (nomatch given), fun _ given => (nomatch given)⟩

/- The default route through one interface, of two metrics. -/
def withMetric (metric : Option Nat) : NetworkSnapshot where
  interfaces := []
  connections := []
  routes := [⟨"0.0.0.0", none, "0.0.0.0", "eth0", metric, [], true⟩]
  dns := ⟨[], [], none⟩
  hash := ""

/-- A new metric is carried by no delta. -/
theorem metric_lost : ¬ ((withMetric none).held.apply
    (calculate (withMetric none) (withMetric (some 100)))).Same (withMetric (some 100)).held := by
  rw [carried_iff]
  intro carried
  have same := carried.routes (by decide)
  exact absurd (List.perm_singleton.mp same) (by decide)

end Runs

end SentinelAgent.Network
