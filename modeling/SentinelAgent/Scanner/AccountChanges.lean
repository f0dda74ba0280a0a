import SentinelAgent.Scanner.Inventory

/- Which changes of the accounts the comparison of two inventories reports. -/
namespace SentinelAgent.Inventory
open Text Ordered
open Accounts (UserAccount GroupEntry)

variable {before after : SystemInventory} {knownPorts : Std.TreeMap String Int}
  {user : UserAccount}

/- The number 0, however it is written. -/
def isNumericZero (id : String) : Bool :=
  let digits := match id.toList with
    | '+' :: digits => digits
    | '-' :: digits => digits
    | digits => digits
  digits ≠ [] ∧ digits.all (· == '0') = true

/- An account entry that was not there: none of that name had this identifier. -/
def Appeared (before : SystemInventory) (user : UserAccount) : Prop :=
  ∀ old ∈ before.users, old.name = user.name → old.id ≠ user.id

def BecameRoot (before : SystemInventory) (user : UserAccount) : Prop :=
  isNumericZero user.id = true ∧
    ∀ old ∈ before.users, old.name = user.name → isNumericZero old.id = false

def MayNowLogIn (before : SystemInventory) (user : UserAccount) : Prop :=
  user.canLogIn = true ∧
    ∀ old ∈ before.users, old.name = user.name → old.id = user.id → old.canLogIn = false

def Rose (before : SystemInventory) (user : UserAccount) : Prop :=
  Appeared before user ∨ BecameRoot before user ∨ MayNowLogIn before user

def Joined (before after : SystemInventory) (group member : String) : Prop :=
  isPrivilegedGroup group = true ∧ (group, member) ∈ memberships after.groups ∧
    (group, member) ∉ memberships before.groups

/- A change about this very entry. -/
def Reported (user : UserAccount) (changes : List InventoryChange) : Prop :=
  .userAdded user ∈ changes ∨ ∃ old, .userChanged old user ∈ changes

def InventoryChange.isAccountChange : InventoryChange → Bool
  | .userAdded _ | .userRemoved _ | .userChanged _ _ => true
  | .groupMemberAdded _ _ | .groupMemberRemoved _ _ => true
  | _ => false

structure Seen (before after : SystemInventory) (changes : List InventoryChange) : Prop where
  rose : ∀ user ∈ after.users, Rose before user → Reported user changes
  joined : ∀ group member, Joined before after group member →
    .groupMemberAdded group member ∈ changes
  quiet : before = after → ∀ change ∈ changes, change.isAccountChange = false

/- What the comparison relies on: an entry that rose is the last of its name, one that may
   log in now has another identifier or another shell than the last entry of its name had,
   and the groups were listed before if an administrators' group has members now. -/
structure Comparable (before after : SystemInventory) : Prop where
  last : ∀ user ∈ after.users, Rose before user →
    lastOf UserAccount.name after.users user.name = some user
  differs : ∀ user ∈ after.users, MayNowLogIn before user →
    ∀ old, lastOf UserAccount.name before.users user.name = some old →
      old.id ≠ user.id ∨ old.shell ≠ user.shell
  listed : before.groups = [] → ∀ entry ∈ memberships after.groups,
    isPrivilegedGroup entry.1 = false

theorem systemChanges_other {change : InventoryChange} (reported : change ∈ systemChanges before after) :
    change.isAccountChange = false := by
  unfold systemChanges at reported
  split at reported
  · obtain ⟨field, _, change_eq⟩ := List.mem_filterMap.mp reported
    unfold systemChange at change_eq
    split at change_eq
    · split at change_eq
      · cases change_eq
        rfl
      · cases change_eq
    · cases change_eq
  · cases reported

theorem serviceChange_other {previous service : ServiceEntry} {change : InventoryChange}
    (changed : serviceChange previous service = some change) : change.isAccountChange = false := by
  unfold serviceChange at changed
  split at changed
  · cases changed
    rfl
  · cases changed

theorem serviceChanges_other {change : InventoryChange}
    (reported : change ∈ serviceChanges before after) : change.isAccountChange = false := by
  unfold serviceChanges at reported
  split at reported
  · exact all_changes (P := fun c => c.isAccountChange = false) (fun _ _ => rfl)
      (fun _ _ _ changed => serviceChange_other changed) (fun _ => rfl) reported
  · cases reported

theorem portChanges_other {change : InventoryChange}
    (reported : change ∈ portChanges before after knownPorts) :
    change.isAccountChange = false := by
  unfold portChanges at reported
  split at reported
  · exact all_changes (P := fun c => c.isAccountChange = false) (fun _ _ => rfl)
      (fun _ _ _ changed => by cases changed) (fun _ => rfl) reported
  · cases reported

theorem hotfixChanges_other {change : InventoryChange}
    (reported : change ∈ hotfixChanges before after) : change.isAccountChange = false := by
  unfold hotfixChanges at reported
  split at reported
  · exact all_changes (P := fun c => c.isAccountChange = false) (fun _ _ => rfl)
      (fun _ _ _ changed => by cases changed) (fun _ => rfl) reported
  · cases reported

/- The changes of the accounts are those of the users and of the groups. -/
theorem account_mem_diff {change : InventoryChange} (account : change.isAccountChange = true) :
    change ∈ diff before after knownPorts ↔
      change ∈ userChanges before after ∨ change ∈ groupChanges before after := by
  simp only [diff, List.mem_append]
  constructor
  · rintro (((((system | users) | groups) | services) | ports) | hotfixes)
    · rw [systemChanges_other system] at account
      cases account
    · exact Or.inl users
    · exact Or.inr groups
    · rw [serviceChanges_other services] at account
      cases account
    · rw [portChanges_other ports] at account
      cases account
    · rw [hotfixChanges_other hotfixes] at account
      cases account
  · rintro (users | groups)
    · exact Or.inl (Or.inl (Or.inl (Or.inl (Or.inr users))))
    · exact Or.inl (Or.inl (Or.inl (Or.inr groups)))

theorem userAdded_mem {user : UserAccount} (listed_before : before.users ≠ [])
    (listed_after : after.users ≠ []) :
    .userAdded user ∈ userChanges before after ↔
      lastOf UserAccount.name after.users user.name = some user ∧
        lastOf UserAccount.name before.users user.name = none := by
  rw [userChanges, if_pos ⟨listed_before, listed_after⟩]
  simp only [List.mem_append, mem_arrivals, mem_departures]
  constructor
  · rintro (⟨name, e, here, ⟨gone, added⟩ | ⟨previous, _, changed⟩⟩ | ⟨_, _, _, _, removed⟩)
    · cases added
      rw [(key_lastOf here).2]
      exact ⟨here, gone⟩
    · unfold userChange at changed
      split at changed
      · cases changed
      · cases changed
    · cases removed
  · rintro ⟨here, gone⟩
    exact Or.inl ⟨user.name, user, here, Or.inl ⟨gone, rfl⟩⟩

theorem userChanged_mem {old user : UserAccount} (listed_before : before.users ≠ [])
    (listed_after : after.users ≠ []) :
    .userChanged old user ∈ userChanges before after ↔
      lastOf UserAccount.name after.users user.name = some user ∧
        lastOf UserAccount.name before.users user.name = some old ∧
        (old.id ≠ user.id ∨ old.shell ≠ user.shell) := by
  rw [userChanges, if_pos ⟨listed_before, listed_after⟩]
  simp only [List.mem_append, mem_arrivals, mem_departures]
  constructor
  · rintro (⟨name, e, here, ⟨gone, added⟩ | ⟨previous, there, changed⟩⟩ | ⟨_, _, _, _, removed⟩)
    · cases added
    · unfold userChange at changed
      split at changed
      · rename_i differs
        cases changed
        rw [(key_lastOf here).2]
        exact ⟨here, there, differs⟩
      · cases changed
    · cases removed
  · rintro ⟨here, there, differs⟩
    have change : userChange old user = some (.userChanged old user) := if_pos differs
    exact Or.inl ⟨user.name, user, here, Or.inr ⟨old, there, change⟩⟩

/- An entry is reported where it is the last of its name and the last entry of that name
   before, if any, has another identifier or another shell. -/
theorem reported_iff (listed_before : before.users ≠ []) (listed_after : after.users ≠ []) :
    Reported user (userChanges before after) ↔
      lastOf UserAccount.name after.users user.name = some user ∧
        ∀ old, lastOf UserAccount.name before.users user.name = some old →
          old.id ≠ user.id ∨ old.shell ≠ user.shell := by
  simp only [Reported, userAdded_mem listed_before listed_after,
    userChanged_mem listed_before listed_after]
  cases there : lastOf UserAccount.name before.users user.name with
  | none => simp
  | some old => simp

theorem contains_members {groups : List GroupEntry} {entry : String × String} :
    (members groups).contains entry = true ↔ entry ∈ memberships groups := by
  simp [members, Std.TreeSet.contains_ofList]

theorem mem_newMembers {groups others : List GroupEntry} {entry : String × String} :
    entry ∈ (members groups).toList.filter (fun entry => !(members others).contains entry) ↔
      entry ∈ memberships groups ∧ entry ∉ memberships others := by
  rw [List.mem_filter, Std.TreeSet.mem_toList, Std.TreeSet.mem_iff_contains, contains_members,
    Bool.not_eq_true', ← Bool.not_eq_true, contains_members]

theorem nobody_listed : memberships [] = [] := rfl

/- A membership is reported where it is new and the groups were listed before. -/
theorem groupMemberAdded_mem {group member : String} :
    .groupMemberAdded group member ∈ groupChanges before after ↔
      before.groups ≠ [] ∧ (group, member) ∈ memberships after.groups ∧
        (group, member) ∉ memberships before.groups := by
  by_cases listed : before.groups ≠ [] ∧ after.groups ≠ []
  · rw [groupChanges, if_pos listed]
    simp only [List.mem_append, List.mem_map, mem_newMembers, reduceCtorEq, and_false,
      exists_false, or_false, Prod.exists, InventoryChange.groupMemberAdded.injEq]
    constructor
    · intro ⟨_, _, ⟨now, absent⟩, rfl, rfl⟩
      exact ⟨listed.1, now, absent⟩
    · intro ⟨_, now, absent⟩
      exact ⟨group, member, ⟨now, absent⟩, rfl, rfl⟩
  · rw [groupChanges, if_neg listed]
    constructor
    · intro reported
      cases reported
    · intro ⟨before_listed, now, _⟩
      have after_listed : after.groups ≠ [] := by
        intro empty
        rw [empty, nobody_listed] at now
        cases now
      exact absurd ⟨before_listed, after_listed⟩ listed

theorem userAdded_other : .userAdded user ∉ groupChanges before after := by
  unfold groupChanges
  split
  · simp
  · simp

theorem userChanged_other {old : UserAccount} :
    .userChanged old user ∉ groupChanges before after := by
  unfold groupChanges
  split
  · simp
  · simp

theorem member_other {group member : String} :
    .groupMemberAdded group member ∉ userChanges before after := by
  unfold userChanges
  split
  · intro reported
    cases List.mem_append.mp reported with
    | inl arrived =>
      obtain ⟨_, _, _, ⟨_, added⟩ | ⟨_, _, changed⟩⟩ := mem_arrivals.mp arrived
      · cases added
      · unfold userChange at changed
        split at changed
        · cases changed
        · cases changed
    | inr departed =>
      obtain ⟨_, _, _, _, removed⟩ := mem_departures.mp departed
      cases removed
  · exact List.not_mem_nil

theorem reported_diff :
    Reported user (diff before after knownPorts) ↔ Reported user (userChanges before after) := by
  constructor
  · rintro (added | ⟨old, changed⟩)
    · cases (account_mem_diff rfl).mp added with
      | inl users => exact Or.inl users
      | inr groups => exact absurd groups userAdded_other
    · cases (account_mem_diff rfl).mp changed with
      | inl users => exact Or.inr ⟨old, users⟩
      | inr groups => exact absurd groups userChanged_other
  · rintro (added | ⟨old, changed⟩)
    · exact Or.inl ((account_mem_diff rfl).mpr (Or.inl added))
    · exact Or.inr ⟨old, (account_mem_diff rfl).mpr (Or.inl changed)⟩

theorem joined_diff {group member : String} :
    .groupMemberAdded group member ∈ diff before after knownPorts ↔
      .groupMemberAdded group member ∈ groupChanges before after := by
  rw [account_mem_diff rfl]
  simp only [member_other, false_or]

/- An entry that appeared or became root differs from every earlier one of its name. -/
theorem rose_differs (comparable : Comparable before after) (now : user ∈ after.users)
    (rose : Rose before user) (old : UserAccount)
    (last : lastOf UserAccount.name before.users user.name = some old) :
    old.id ≠ user.id ∨ old.shell ≠ user.shell := by
  obtain ⟨there, named⟩ := key_lastOf last
  obtain appeared | became_root | may_log_in := rose
  · exact Or.inl (appeared old there named)
  · have other := became_root.2 old there named
    refine Or.inl fun same => ?_
    rw [same, became_root.1] at other
    cases other
  · exact comparable.differs user now may_log_in old last

theorem systemChange_self (description : SystemDescription) (field : SystemField) :
    systemChange description description field = none := by
  unfold systemChange
  split
  · rename_i first second
    rw [first] at second
    cases second
    exact if_neg fun differs => differs rfl
  · rfl

theorem systemChanges_self (i : SystemInventory) : systemChanges i i = [] := by
  unfold systemChanges
  cases i.system with
  | none => rfl
  | some description =>
    exact List.filterMap_eq_nil_iff.mpr fun field _ => systemChange_self description field

theorem userChanges_self (i : SystemInventory) : userChanges i i = [] := by
  have same : ∀ user, userChange user user = none := fun user => if_neg (by simp)
  unfold userChanges
  split
  · simp only [arrivals_self same, departures_self, List.append_nil]
  · rfl

theorem groupChanges_self (i : SystemInventory) : groupChanges i i = [] := by
  have none_new : (members i.groups).toList.filter
      (fun entry => !(members i.groups).contains entry) = [] := by
    refine List.eq_nil_iff_forall_not_mem.mpr fun entry reported => ?_
    have new := mem_newMembers.mp reported
    exact new.2 new.1
  unfold groupChanges
  split
  · simp only [none_new, List.map_nil, List.append_nil]
  · rfl

theorem serviceChanges_self (i : SystemInventory) : serviceChanges i i = [] := by
  have same : ∀ service, serviceChange service service = none := fun service => if_neg (by simp)
  unfold serviceChanges
  split
  · simp only [arrivals_self same, departures_self, List.append_nil]
  · rfl

theorem portChanges_self (i : SystemInventory) : portChanges i i knownPorts = [] := by
  unfold portChanges
  split
  · simp only [arrivals_self, departures_self, List.append_nil, implies_true]
  · rfl

theorem hotfixChanges_self (i : SystemInventory) : hotfixChanges i i = [] := by
  unfold hotfixChanges
  split
  · simp only [arrivals_self, departures_self, List.append_nil, implies_true]
  · rfl

theorem no_change (i : SystemInventory) : diff i i knownPorts = [] := by
  simp only [diff, systemChanges_self, userChanges_self, groupChanges_self, serviceChanges_self,
    portChanges_self, hotfixChanges_self, List.append_nil]

theorem seen_diff (listed_before : before.users ≠ []) (listed_after : after.users ≠ []) :
    Seen before after (diff before after knownPorts) ↔ Comparable before after := by
  constructor
  · intro seen
    have reported : ∀ user ∈ after.users, Rose before user → _ := fun user now rose =>
      (reported_iff listed_before listed_after).mp (reported_diff.mp (seen.rose user now rose))
    refine ⟨fun user now rose => (reported user now rose).1, ?_, ?_⟩
    · intro user now may_log_in
      exact (reported user now (Or.inr (Or.inr may_log_in))).2
    · intro unlisted entry now
      cases privileged : isPrivilegedGroup entry.1 with
      | false => rfl
      | true =>
        have absent : entry ∉ memberships before.groups := by
          rw [unlisted]
          exact List.not_mem_nil
        have change := joined_diff.mp (seen.joined entry.1 entry.2 ⟨privileged, now, absent⟩)
        exact absurd unlisted (groupMemberAdded_mem.mp change).1
  · intro comparable
    refine ⟨?_, ?_, ?_⟩
    · intro user now rose
      exact reported_diff.mpr ((reported_iff listed_before listed_after).mpr
        ⟨comparable.last user now rose, rose_differs comparable now rose⟩)
    · intro group member ⟨privileged, now, absent⟩
      have listed : before.groups ≠ [] := by
        intro unlisted
        have ordinary := comparable.listed unlisted (group, member) now
        rw [privileged] at ordinary
        cases ordinary
      exact joined_diff.mpr (groupMemberAdded_mem.mpr ⟨listed, now, absent⟩)
    · intro same
      rw [same, no_change]
      exact fun _ => nofun

theorem update_changes {state : InventoryState} {now : Int} (kept : state.inventory = some before) :
    (state.update after now).1 =
      diff before after (state.knownPorts.filter fun _ seen => decide (seen > now - portMemory)) := by
  simp only [InventoryState.update, kept]

section Cases

def unixAccount (name id : String) : UserAccount where
  name := name
  id := id
  groupId := none
  home := none
  shell := some "/bin/sh"
  canLogIn := true

def windowsAccount (canLogIn : Bool) : UserAccount where
  name := "guest"
  id := "S-1-5-21-7-501"
  groupId := none
  home := none
  shell := none
  canLogIn := canLogIn

def accountsOnly (users : List UserAccount) : SystemInventory where
  users := users
  groups := [⟨"sudo", none, []⟩]
  system := none
  services := []
  listeningPorts := []
  hotfixes := []

end Cases

/- Where the shell alone decides who may log in and no name is listed twice, inventories
   can be compared. -/
theorem comparable_of_shells (distinct : (after.users.map UserAccount.name).Nodup)
    (shells : ∀ user ∈ before.users ++ after.users, user.canLogIn = Accounts.canLogIn user.shell)
    (listed : before.groups ≠ []) : Comparable before after := by
  refine ⟨fun user now _ => lastOf_of_nodup distinct now, ?_, fun unlisted => absurd unlisted listed⟩
  intro user now may_log_in old last
  obtain ⟨there, named⟩ := key_lastOf last
  by_contra same
  simp only [ne_eq, not_or, not_not] at same
  have could := may_log_in.2 old there named same.1
  rw [shells old (List.mem_append_left _ there), same.2,
    ← shells user (List.mem_append_right _ now), may_log_in.1] at could
  cases could

theorem passwdLine_shell {line : String} {user : UserAccount}
    (read : Accounts.passwdLine line = some user) :
    user.canLogIn = Accounts.canLogIn user.shell := by
  simp only [Accounts.passwdLine] at read
  split at read
  · cases read
    rfl
  · cases read

theorem parsePasswd_shell {content : String} :
    ∀ user ∈ Accounts.parsePasswd content, user.canLogIn = Accounts.canLogIn user.shell := by
  intro user listed
  obtain ⟨line, _, read⟩ := List.mem_filterMap.mp (List.mem_of_mem_take listed)
  exact passwdLine_shell read

def passwdInventory (passwd : String) : SystemInventory :=
  { accountsOnly (Accounts.parsePasswd passwd) with groups := [⟨"wheel", none, []⟩] }

end SentinelAgent.Inventory
