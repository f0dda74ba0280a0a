import SentinelAgent.Library.Batches
import SentinelAgent.Response.AddressBlocks
import SentinelAgent.Response.ManualActions

/-!
Blocking one address with iptables or with the Windows Firewall. The rules of an address
are named after it, and a Windows rule is deleted by its name.
-/
namespace SentinelAgent.Edr.IpBlock
open Batches Isolation Network Response
open AddressBlocks (canonical BlockAnswers checkBlock)

inductive Backend where
  | iptables
  | netsh
  deriving DecidableEq

/- The characters of an address that a rule name does not have. -/
def underscored (text : List Char) : List Char :=
  text.map fun c => if c = '.' ∨ c = ':' then '_' else c

def ruleBase (ip : IpAddr) : String :=
  "SentinelBlock_" ++ String.ofList (underscored (addressText ip).toList)

/- The incoming rule keeps the name it had before outgoing traffic was blocked. -/
def netshRuleNames (ip : IpAddr) : List String := [ruleBase ip, ruleBase ip ++ "_out"]

/- A rule dropping the traffic of one direction. -/
structure BlockRule where
  incoming : Bool
  address : IpAddr
  deriving DecidableEq

def BlockRule.name (rule : BlockRule) : String :=
  if rule.incoming then ruleBase rule.address else ruleBase rule.address ++ "_out"

inductive RuleCommand where
  | add (rule : BlockRule)
  | delete (rule : BlockRule)

def both (ip : IpAddr) : List BlockRule := [⟨true, ip⟩, ⟨false, ip⟩]

def blockCommands (ip : IpAddr) : List RuleCommand := (both ip).map .add

def unblockCommands (ip : IpAddr) : List RuleCommand := (both ip).map .delete

def RuleCommand.command (backend : Backend) : RuleCommand → Command
  | .add rule =>
    let address := addressText rule.address
    match backend with
    | .iptables => ⟨if rule.address.isIpv6 then "ip6tables" else "iptables",
        if rule.incoming then ["-I", "INPUT", "1", "-s", address, "-j", "DROP"]
        else ["-I", "OUTPUT", "1", "-d", address, "-j", "DROP"]⟩
    | .netsh => ⟨"netsh", ["advfirewall", "firewall", "add", "rule", "name=" ++ rule.name,
        if rule.incoming then "dir=in" else "dir=out", "action=block", "remoteip=" ++ address]⟩
  | .delete rule =>
    let address := addressText rule.address
    match backend with
    | .iptables => ⟨if rule.address.isIpv6 then "ip6tables" else "iptables",
        if rule.incoming then ["-D", "INPUT", "-s", address, "-j", "DROP"]
        else ["-D", "OUTPUT", "-d", address, "-j", "DROP"]⟩
    | .netsh => ⟨"netsh", ["advfirewall", "firewall", "delete", "rule", "name=" ++ rule.name]⟩

/- iptables deletes one rule for the address and the direction, netsh every rule of the
   name; where there is none, the command fails. -/
def runCommand (backend : Backend) (rules : List BlockRule) : RuleCommand → Option (List BlockRule)
  | .add rule => some (rules ++ [rule])
  | .delete rule =>
    match backend with
    | .iptables => if rule ∈ rules then some (rules.erase rule) else none
    | .netsh =>
      if rules.any (·.name == rule.name) then some (rules.filter (·.name != rule.name)) else none

/- What is refused to the commands of one call, by their number. -/
structure Refusals where
  lift : Nat → Bool
  add : Nat → Bool
  undo : Nat → Bool

section Calls
variable (backend : Backend)

/- In both directions, or not at all. -/
def block (ip : IpAddr) (refused : Refusals) (rules : List BlockRule) : List BlockRule × Bool :=
  let lifted := bestEffort (runCommand backend) rules (unblockCommands ip) refused.lift
  orRollback (runCommand backend) (unblockCommands ip) refused.undo lifted (blockCommands ip)
    refused.add

/- Fails when no rule could be removed. -/
def unblock (ip : IpAddr) (refused : Refusals) (rules : List BlockRule) : List BlockRule × Bool :=
  let first := if refused.lift 0 then none else runCommand backend rules (.delete ⟨true, ip⟩)
  let between := first.getD rules
  let second := if refused.lift 1 then none else runCommand backend between (.delete ⟨false, ip⟩)
  (second.getD between, first.isSome || second.isSome)

inductive BlockCall where
  | block (ip : String) (answers : BlockAnswers) (refused : Refusals)
  | unblock (ip : String) (refused : Refusals)

/- `block_ip` and `unblock_ip`, as far as the rules go. -/
def runCall (rules : List BlockRule) : BlockCall → List BlockRule × Bool
  | .block ip answers refused =>
    match checkBlock parseIpAddr ip answers with
    | .error _ => (rules, false)
    | .ok address => block backend address refused rules
  | .unblock ip refused =>
    match parseIpAddr ip with
    | none => (rules, false)
    | some address => unblock backend address refused rules

def callStep (rules : List BlockRule) (call : BlockCall) : List BlockRule :=
  (runCall backend rules call).1

end Calls

section Names

theorem mem_groupsText {c : Char} {groups : List Nat} (member : c ∈ groupsText groups) :
    c = ':' ∨ ∃ group, c ∈ Nat.toDigits 16 group := by
  match groups with
  | [] => simp [groupsText] at member
  | [group] => exact Or.inr ⟨group, by simpa [groupsText] using member⟩
  | group :: next :: groups =>
    rw [groupsText_cons, List.mem_append, List.mem_cons] at member
    rcases member with here | colon | later
    · exact Or.inr ⟨group, here⟩
    · exact Or.inl colon
    · exact mem_groupsText later

section Marks
variable {mark : Char} (no_digit : ∀ digit < 16, digit.digitChar ≠ mark)
include no_digit

theorem mark_notMem_groups (no_colon : mark ≠ ':') (groups : List Nat) :
    mark ∉ groupsText groups := by
  intro member
  rcases mem_groupsText member with colon | ⟨group, digit⟩
  · exact no_colon colon
  · exact mark_notMem_digits no_digit (by omega) (by omega) group digit

theorem mark_notMem_ipv6 (no_colon : mark ≠ ':') {address : Nat}
    (not_mapped : address / 2 ^ 32 ≠ 0xffff) : mark ∉ ipv6Text address := by
  have groups := mark_notMem_groups no_digit no_colon
  rw [ipv6Text, if_neg not_mapped]
  simp only
  split
  · simp [groups, no_colon]
  · exact groups _

theorem mark_notMem_ipv4 (no_dot : mark ≠ '.') (address : Nat) : mark ∉ ipv4Text address := by
  have digits (n : Nat) := mark_notMem_digits no_digit (by omega : 10 ≤ 16) (by omega) n
  rw [ipv4Text_eq]
  simp [digits, no_dot]

end Marks

/- What was one mark before is told from its place among the others only. -/
theorem underscored_inj {first second : List Char} {mark : Char} (marks : mark = '.' ∨ mark = ':')
    (plain : ∀ c ∈ first, c ≠ '_' ∧ (c = '.' ∨ c = ':' → c = mark))
    (plain' : ∀ c ∈ second, c ≠ '_' ∧ (c = '.' ∨ c = ':' → c = mark))
    (same : underscored first = underscored second) : first = second := by
  have restored {text : List Char} (plain : ∀ c ∈ text, c ≠ '_' ∧ (c = '.' ∨ c = ':' → c = mark)) :
      (underscored text).map (fun c => if c = '_' then mark else c) = text := by
    rw [underscored, List.map_map]
    refine (List.map_congr_left fun c member => ?_).trans (List.map_id text)
    obtain ⟨other, its⟩ := plain c member
    by_cases sep : c = '.' ∨ c = ':'
    · simp only [Function.comp_apply, its sep, if_pos marks, if_true, id_eq]
    · simp only [Function.comp_apply, if_neg sep, if_neg other, id_eq]
  rw [← restored plain, ← restored plain', same]

theorem not_mapped {address : Fin (2 ^ 128)} (canon : canonical (.v6 address) = .v6 address) :
    address.val / 2 ^ 32 ≠ 0xffff := by
  intro mapped
  rw [canonical, if_pos mapped] at canon
  cases canon

theorem underscored_digits {base : Nat} (small : base ≤ 16) (large : 1 < base) (n : Nat) :
    underscored (Nat.toDigits base n) = Nat.toDigits base n := by
  refine (List.map_congr_left fun c member => ?_).trans (List.map_id _)
  have dot := @mark_notMem_digits '.' (by decide) base small large n
  have colon := @mark_notMem_digits ':' (by decide) base small large n
  refine if_neg ?_
  rintro (rfl | rfl)
  · exact dot member
  · exact colon member

/- The text of an IPv4 address has four parts, none of them empty. -/
theorem splitOn_ipv4 (address : Nat) : (underscored (ipv4Text address)).splitOn '_' =
    (octets address).map (Nat.toDigits 10) := by
  have joined : underscored (ipv4Text address) =
      ['_'].intercalate ((octets address).map (Nat.toDigits 10)) := by
    have digits (n : Nat) := underscored_digits (by omega : 10 ≤ 16) (by omega) n
    rw [ipv4Text_eq]
    simp only [underscored, List.map_append, List.map_cons] at digits ⊢
    simp [digits, octets, List.range, List.range.loop, List.intercalate]
  rw [joined]
  refine List.splitOn_intercalate '_' ?_ (by simp [octets])
  intro piece member
  obtain ⟨n, _, rfl⟩ := List.mem_map.mp member
  exact mark_notMem_digits (by decide) (by omega) (by omega) n

theorem underscored_groups (groups : List Nat) :
    underscored (groupsText groups) = ['_'].intercalate (groups.map (Nat.toDigits 16)) := by
  have digits (n : Nat) := underscored_digits (by omega : 16 ≤ 16) (by omega) n
  match groups with
  | [] => rfl
  | [group] => simpa [groupsText] using digits group
  | group :: next :: groups =>
    have rest := underscored_groups (next :: groups)
    rw [groupsText_cons]
    simp only [underscored, List.map_append, List.map_cons] at digits rest ⊢
    rw [rest, digits]
    simp [List.intercalate]

/- An IPv6 address has eight parts, or an empty one. -/
theorem splitOn_ipv6 {address : Nat} (not_mapped : address / 2 ^ 32 ≠ 0xffff) :
    [] ∈ (underscored (ipv6Text address)).splitOn '_' ∨
      ((underscored (ipv6Text address)).splitOn '_').length = 8 := by
  by_cases zeros : 1 < (leftOut address).2
  · left
    have text := @shortened_text [] address not_mapped zeros
    rw [List.append_nil, List.append_nil] at text
    rw [text]
    simp only [underscored, List.map_append, List.map_cons, or_true, if_true]
    rw [List.splitOn_append_cons_self]
    refine List.mem_append_right _ ?_
    rw [List.splitOn_cons_eq_if_modifyHead]
    simp
  · right
    have text : ipv6Text address = groupsText (segments address) := by
      rw [leftOut] at zeros
      rw [ipv6Text, if_neg not_mapped]
      simp only [zeros, if_false]
    rw [text, underscored_groups, List.splitOn_intercalate '_' ?_ ?_, List.length_map,
      length_segments]
    · intro piece member
      obtain ⟨n, _, rfl⟩ := List.mem_map.mp member
      exact mark_notMem_digits (by decide) (by omega) (by omega) n
    · intro none_left
      have groups := length_segments address
      rw [List.map_eq_nil_iff.mp none_left] at groups
      cases groups

theorem apart_families (first : Nat) {second : Nat} (not_mapped : second / 2 ^ 32 ≠ 0xffff) :
    underscored (ipv4Text first) ≠ underscored (ipv6Text second) := by
  intro same
  have pieces := splitOn_ipv6 not_mapped
  rw [← same, splitOn_ipv4] at pieces
  rcases pieces with empty | eight
  · obtain ⟨n, _, none_there⟩ := List.mem_map.mp empty
    exact Nat.toDigits_ne_nil none_there
  · simp [octets] at eight

/-- The name says which address a rule is about, among those that are blocked. -/
theorem ruleBase_inj {a b : IpAddr} (canon : canonical a = a) (canon' : canonical b = b)
    (same : ruleBase a = ruleBase b) : a = b := by
  have texts : underscored (addressText a).toList = underscored (addressText b).toList := by
    have tails : String.ofList (underscored (addressText a).toList) =
        String.ofList (underscored (addressText b).toList) := (String.append_right_inj _).mp same
    exact String.ofList_injective tails
  have read : (addressText a).toList = (addressText b).toList := by
    cases a with
    | v4 first =>
      cases b with
      | v4 second =>
        rw [addressText, addressText, String.toList_ofList, String.toList_ofList] at texts ⊢
        have plain (address : Nat) : ∀ c ∈ ipv4Text address, c ≠ '_' ∧ (c = '.' ∨ c = ':' → c = '.') := by
          intro c member
          have no_line := @mark_notMem_ipv4 '_' (by decide) (by decide) address
          have no_colon := @mark_notMem_ipv4 ':' (by decide) (by decide) address
          refine ⟨fun its => no_line (its ▸ member), ?_⟩
          rintro (dot | colon)
          · exact dot
          · exact absurd (colon ▸ member) no_colon
        exact underscored_inj (Or.inl rfl) (plain _) (plain _) texts
      | v6 second =>
        rw [addressText, addressText, String.toList_ofList, String.toList_ofList] at texts
        exact absurd texts (apart_families first.val (not_mapped canon'))
    | v6 first =>
      cases b with
      | v4 second =>
        rw [addressText, addressText, String.toList_ofList, String.toList_ofList] at texts
        exact absurd texts.symm (apart_families second.val (not_mapped canon))
      | v6 second =>
        rw [addressText, addressText, String.toList_ofList, String.toList_ofList] at texts ⊢
        have plain {address : Nat} (other : address / 2 ^ 32 ≠ 0xffff) :
            ∀ c ∈ ipv6Text address, c ≠ '_' ∧ (c = '.' ∨ c = ':' → c = ':') := by
          intro c member
          have no_line := @mark_notMem_ipv6 '_' (by decide) (by decide) address other
          have no_dot := @mark_notMem_ipv6 '.' (by decide) (by decide) address other
          refine ⟨fun its => no_line (its ▸ member), ?_⟩
          rintro (dot | colon)
          · exact absurd (dot ▸ member) no_dot
          · exact colon
        exact underscored_inj (Or.inr rfl) (plain (not_mapped canon)) (plain (not_mapped canon'))
          texts
  have parsed := parse_text a
  rw [← @String.ofList_toList (addressText a), read, String.ofList_toList, parse_text] at parsed
  exact (Option.some.inj parsed).symm

/- No name of an incoming rule ends as those of the outgoing ones do. -/
theorem ruleBase_ne_out {a : IpAddr} (canon : canonical a = a) (b : IpAddr) :
    ruleBase a ≠ ruleBase b ++ "_out" := by
  intro same
  have letter : 't' ∉ underscored (addressText a).toList := by
    intro member
    obtain ⟨c, there, its⟩ := List.mem_map.mp member
    have is_t : c = 't' := by
      split at its
      · cases its
      · exact its
    subst is_t
    cases a with
    | v4 address =>
      rw [addressText, String.toList_ofList] at there
      exact mark_notMem_ipv4 (by decide) (by decide) address.val there
    | v6 address =>
      rw [addressText, String.toList_ofList] at there
      exact mark_notMem_ipv6 (by decide) (by decide) (not_mapped canon) there
  have out : ("_out" : String).toList = ['_', 'o', 'u', 't'] := by decide
  rw [ruleBase, ruleBase, String.append_assoc] at same
  have rest := congrArg String.toList ((String.append_right_inj _).mp same)
  rw [String.toList_append, String.toList_ofList, out] at rest
  rw [rest] at letter
  simp at letter

/-- Two addresses that can be blocked have no rule name in common. -/
theorem names_disjoint {a b : IpAddr} (canon : canonical a = a) (canon' : canonical b = b)
    (apart : a ≠ b) : ∀ name ∈ netshRuleNames a, name ∉ netshRuleNames b := by
  intro name first second
  simp only [netshRuleNames, List.mem_cons, List.not_mem_nil, or_false] at first second
  rcases first with rfl | rfl
  · rcases second with same | same
    · exact apart (ruleBase_inj canon canon' same)
    · exact ruleBase_ne_out canon b same
  · rcases second with same | same
    · exact ruleBase_ne_out canon' a same.symm
    · refine apart (ruleBase_inj canon canon' ?_)
      exact (String.append_left_inj _).mp same

/- A rule is told by its name. -/
theorem name_inj {first second : BlockRule} (canon : canonical first.address = first.address)
    (canon' : canonical second.address = second.address) :
    first.name = second.name ↔ first = second := by
  constructor
  · obtain ⟨incoming, a⟩ := first
    obtain ⟨incoming', b⟩ := second
    intro same
    cases incoming <;> cases incoming'
    · have bases : ruleBase a = ruleBase b := (String.append_left_inj _).mp same
      exact congrArg _ (ruleBase_inj canon canon' bases)
    · exact absurd same.symm (ruleBase_ne_out canon' a)
    · exact absurd same (ruleBase_ne_out canon b)
    · exact congrArg _ (ruleBase_inj canon canon' same)
  · rintro rfl
    rfl

end Names

end SentinelAgent.Edr.IpBlock
