import Mathlib.Data.List.Dedup
import SentinelAgent.Edr.IpBlock
import SentinelAgent.Library.Runs

/- The rules of each address over any sequence of blocks and unblocks. -/
namespace SentinelAgent.Edr.IpBlock
open Batches Isolation Response
open AddressBlocks (canonical blockAddress checkBlock)

/- One rule for each address and direction, of addresses as they are blocked. -/
structure OneEach (rules : List BlockRule) : Prop where
  nodup : rules.Nodup
  canon : ∀ rule ∈ rules, canonical rule.address = rule.address

def otherRules (a : IpAddr) (rules : List BlockRule) : List BlockRule :=
  rules.filter fun rule => rule.address ≠ a

section Commands
variable {backend : Backend} {rules : List BlockRule} {a : IpAddr}

theorem OneEach.filter (one : OneEach rules) (p : BlockRule → Bool) : OneEach (rules.filter p) where
  nodup := one.nodup.filter p
  canon rule member := one.canon rule (List.mem_of_mem_filter member)

/- Both firewalls delete the one rule. -/
theorem delete_rule (one : OneEach rules) {rule : BlockRule}
    (canon : canonical rule.address = rule.address) :
    runCommand backend rules (.delete rule) =
      if rule ∈ rules then some (rules.filter (· ≠ rule)) else none := by
  cases backend with
  | iptables => simp only [runCommand, one.nodup.erase_eq_filter, bne_iff_ne, ne_eq, decide_not]; rfl
  | netsh =>
    have named : rules.any (·.name == rule.name) = decide (rule ∈ rules) := by
      rw [Bool.eq_iff_iff, List.any_eq_true, decide_eq_true_eq]
      constructor
      · rintro ⟨other, member, same⟩
        rw [beq_iff_eq, name_inj (one.canon other member) canon] at same
        rwa [← same]
      · intro member
        exact ⟨rule, member, by simp⟩
    have kept : rules.filter (·.name != rule.name) = rules.filter (· ≠ rule) := by
      refine List.filter_congr fun other member => ?_
      rw [Bool.eq_iff_iff, bne_iff_ne, ne_eq, name_inj (one.canon other member) canon,
        decide_eq_true_eq]
    simp only [runCommand, named, kept, decide_eq_true_eq]

theorem delete_getD (one : OneEach rules) {rule : BlockRule}
    (canon : canonical rule.address = rule.address) :
    (runCommand backend rules (.delete rule)).getD rules = rules.filter (· ≠ rule) := by
  rw [delete_rule one canon]
  split
  · rfl
  · rename_i missing
    refine (List.filter_eq_self.mpr fun other member => ?_).symm
    rw [decide_eq_true_eq]
    rintro rfl
    exact missing member

/- Deleting rules of one address, whatever is refused, leaves the others. -/
theorem lifting_keeps (one : OneEach rules) (canon : canonical a = a) {gone : List BlockRule}
    (its : ∀ rule ∈ gone, rule.address = a) (refused : Nat → Bool) :
    let after := bestEffort (runCommand backend) rules (gone.map .delete) refused
    OneEach after ∧ otherRules a after = otherRules a rules ∧ ∀ rule ∈ after, rule ∈ rules := by
  induction gone generalizing rules refused with
  | nil => exact ⟨one, rfl, fun _ member => member⟩
  | cons rule gone ih =>
    have rule_canon : canonical rule.address = rule.address := by
      rw [its rule List.mem_cons_self]
      exact canon
    have first : OneEach (after (runCommand backend) rules (.delete rule) (refused 0)) ∧
        otherRules a (after (runCommand backend) rules (.delete rule) (refused 0)) =
          otherRules a rules ∧
        ∀ other ∈ after (runCommand backend) rules (.delete rule) (refused 0), other ∈ rules := by
      rw [after, delete_getD one rule_canon]
      split
      · exact ⟨one, rfl, fun _ member => member⟩
      · refine ⟨one.filter _, ?_, fun _ => List.mem_of_mem_filter⟩
        rw [otherRules, otherRules, List.filter_filter]
        refine List.filter_congr fun other _ => ?_
        rw [Bool.eq_iff_iff, Bool.and_eq_true, decide_eq_true_eq, decide_eq_true_eq]
        constructor
        · exact fun both => both.1
        · intro apart
          refine ⟨apart, ?_⟩
          rintro rfl
          exact apart (its other List.mem_cons_self)
    obtain ⟨now, others, members⟩ := first
    obtain ⟨good, rest, more⟩ := ih now (fun other member =>
      its other (List.mem_cons_of_mem _ member)) (later refused)
    exact ⟨good, rest.trans others, fun other member => members other (more other member)⟩

theorem both_address : ∀ rule ∈ both a, rule.address = a := by simp [both]

theorem mem_both {rule : BlockRule} : rule ∈ both a ↔ rule.address = a := by
  obtain ⟨incoming, address⟩ := rule
  cases incoming <;> simp [both]

/- Where nothing is refused that was there, no rule of the address is left. -/
theorem lifted (one : OneEach rules) (canon : canonical a = a) {refused : Nat → Bool}
    (harmless : Harmless (runCommand backend) rules (unblockCommands a) refused) :
    bestEffort (runCommand backend) rules (unblockCommands a) refused = otherRules a rules := by
  rw [bestEffort_harmless (runCommand backend) harmless]
  simp only [unblockCommands, both, List.map_cons, List.map_nil, bestEffort, after_never]
  rw [delete_getD one canon, later_never, after_never, delete_getD (one.filter _) canon,
    List.filter_filter, otherRules]
  refine List.filter_congr fun other _ => ?_
  have its : other.address = a ↔ other ∈ both a := mem_both.symm
  rw [Bool.eq_iff_iff, Bool.and_eq_true, decide_eq_true_eq, decide_eq_true_eq, decide_eq_true_eq,
    ← not_or, ne_eq, its]
  simp [both, or_comm]

theorem unblock_rules (refused : Refusals) : (unblock backend a refused rules).1 =
    bestEffort (runCommand backend) rules (unblockCommands a) refused.lift := by
  have one_after (s : List BlockRule) (c : RuleCommand) (refuse : Bool) :
      (if refuse then none else runCommand backend s c).getD s =
        after (runCommand backend) s c refuse := by
    cases refuse <;> rfl
  simp only [unblock, one_after]
  rfl

end Commands

/- What one call is to do: one rule for each address and direction, a blocked address stays
   blocked where its block fails, none of its rules is left by an unblock that succeeds, and
   the rules of the other addresses stay. -/
def Identified (backend : Backend) (rules : List BlockRule) (call : BlockCall) : Prop :=
  let (after, done) := runCall backend rules call
  after.Nodup ∧
  match call with
  | .block ip _ _ => ∀ a, blockAddress parseIpAddr ip = some a →
      (done = false → (∀ rule ∈ both a, rule ∈ rules) → ∀ rule ∈ both a, rule ∈ after) ∧
      otherRules a after = otherRules a rules
  | .unblock ip _ => ∀ a, blockAddress parseIpAddr ip = some a →
      (done = true → ∀ rule ∈ after, rule.address ≠ a) ∧
      otherRules a after = otherRules a rules

/- No deletion of a rule that is there fails, nothing fails while an address is blocked
   that is blocked already, and what is unblocked is no IPv4 address written as IPv6. -/
def Obeyed (backend : Backend) (rules : List BlockRule) : BlockCall → Prop
  | .block ip answers refused => ∀ a, checkBlock parseIpAddr ip answers = .ok a →
      Harmless (runCommand backend) rules (unblockCommands a) refused.lift ∧
      ((∀ rule ∈ both a, rule ∈ rules) → refused.add 0 = false ∧ refused.add 1 = false)
  | .unblock ip refused => ∀ a, parseIpAddr ip = some a → canonical a = a ∧
      Harmless (runCommand backend) rules (unblockCommands a) refused.lift

section Steps
variable {backend : Backend} {rules : List BlockRule} {a : IpAddr}

theorem block_address_canonical {ip : String} (reads : blockAddress parseIpAddr ip = some a) :
    canonical a = a := by
  rw [blockAddress, Option.map_eq_some_iff] at reads
  obtain ⟨parsed, _, rfl⟩ := reads
  exact AddressBlocks.canonical_canonical parsed

theorem add_rule (one : OneEach rules) {rule : BlockRule}
    (canon : canonical rule.address = rule.address) (missing : rule ∉ rules) :
    OneEach (rules ++ [rule]) where
  nodup := by
    rw [← List.concat_eq_append]
    exact one.nodup.concat missing
  canon other member := by
    rcases List.mem_append.mp member with before | added
    · exact one.canon other before
    · rw [List.mem_singleton] at added
      rw [added]
      exact canon

theorem otherRules_append (rules : List BlockRule) (incoming : Bool) :
    otherRules a (rules ++ [⟨incoming, a⟩]) = otherRules a rules := by
  simp [otherRules]

theorem otherRules_twice (rules : List BlockRule) :
    otherRules a (otherRules a rules) = otherRules a rules := by
  simp [otherRules, List.filter_filter]

theorem two_adds (s : List BlockRule) (first second : BlockRule) (rollback : List RuleCommand)
    (back refused : Nat → Bool) :
    orRollback (runCommand backend) rollback back s [.add first, .add second] refused =
      if refused 0 then (bestEffort (runCommand backend) s rollback back, false)
      else if refused 1 then
        (bestEffort (runCommand backend) (s ++ [first]) rollback back, false)
      else (s ++ [first] ++ [second], true) := by
  have at_first : later refused 0 = refused 1 := rfl
  cases none_in : refused 0 with
  | true => simp [orRollback, none_in]
  | false =>
    cases none_out : refused 1 with
    | true => simp [orRollback, none_in, at_first, none_out, runCommand]
    | false => simp [orRollback, none_in, at_first, none_out, runCommand]

/-- A block after all earlier rules of the address are gone: both rules are there, or it
    failed because one was refused. -/
theorem block_rules (one : OneEach rules) (canon : canonical a = a) (refused : Refusals)
    (harmless : Harmless (runCommand backend) rules (unblockCommands a) refused.lift) :
    OneEach (block backend a refused rules).1 ∧
      otherRules a (block backend a refused rules).1 = otherRules a rules ∧
      ((block backend a refused rules).2 = false →
        refused.add 0 = true ∨ refused.add 1 = true) := by
  have cleared : OneEach (otherRules a rules) := one.filter _
  have missing {rule : BlockRule} (its : rule.address = a) : rule ∉ otherRules a rules := by
    intro member
    rw [otherRules, List.mem_filter, decide_eq_true_eq] at member
    exact member.2 its
  have first : OneEach (otherRules a rules ++ [⟨true, a⟩]) :=
    add_rule cleared canon (missing rfl)
  have second : OneEach (otherRules a rules ++ [⟨true, a⟩] ++ [⟨false, a⟩]) := by
    refine add_rule first canon ?_
    rw [List.mem_append, not_or]
    exact ⟨missing rfl, by simp⟩
  have result : block backend a refused rules = orRollback (runCommand backend)
      (unblockCommands a) refused.undo (otherRules a rules) [.add ⟨true, a⟩, .add ⟨false, a⟩]
      refused.add := by
    rw [block, lifted one canon harmless]
    rfl
  rw [result, two_adds]
  split
  · rename_i none_in
    obtain ⟨good, others, _⟩ := @lifting_keeps backend _ a cleared canon _ both_address refused.undo
    exact ⟨good, others.trans (otherRules_twice rules), fun _ => Or.inl none_in⟩
  · split
    · rename_i none_out
      obtain ⟨good, others, _⟩ := @lifting_keeps backend _ a first canon _ both_address refused.undo
      exact ⟨good, others.trans ((otherRules_append _ true).trans (otherRules_twice rules)),
        fun _ => Or.inr none_out⟩
    · refine ⟨second, ?_, fun failed => ?_⟩
      · simp only [otherRules_append, otherRules_twice]
      · cases failed

theorem call_kept (one : OneEach rules) {call : BlockCall}
    (obeyed : Obeyed backend rules call) :
    OneEach (callStep backend rules call) ∧ Identified backend rules call := by
  cases call with
  | block ip answers refused =>
    rw [callStep, Identified, runCall]
    cases checked : checkBlock parseIpAddr ip answers with
    | error text => exact ⟨one, one.nodup, fun a reads => ⟨fun _ blocked => blocked, rfl⟩⟩
    | ok address =>
      obtain ⟨harmless, accepted⟩ := obeyed address checked
      have reads := AddressBlocks.check_reads checked
      obtain ⟨good, others, failed⟩ := block_rules one (block_address_canonical reads) refused
        harmless
      refine ⟨good, good.nodup, fun a its => ?_⟩
      obtain rfl : address = a := Option.some.inj (reads.symm.trans its)
      refine ⟨fun fails blocked => ?_, others⟩
      obtain ⟨first, second⟩ := accepted blocked
      rcases failed fails with none_in | none_out
      · rw [first] at none_in
        cases none_in
      · rw [second] at none_out
        cases none_out
  | unblock ip refused =>
    rw [callStep, Identified, runCall]
    cases parsed : parseIpAddr ip with
    | none => exact ⟨one, one.nodup, fun a reads => by simp [blockAddress, parsed] at reads⟩
    | some address =>
      obtain ⟨canon, harmless⟩ := obeyed address parsed
      simp only
      rw [unblock_rules, lifted one canon harmless]
      refine ⟨one.filter _, (one.filter _).nodup, fun a its => ?_⟩
      have same : a = address := by
        rw [blockAddress, parsed, Option.map_some, canon] at its
        exact (Option.some.inj its).symm
      rw [same]
      refine ⟨fun _ rule member => ?_, otherRules_twice rules⟩
      rw [otherRules, List.mem_filter, decide_eq_true_eq] at member
      exact member.2

end Steps

/-- Different addresses that are blocked have no rule name in common, and the rules of each
    are kept apart along every run in which no command that has an effect is refused while
    rules are there. -/
theorem rules_identified (backend : Backend) (rules : List BlockRule) (one : OneEach rules)
    (calls : List BlockCall)
    (obeyed : Runs.Along (callStep backend) (Obeyed backend) rules calls) :
    (∀ a b : IpAddr, canonical a = a → canonical b = b → a ≠ b →
      ∀ name ∈ netshRuleNames a, name ∉ netshRuleNames b) ∧
    Runs.Along (callStep backend) (Identified backend) rules calls := by
  have kept (rules : List BlockRule) (call : BlockCall) (good : OneEach rules)
      (meets : Obeyed backend rules call) := call_kept good meets
  exact ⟨fun _ _ => names_disjoint,
    Runs.along_imp (I := OneEach) (fun rules call good meets => (kept rules call good meets).2)
      (fun rules call good meets => (kept rules call good meets).1) one obeyed⟩

def willingFirewall : Refusals := ⟨never, never, never⟩

def noEssentials : AddressBlocks.BlockAnswers :=
  ⟨fun _ => false, [], [], .done, ⟨false, .written⟩, 0⟩

def otherAddress : IpAddr := .v6 (Fin.ofNat _ 0xffff0001000200030004)

def blockedOnce : List BlockCall :=
  [.block "203.0.113.7" noEssentials willingFirewall, .unblock "203.0.113.7" willingFirewall]

theorem once_obeyed : Runs.Along (callStep .netsh) (Obeyed .netsh) [] blockedOnce := by
  have read : parseIpAddr "203.0.113.7" = some (.v4 (Fin.ofNat _ 0xcb007107)) := by decide
  refine ⟨fun a _ => ⟨harmless_never _ _ _, fun _ => ⟨rfl, rfl⟩⟩, fun a parsed => ⟨?_,
    harmless_never _ _ _⟩, trivial⟩
  rw [read] at parsed
  rw [← Option.some.inj parsed]
  rfl

theorem rules_identified_once :
    Runs.Along (callStep .netsh) (Identified .netsh) [] blockedOnce :=
  (rules_identified .netsh [] ⟨List.nodup_nil, by simp⟩ blockedOnce once_obeyed).2

/- 1.2.3.4 is not blocked; unblocked as ::ffff:1.2.3.4, its command deletes the rules of
   ::ffff:1:2:3:4. -/
theorem mapped_address_unblocks :
    let rules := callStep .netsh [] (.block "::ffff:1:2:3:4" noEssentials willingFirewall)
    rules = [⟨true, otherAddress⟩, ⟨false, otherAddress⟩] ∧
      runCall .netsh rules (.unblock "::ffff:1.2.3.4" willingFirewall) = ([], true) ∧
      blockAddress parseIpAddr "::ffff:1.2.3.4" = some (.v4 (Fin.ofNat _ 0x01020304)) ∧
      ¬ Identified .netsh rules (.unblock "::ffff:1.2.3.4" willingFirewall) := by
  have blocked : callStep .netsh [] (.block "::ffff:1:2:3:4" noEssentials willingFirewall) =
      [⟨true, otherAddress⟩, ⟨false, otherAddress⟩] := by
    decide
  have deleted : runCall .netsh [⟨true, otherAddress⟩, ⟨false, otherAddress⟩]
      (.unblock "::ffff:1.2.3.4" willingFirewall) = ([], true) := by
    decide
  have reads : blockAddress parseIpAddr "::ffff:1.2.3.4" = some (.v4 (Fin.ofNat _ 0x01020304)) := by
    decide
  simp only [blocked]
  refine ⟨trivial, deleted, reads, ?_⟩
  rw [Identified, deleted]
  rintro ⟨_, kept⟩
  exact absurd (kept _ reads).2 (by decide)

end SentinelAgent.Edr.IpBlock
