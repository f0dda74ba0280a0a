import SentinelAgent.Response.HostIsolation

/- The batches that lift the rules: what they leave, and when they leave nothing. -/
namespace SentinelAgent.Isolation
open Batches

/- Windows. -/
def OwnNames (rules : List NetshRule) : Prop := ∀ rule ∈ rules, rule.name ∈ netshRules

theorem netshDelete_effect (rules : List NetshRule) (name : String) :
    (runNetsh rules (.delete name)).getD rules = rules.filter (·.name != name) := by
  rw [runNetsh]
  split
  · rfl
  · rename_i absent
    simp only [Option.getD_none]
    symm
    rw [List.filter_eq_self]
    intro rule member
    simp only [Bool.not_eq_true, List.any_eq_false, beq_iff_eq] at absent
    simpa using absent rule member

theorem netsh_deleted (rules : List NetshRule) (names : List String) :
    bestEffort runNetsh rules (names.map .delete) never =
      rules.filter fun rule => decide (rule.name ∉ names) := by
  induction names generalizing rules with
  | nil => simp [bestEffort]
  | cons name names ih =>
    rw [List.map_cons, bestEffort, after_never, later_never, ih, netshDelete_effect,
      List.filter_filter]
    congr 1
    funext rule
    by_cases same : rule.name = name <;> simp [same]

def netshTrace (command : NetshCommand) (rules : List NetshRule) : Prop :=
  match command with
  | .add _ => False
  | .delete name => ∃ rule ∈ rules, rule.name = name

theorem netsh_cleared_iff {rules : List NetshRule} (own : OwnNames rules) (refused : Nat → Bool) :
    bestEffort runNetsh rules netshRelease refused = [] ↔
      Harmless runNetsh rules netshRelease refused := by
  constructor
  · intro cleared
    apply harmless_of_cleared runNetsh netshTrace
    · intro command member rules effective
      obtain ⟨name, _, rfl⟩ := List.mem_map.mp member
      by_contra absent
      apply effective
      rw [netshDelete_effect, List.filter_eq_self]
      intro rule among
      simpa using fun same => absent ⟨rule, among, same⟩
    · rw [netshRelease, List.pairwise_map]
      have distinct : netshRules.Pairwise (· ≠ ·) := by decide
      apply distinct.imp
      rintro name other different rules ⟨rule, member, rfl⟩
      rw [netshDelete_effect]
      exact ⟨rule, List.mem_filter.mpr ⟨member, by simpa using different⟩, rfl⟩
    · intro command member
      obtain ⟨name, _, rfl⟩ := List.mem_map.mp member
      rintro ⟨rule, among, _⟩
      rw [cleared] at among
      exact List.not_mem_nil among
  · intro harmless
    rw [bestEffort_harmless runNetsh harmless, netshRelease, netsh_deleted,
      List.filter_eq_nil_iff]
    intro rule member
    simpa using own rule member

/- Linux, one family. -/
structure Tidy (table : Netfilter) : Prop where
  input : table.hooks .input = [] ∨ table.hooks .input = [.isoIn]
  output : table.hooks .output = [] ∨ table.hooks .output = [.isoOut]
  forward : table.hooks .forward = [] ∨ table.hooks .forward = [.isoOut]

theorem deleteHook_effect (table : Netfilter) (hook : Hook) (chain : Chain) :
    (table.run (.deleteHook hook chain)).getD table = { table with
      hooks := Function.update table.hooks hook ((table.hooks hook).erase chain) } := by
  rw [Netfilter.run]
  split
  · rfl
  · rename_i absent
    rw [List.erase_of_not_mem absent, Function.update_eq_self]
    rfl

theorem flush_effect (table : Netfilter) (chain : Chain) :
    (table.run (.flush chain)).getD table = { table with
      chains := Function.update table.chains chain ((table.chains chain).map fun _ => []) } := by
  cases found : table.chains chain with
  | none =>
    have same : Function.update table.chains chain none = table.chains := by
      rw [← found, Function.update_eq_self]
    simp [Netfilter.run, found, same]
  | some rules => simp [Netfilter.run, found]

theorem deleteChain_effect {table : Netfilter} {chain : Chain}
    (empty : table.chains chain = none ∨ table.chains chain = some [])
    (free : table.hooked chain = false) :
    (table.run (.deleteChain chain)).getD table = { table with
      chains := Function.update table.chains chain none } := by
  rw [Netfilter.run]
  rcases empty with absent | empty
  · have same : Function.update table.chains chain none = table.chains := by
      rw [← absent, Function.update_eq_self]
    simp [absent, same]
  · simp [empty, free]

theorem release_one {table : Netfilter} (tidy : Tidy table) :
    bestEffort Netfilter.run table iptablesReleaseOne never = .notIsolated table.own := by
  have unhooked : bestEffort Netfilter.run table [.deleteHook .input .isoIn,
      .deleteHook .output .isoOut, .deleteHook .forward .isoOut] never =
      ⟨table.chains, fun _ => [], table.own⟩ := by
    simp only [bestEffort, after, never, Bool.false_eq_true, if_false, later, deleteHook_effect]
    congr 1
    funext hook
    cases hook with
    | input => rcases tidy.input with none | one <;> simp [*]
    | output => rcases tidy.output with none | one <;> simp [*]
    | forward => rcases tidy.forward with none | one <;> simp [*]
  have emptied : ∀ chains : Chain → Option (List IptRule), ∀ chain,
      bestEffort Netfilter.run ⟨chains, fun _ => [], table.own⟩ [.flush chain, .deleteChain chain]
        never = ⟨Function.update chains chain none, fun _ => [], table.own⟩ := by
    intro chains chain
    simp only [bestEffort, after, never, Bool.false_eq_true, if_false, later, flush_effect]
    rw [deleteChain_effect]
    · simp
    · cases chains chain <;> simp
    · simp [Netfilter.hooked]
  have split : iptablesReleaseOne = [.deleteHook .input .isoIn, .deleteHook .output .isoOut,
      .deleteHook .forward .isoOut] ++ [.flush .isoIn, .deleteChain .isoIn] ++
      [.flush .isoOut, .deleteChain .isoOut] := rfl
  rw [split, bestEffort_append, bestEffort_append, unhooked, emptied, emptied,
    Netfilter.notIsolated]
  congr 1
  funext chain
  cases chain <;> rfl

/- Both families. -/
def notIsolated (tables : Bool → Netfilter) : Bool → Netfilter :=
  fun ipv6 => .notIsolated (tables ipv6).own

theorem run_family (tables : Bool → Netfilter) (ipv6 : Bool) (command : IptCommand) :
    (runIptables tables (ipv6, command)).getD tables =
      Function.update tables ipv6 (((tables ipv6).run command).getD (tables ipv6)) := by
  rw [runIptables]
  cases (tables ipv6).run command with
  | none => simp
  | some table => rfl

theorem release_family (tables : Bool → Netfilter) (ipv6 : Bool) (commands : List IptCommand) :
    bestEffort runIptables tables (commands.map (ipv6, ·)) never =
      Function.update tables ipv6 (bestEffort Netfilter.run (tables ipv6) commands never) := by
  induction commands generalizing tables with
  | nil => simp [bestEffort]
  | cons command rest ih =>
    rw [List.map_cons, bestEffort, later_never, ih, bestEffort, later_never, after_never,
      after_never, run_family, Function.update_self, Function.update_idem]

theorem release_both {tables : Bool → Netfilter} (tidy : ∀ ipv6, Tidy (tables ipv6)) :
    bestEffort runIptables tables iptablesRelease never = notIsolated tables := by
  rw [iptablesRelease, bestEffort_append, release_family, release_family,
    Function.update_of_ne (by decide), release_one (tidy false), release_one (tidy true)]
  funext ipv6
  cases ipv6 <;> rfl

def iptTrace (command : Bool × IptCommand) (tables : Bool → Netfilter) : Prop :=
  match command.2 with
  | .deleteHook hook chain => chain ∈ (tables command.1).hooks hook
  | .flush chain => ∃ rule rules, (tables command.1).chains chain = some (rule :: rules)
  | .deleteChain chain => (tables command.1).chains chain = some []
  | _ => False

/- The second command does not remove what the first one is to remove. -/
def apart (first second : Bool × IptCommand) : Bool :=
  first.1 != second.1 || match first.2, second.2 with
    | .deleteHook hook _, .deleteHook other _ => hook != other
    | .deleteHook .., .flush _ => true
    | .deleteHook .., .deleteChain _ => true
    | .flush chain, .flush other => chain != other
    | .flush _, .deleteChain _ => true
    | .deleteChain _, .flush _ => true
    | .deleteChain chain, .deleteChain other => chain != other
    | _, _ => false

theorem trace_kept {first second : Bool × IptCommand} (different : apart first second = true)
    (tables : Bool → Netfilter) (trace : iptTrace first tables) :
    iptTrace first ((runIptables tables second).getD tables) := by
  obtain ⟨family, command⟩ := first
  obtain ⟨other, next⟩ := second
  rw [run_family]
  by_cases same : family = other
  · subst same
    simp only [apart, bne_self_eq_false, Bool.false_or] at different
    cases command <;> cases next <;> simp only [iptTrace, Function.update_self] at trace ⊢ <;>
      simp only [bne_iff_ne, Bool.false_eq_true] at different
    case deleteHook.deleteHook hook chain hook' chain' =>
      rw [deleteHook_effect]
      simpa [Function.update_of_ne different] using trace
    case deleteHook.flush => rwa [flush_effect]
    case deleteHook.deleteChain hook chain chain' =>
      simp only [Netfilter.run]
      split <;> exact trace
    case flush.flush chain chain' =>
      rw [flush_effect]
      simpa [Function.update_of_ne different] using trace
    case flush.deleteChain chain chain' =>
      obtain ⟨rule, rules, found⟩ := trace
      refine ⟨rule, rules, ?_⟩
      simp only [Netfilter.run]
      split
      · rename_i removed
        have different : chain ≠ chain' := by
          rintro rfl
          simp [found] at removed
        simpa [Function.update_of_ne different] using found
      · exact found
    case deleteChain.flush chain chain' =>
      rw [flush_effect]
      by_cases same : chain = chain'
      · subst same
        simp [trace]
      · simpa [Function.update_of_ne same] using trace
    case deleteChain.deleteChain chain chain' =>
      simp only [Netfilter.run]
      split
      · simpa [Function.update_of_ne different] using trace
      · exact trace
  · cases command <;> simp only [iptTrace, Function.update_of_ne same] at trace ⊢ <;> exact trace

theorem release_effect {command : Bool × IptCommand} (member : command ∈ iptablesRelease)
    {tables : Bool → Netfilter} (effective : (runIptables tables command).getD tables ≠ tables) :
    iptTrace command tables := by
  obtain ⟨family, command⟩ := command
  rw [run_family] at effective
  have changed : ((tables family).run command).getD (tables family) ≠ tables family := by
    intro same
    rw [same, Function.update_eq_self] at effective
    exact effective rfl
  cases command with
  | deleteHook hook chain =>
    by_contra absent
    apply changed
    rw [deleteHook_effect, List.erase_of_not_mem absent, Function.update_eq_self]
  | flush chain =>
    rw [flush_effect] at changed
    simp only [iptTrace]
    cases found : (tables family).chains chain with
    | none =>
      simp only [found, Option.map_none] at changed
      rw [← found, Function.update_eq_self] at changed
      exact absurd rfl changed
    | some rules =>
      cases rules with
      | nil =>
        simp only [found, Option.map_some] at changed
        rw [← found, Function.update_eq_self] at changed
        exact absurd rfl changed
      | cons rule rules => exact ⟨rule, rules, rfl⟩
  | deleteChain chain =>
    simp only [Netfilter.run] at changed
    split at changed
    · rename_i empty
      exact empty.1
    · exact absurd rfl changed
  | newChain chain => simp [iptablesRelease, iptablesReleaseOne] at member
  | append chain rule => simp [iptablesRelease, iptablesReleaseOne] at member
  | insertHook hook chain => simp [iptablesRelease, iptablesReleaseOne] at member

theorem tables_cleared_iff {tables : Bool → Netfilter} (tidy : ∀ ipv6, Tidy (tables ipv6))
    (refused : Nat → Bool) :
    bestEffort runIptables tables iptablesRelease refused = notIsolated tables ↔
      Harmless runIptables tables iptablesRelease refused := by
  constructor
  · intro cleared
    apply harmless_of_cleared runIptables iptTrace
    · exact fun command member tables effective => release_effect member effective
    · have distinct : iptablesRelease.Pairwise fun first second => apart first second = true := by
        decide
      exact distinct.imp fun different tables => trace_kept different tables
    · intro command member
      rw [cleared]
      simp only [iptablesRelease, iptablesReleaseOne, List.map_cons, List.map_nil, List.cons_append,
        List.nil_append, List.mem_cons, List.not_mem_nil, or_false] at member
      rcases member with rfl | rfl | rfl | rfl | rfl | rfl | rfl | rfl | rfl | rfl | rfl | rfl |
        rfl | rfl <;> simp [iptTrace, notIsolated, Netfilter.notIsolated]
  · intro harmless
    rw [bestEffort_harmless runIptables harmless, release_both tidy]

theorem run_own (table : Netfilter) (command : IptCommand) :
    ((table.run command).getD table).own = table.own := by
  cases command with
  | newChain chain => cases found : table.chains chain <;> simp [Netfilter.run, found]
  | append chain rule => cases found : table.chains chain <;> simp [Netfilter.run, found]
  | insertHook hook chain => cases found : table.chains chain <;> simp [Netfilter.run, found]
  | deleteHook hook chain => rw [deleteHook_effect]
  | flush chain => rw [flush_effect]
  | deleteChain chain =>
    simp only [Netfilter.run]
    split <;> rfl

theorem batch_own (tables : Bool → Netfilter) (commands : List (Bool × IptCommand))
    (refused : Nat → Bool) (family : Bool) :
    (bestEffort runIptables tables commands refused family).own = (tables family).own := by
  induction commands generalizing tables refused with
  | nil => rfl
  | cons command rest ih =>
    rw [bestEffort, ih, after]
    split
    · rfl
    · rw [run_family]
      by_cases same : family = command.1
      · subst same
        rw [Function.update_self, run_own]
      · rw [Function.update_of_ne same]

theorem no_tables_iff {tables : Bool → Netfilter} (tidy : ∀ ipv6, Tidy (tables ipv6))
    (refused : Nat → Bool) :
    (∀ family, bestEffort runIptables tables iptablesRelease refused family =
      .notIsolated (bestEffort runIptables tables iptablesRelease refused family).own) ↔
      Harmless runIptables tables iptablesRelease refused := by
  rw [← tables_cleared_iff tidy]
  constructor
  · intro none
    funext family
    rw [none family, notIsolated, batch_own]
  · intro cleared family
    rw [cleared, notIsolated]
    rfl

end SentinelAgent.Isolation
