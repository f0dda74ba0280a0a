import SentinelAgent.Response.IsolationRules

/- What the isolation rules let through on each system. -/
namespace SentinelAgent.Isolation
open Ranges

/- A packet at one end of the host's link. The state is what connection tracking
   says of it; ports are those of TCP and UDP. -/
structure Packet where
  direction : Direction
  loopback : Bool
  protocol : Protocol
  source : IpAddr
  destination : IpAddr
  sourcePort : Nat
  destinationPort : Nat
  ctstate : CtState
  one_family : source.isIpv6 = destination.isIpv6
  ports : sourcePort < 65536 ∧ destinationPort < 65536

namespace Packet

def ipv6 (p : Packet) : Bool := p.destination.isIpv6

def hasPorts (p : Packet) : Prop := p.protocol = .tcp ∨ p.protocol = .udp

def remote (p : Packet) : IpAddr :=
  match p.direction with
  | .outbound => p.destination
  | .inbound => p.source

/- The two packets go opposite ways between the same ends. -/
def Replies (p q : Packet) : Prop :=
  p.protocol = q.protocol ∧ p.source = q.destination ∧ p.destination = q.source ∧
    p.sourcePort = q.destinationPort ∧ p.destinationPort = q.sourcePort

def dhcpRequest (p : Packet) : Prop :=
  p.protocol = .udp ∧ p.destination = .broadcast ∧ p.destinationPort = 67

def dhcpReply (p : Packet) : Prop := p.protocol = .udp ∧ p.destinationPort = 68

end Packet

/- A test a rule may leave out. -/
def unlessGiven {α : Type} [DecidableEq α] (given : Option α) (value : α) : Bool :=
  given.all (· == value)

@[simp] theorem unlessGiven_none {α : Type} [DecidableEq α] (value : α) :
    unlessGiven none value = true := rfl

@[simp] theorem unlessGiven_some {α : Type} [DecidableEq α] (given value : α) :
    unlessGiven (some given) value = true ↔ value = given := by
  rw [unlessGiven, Option.all_some, beq_iff_eq, eq_comm]

/- pf: every rule is `quick`, the first that matches decides. -/
def PfHosts.allow (hosts : PfHosts) (p : Packet) : Bool :=
  unlessGiven hosts.fromPort p.sourcePort && unlessGiven hosts.toAddress p.destination &&
    unlessGiven hosts.toPort p.destinationPort

def PfRule.allows (rule : PfRule) (p : Packet) : Bool :=
  unlessGiven rule.direction p.direction && (!rule.onLoopback || p.loopback) &&
    unlessGiven rule.ipv6 p.ipv6 &&
    (rule.protocols.isEmpty || rule.protocols.contains p.protocol) &&
    rule.hosts.all (·.allow p)

/- A packet that no rule of the anchor matches goes on to the host's own. -/
def pfDecides (rules : List PfRule) (p : Packet) : Option PfRule := rules.find? (·.allows p)

def pfPasses (allowed dnsServers : List IpAddr) (p : Packet) : Prop :=
  ∃ rule, pfDecides (pfRules allowed dnsServers) p = some rule ∧ rule.pass = true

/- A pass keeps state unless it says not to. -/
def pfKeepsState (allowed dnsServers : List IpAddr) (p : Packet) : Prop :=
  ∃ rule, pfDecides (pfRules allowed dnsServers) p = some rule ∧ rule.pass = true ∧
    rule.state ≠ .noState

/- A packet of a kept state passes without the rules being read. -/
def pfAccepts (allowed dnsServers : List IpAddr) (earlier : List Packet) (p : Packet) : Prop :=
  pfPasses allowed dnsServers p ∨
    ∃ q ∈ earlier, pfKeepsState allowed dnsServers q ∧ p.Replies q

/- Linux: the tables of one family, as far as the isolation changes them. `own`
   is what the host's own rules say of a packet they are left. -/
structure Netfilter where
  chains : Chain → Option (List IptRule)
  hooks : Hook → List Chain
  own : Hook → Packet → Bool

namespace Netfilter

def notIsolated (own : Hook → Packet → Bool) : Netfilter := ⟨fun _ => none, fun _ => [], own⟩

def hooked (table : Netfilter) (chain : Chain) : Bool :=
  [Hook.input, .output, .forward].any fun hook => decide (chain ∈ table.hooks hook)

def run (table : Netfilter) : IptCommand → Option Netfilter
  | .newChain chain => match table.chains chain with
    | some _ => none
    | none => some { table with chains := Function.update table.chains chain (some []) }
  | .append chain rule => (table.chains chain).map fun rules =>
      { table with chains := Function.update table.chains chain (some (rules ++ [rule])) }
  | .insertHook hook chain => (table.chains chain).map fun _ =>
      { table with hooks := Function.update table.hooks hook (chain :: table.hooks hook) }
  | .deleteHook hook chain =>
      if chain ∈ table.hooks hook then
        some { table with
          hooks := Function.update table.hooks hook ((table.hooks hook).erase chain) }
      else none
  | .flush chain => (table.chains chain).map fun _ =>
      { table with chains := Function.update table.chains chain (some []) }
  | .deleteChain chain =>
      if table.chains chain = some [] ∧ table.hooked chain = false then
        some { table with chains := Function.update table.chains chain none }
      else none

def runAll (table : Netfilter) (commands : List IptCommand) : Option Netfilter :=
  commands.foldlM run table

end Netfilter

def IptRule.allows (rule : IptRule) (p : Packet) : Bool :=
  (!rule.inLoopback || (p.loopback && p.direction == .inbound)) &&
    (!rule.outLoopback || (p.loopback && p.direction == .outbound)) &&
    unlessGiven rule.protocol p.protocol && unlessGiven rule.source p.source &&
    unlessGiven rule.destination p.destination && unlessGiven rule.sourcePort p.sourcePort &&
    unlessGiven rule.destinationPort p.destinationPort && unlessGiven rule.ctstate p.ctstate

/- The verdict of a chain, where one of its rules gives one. -/
def chainVerdict (rules : List IptRule) (p : Packet) : Option Bool :=
  (rules.find? (·.allows p)).map (·.accept)

def Netfilter.accepts (table : Netfilter) (hook : Hook) (p : Packet) : Bool :=
  ((table.hooks hook).findSome? fun chain =>
    (table.chains chain).bind fun rules => chainVerdict rules p).getD (table.own hook p)

def hookOf : Direction → Hook
  | .inbound => .input
  | .outbound => .output

/- The packets the host accepts once the isolation's commands for the packet's
   family have run. -/
def iptablesAccepts (allowed dnsServers : List IpAddr) (own : Hook → Packet → Bool) (p : Packet) :
    Prop :=
  ∃ isolated, (Netfilter.notIsolated own).runAll (iptablesApply allowed dnsServers p.ipv6) =
    some isolated ∧ isolated.accepts (hookOf p.direction) p = true

/- Windows: a packet is blocked when any block rule matches. -/
def AddrRange.holds (addresses : AddrRange) (ip : IpAddr) : Bool :=
  addresses.ipv6 == ip.isIpv6 && decide (addresses.range.holds ip.value)

def NetshRule.blocks (rule : NetshRule) (p : Packet) : Bool :=
  rule.direction == p.direction && rule.protocol == p.protocol &&
    rule.remotePorts.all (fun ports => decide (covers ports p.destinationPort)) &&
    rule.localPorts.all (fun ports => decide (covers ports p.destinationPort)) &&
    rule.remoteIp.any fun group => group.any (·.holds p.remote)

def netshBlocks (allowed dnsServers : List IpAddr) (p : Packet) : Bool :=
  (netshApply allowed dnsServers).any (·.blocks p)

/- Replies to what went out come back whatever the inbound rules are. -/
def netshAccepts (allowed dnsServers : List IpAddr) (earlier : List Packet) (p : Packet) : Prop :=
  netshBlocks allowed dnsServers p = false ∨
    ∃ q ∈ earlier, q.direction = .outbound ∧ netshBlocks allowed dnsServers q = false ∧ p.Replies q

/- Linux. The chains the commands build. -/
def ChainRules (entries : List (Chain × IptRule)) (chain : Chain) : List IptRule :=
  (entries.filter (·.1 == chain)).map Prod.snd

theorem runAll_append (table : Netfilter) (entries : List (Chain × IptRule))
    (present : ∀ chain, (table.chains chain).isSome = true) :
    table.runAll (entries.map fun (chain, rule) => .append chain rule) =
      some { table with
        chains := fun chain => (table.chains chain).map (· ++ ChainRules entries chain) } := by
  induction entries generalizing table with
  | nil => simp [Netfilter.runAll, ChainRules, pure]
  | cons entry rest ih =>
    obtain ⟨chain, rule⟩ := entry
    obtain ⟨rules, found⟩ := Option.isSome_iff_exists.mp (present chain)
    have first : table.run (.append chain rule) = some { table with
        chains := Function.update table.chains chain (some (rules ++ [rule])) } := by
      simp [Netfilter.run, found]
    rw [List.map_cons, Netfilter.runAll, List.foldlM_cons]
    simp only [first]
    have later := ih { table with
      chains := Function.update table.chains chain (some (rules ++ [rule])) } (by
        intro other
        by_cases same : other = chain
        · simp [same]
        · simp [Function.update_of_ne same, present other])
    rw [Netfilter.runAll] at later
    rw [Option.bind_eq_bind, Option.bind_some, later]
    congr 2
    funext other
    by_cases same : other = chain
    · subst same
      simp [found, ChainRules]
    · simp [Function.update_of_ne same, ChainRules, Ne.symm same]

def chainOf : Direction → Chain
  | .inbound => .isoIn
  | .outbound => .isoOut

/- The tables of one family once its commands have run. -/
def Netfilter.isolated (allowed dnsServers : List IpAddr) (ipv6 : Bool)
    (own : Hook → Packet → Bool) : Netfilter :=
  { chains := fun chain => some (ChainRules (iptRules allowed dnsServers ipv6) chain)
    hooks := fun hook => if hook = .input then [.isoIn] else [.isoOut]
    own := own }

theorem runAll_apply (allowed dnsServers : List IpAddr) (ipv6 : Bool)
    (own : Hook → Packet → Bool) :
    (Netfilter.notIsolated own).runAll (iptablesApply allowed dnsServers ipv6) =
      some (.isolated allowed dnsServers ipv6 own) := by
  have created : (Netfilter.notIsolated own).runAll [.newChain .isoIn, .newChain .isoOut] =
      some ⟨fun _ => some [], fun _ => [], own⟩ := by
    have both : Function.update (Function.update (fun _ => none) Chain.isoIn (some []))
        Chain.isoOut (some []) = fun _ => some ([] : List IptRule) := by
      funext chain
      cases chain <;> rfl
    rw [← both]
    rfl
  have filled := runAll_append ⟨fun _ => some [], fun _ => [], own⟩
    (iptRules allowed dnsServers ipv6) fun _ => rfl
  have hooked : Function.update (Function.update (Function.update (fun _ => []) Hook.input
      [Chain.isoIn]) Hook.output [Chain.isoOut]) Hook.forward [Chain.isoOut] =
      fun hook => if hook = .input then [.isoIn] else [.isoOut] := by
    funext hook
    cases hook <;> rfl
  rw [iptablesApply, Netfilter.runAll, List.foldlM_append, List.foldlM_append]
  simp only [Netfilter.runAll] at created filled
  rw [created, Option.bind_eq_bind, Option.bind_some, filled, Option.bind_some,
    Netfilter.isolated, ← hooked]
  rfl

/- Every rule of a chain accepts but the last, which drops what is left. -/
theorem find_accepting {rules : List IptRule} (accepting : ∀ rule ∈ rules, rule.accept = true)
    (p : Packet) :
    chainVerdict (rules ++ [iptAny false]) p = some (rules.any (·.allows p)) := by
  induction rules with
  | nil => simp [chainVerdict, iptAny, IptRule.allows]
  | cons rule rest ih =>
    have rest_accepts : ∀ rule ∈ rest, rule.accept = true :=
      fun rule member => accepting rule (List.mem_cons_of_mem _ member)
    have ih := ih rest_accepts
    rw [chainVerdict] at ih ⊢
    rw [List.cons_append, List.find?_cons]
    cases fits : rule.allows p with
    | true => simp [fits, accepting rule List.mem_cons_self]
    | false =>
      simp only [fits, List.any_cons, Bool.false_or]
      exact ih

/- The rules that accept, those of one direction. -/
def iptAccepting (allowed dnsServers : List IpAddr) (ipv6 : Bool) : List (Chain × IptRule) :=
  [(.isoIn, { iptAny true with inLoopback := true }),
    (.isoOut, { iptAny true with outLoopback := true })] ++ iptBootstrap ipv6 ++
  (inFamily ipv6 dnsServers).flatMap iptResolver ++ (inFamily ipv6 allowed).map iptAllowed ++
  (iptPeers allowed dnsServers ipv6).map iptPeer

theorem iptAccepting_accept {allowed dnsServers : List IpAddr} {ipv6 : Bool}
    {entry : Chain × IptRule} (member : entry ∈ iptAccepting allowed dnsServers ipv6) :
    entry.2.accept = true := by
  simp only [iptAccepting, List.mem_append, List.mem_cons, List.not_mem_nil, or_false,
    List.mem_flatMap, List.mem_map] at member
  rcases member with ((((rfl | rfl) | boot) | ⟨ip, _, resolver⟩) | ⟨ip, _, rfl⟩) | ⟨ip, _, rfl⟩
  · rfl
  · rfl
  · cases ipv6 <;> simp only [iptBootstrap, if_true, Bool.false_eq_true, if_false, List.mem_cons,
      List.not_mem_nil, or_false] at boot <;> rcases boot with rfl | rfl | rfl <;> rfl
  · simp only [iptResolver, List.mem_map, List.mem_cons, List.not_mem_nil, or_false] at resolver
    obtain ⟨protocol, _, rfl⟩ := resolver
    rfl
  · rfl
  · rfl

/- One of the rules for the packet's direction lets it through. -/
def Lets (entries : List (Chain × IptRule)) (p : Packet) : Prop :=
  ∃ entry ∈ entries, entry.1 = chainOf p.direction ∧ entry.2.allows p = true

theorem lets_append (first second : List (Chain × IptRule)) (p : Packet) :
    Lets (first ++ second) p ↔ Lets first p ∨ Lets second p := by
  simp only [Lets, List.mem_append, or_and_right, exists_or]

theorem lets_cons (entry : Chain × IptRule) (rest : List (Chain × IptRule)) (p : Packet) :
    Lets (entry :: rest) p ↔
      (entry.1 = chainOf p.direction ∧ entry.2.allows p = true) ∨ Lets rest p := by
  simp only [Lets, List.mem_cons, or_and_right, exists_or, exists_eq_left]

@[simp] theorem lets_nil (p : Packet) : ¬ Lets [] p := by
  simp [Lets]

theorem iptables_accepts_iff (allowed dnsServers : List IpAddr) (own : Hook → Packet → Bool)
    (p : Packet) : iptablesAccepts allowed dnsServers own p ↔
      Lets (iptAccepting allowed dnsServers p.ipv6) p := by
  have ran := runAll_apply allowed dnsServers p.ipv6 own
  have split : ∀ chain, ChainRules (iptRules allowed dnsServers p.ipv6) chain =
      ChainRules (iptAccepting allowed dnsServers p.ipv6) chain ++ [iptAny false] := by
    intro chain
    cases chain <;> simp [iptRules, iptAccepting, ChainRules]
  have accepting : ∀ chain, ∀ rule ∈ ChainRules (iptAccepting allowed dnsServers p.ipv6) chain,
      rule.accept = true := by
    intro chain rule member
    simp only [ChainRules, List.mem_map, List.mem_filter] at member
    obtain ⟨entry, ⟨among, _⟩, rfl⟩ := member
    exact iptAccepting_accept among
  have hook : (Netfilter.isolated allowed dnsServers p.ipv6 own).hooks (hookOf p.direction) =
      [chainOf p.direction] := by
    cases p.direction <;> rfl
  have verdict : (Netfilter.isolated allowed dnsServers p.ipv6 own).accepts
      (hookOf p.direction) p =
      (ChainRules (iptAccepting allowed dnsServers p.ipv6) (chainOf p.direction)).any
        (·.allows p) := by
    rw [Netfilter.accepts, hook]
    simp [Netfilter.isolated, split, find_accepting (accepting _)]
  constructor
  · rintro ⟨other, ran', accepts⟩
    rw [ran] at ran'
    rw [← Option.some.inj ran', verdict] at accepts
    simp only [ChainRules, List.any_eq_true, List.mem_map, List.mem_filter, beq_iff_eq] at accepts
    obtain ⟨rule, ⟨entry, ⟨among, chain⟩, rfl⟩, fits⟩ := accepts
    exact ⟨entry, among, chain, fits⟩
  · rintro ⟨entry, among, chain, fits⟩
    refine ⟨_, ran, ?_⟩
    rw [verdict]
    simp only [ChainRules, List.any_eq_true, List.mem_map, List.mem_filter, beq_iff_eq]
    exact ⟨entry.2, ⟨entry, ⟨among, chain⟩, rfl⟩, fits⟩

end SentinelAgent.Isolation
