import SentinelAgent.Response.IsolationFilter

/- The three filters, each as one condition on the packet, and where they agree. -/
namespace SentinelAgent.Isolation
open Ranges

theorem mem_inFamily {ipv6 : Bool} {ips : List IpAddr} {ip : IpAddr} :
    ip ∈ inFamily ipv6 ips ↔ ip ∈ ips ∧ ip.isIpv6 = ipv6 := by
  simp [inFamily]

theorem mem_dedup {ips : List IpAddr} {ip : IpAddr} : ip ∈ dedup ips ↔ ip ∈ ips := by
  fun_induction dedup ips with
  | case1 => simp
  | case2 => simp
  | case3 a rest ih => simp [ih]
  | case4 a b rest _ ih => simp [ih]

theorem mem_iptPeers {allowed dnsServers : List IpAddr} {ipv6 : Bool} {ip : IpAddr} :
    ip ∈ iptPeers allowed dnsServers ipv6 ↔
      (ip ∈ allowed ∨ ip ∈ dnsServers) ∧ ip.isIpv6 = ipv6 := by
  rw [iptPeers, mem_dedup, List.mem_insertionSort, mem_inFamily, List.mem_append]

/- Linux, rule by rule. -/
theorem lets_loopback (p : Packet) :
    Lets [(.isoIn, { iptAny true with inLoopback := true }),
      (.isoOut, { iptAny true with outLoopback := true })] p ↔ p.loopback = true := by
  cases direction : p.direction <;>
    simp [lets_cons, direction, chainOf, IptRule.allows, iptAny]

theorem lets_bootstrap (p : Packet) :
    Lets (iptBootstrap p.ipv6) p ↔ (p.ipv6 = true ∧ p.protocol = .icmp6) ∨
      (p.ipv6 = false ∧ p.direction = .outbound ∧ p.dhcpRequest ∧ p.sourcePort = 68) ∨
      (p.ipv6 = false ∧ p.direction = .inbound ∧ ((p.dhcpReply ∧ p.sourcePort = 67) ∨
        (p.protocol = .icmp ∧ p.ctstate = .related))) := by
  cases family : p.ipv6 <;> cases direction : p.direction <;>
    simp only [iptBootstrap, if_true, Bool.false_eq_true, if_false, lets_cons, lets_nil, direction,
      chainOf, IptRule.allows, iptAny, unlessGiven_none, unlessGiven_some, Bool.and_eq_true,
      Bool.not_false, Bool.true_or, reduceCtorEq, Packet.dhcpRequest, Packet.dhcpReply] <;>
    tauto

theorem lets_resolvers (dnsServers : List IpAddr) (p : Packet) :
    Lets ((inFamily p.ipv6 dnsServers).flatMap iptResolver) p ↔ p.direction = .outbound ∧
      p.destination ∈ dnsServers ∧ p.hasPorts ∧ p.destinationPort = 53 := by
  constructor
  · rintro ⟨entry, member, chain, fits⟩
    simp only [List.mem_flatMap, mem_inFamily, iptResolver, List.mem_map, List.mem_cons,
      List.not_mem_nil, or_false] at member
    obtain ⟨ip, ⟨listed, _⟩, protocol, either, rfl⟩ := member
    have out : p.direction = .outbound := by
      cases direction : p.direction
      · simp [direction, chainOf] at chain
      · rfl
    simp only [IptRule.allows, iptAny, unlessGiven_none, unlessGiven_some, Bool.and_eq_true,
      Bool.not_false, Bool.true_or, true_and, and_true] at fits
    obtain ⟨⟨same, destination⟩, port⟩ := fits
    refine ⟨out, destination ▸ listed, ?_, port⟩
    rcases either with rfl | rfl
    · exact Or.inr same
    · exact Or.inl same
  · rintro ⟨out, listed, ports, port⟩
    refine ⟨(.isoOut, { iptAny true with
      protocol := some p.protocol, destination := some p.destination, destinationPort := some 53 }),
      ?_, by rw [out]; rfl, by simp [IptRule.allows, iptAny, port]⟩
    simp only [List.mem_flatMap, mem_inFamily, iptResolver, List.mem_map, List.mem_cons,
      List.not_mem_nil, or_false]
    exact ⟨p.destination, ⟨listed, rfl⟩, p.protocol, ports.symm, rfl⟩

theorem lets_allowed (allowed : List IpAddr) (p : Packet) :
    Lets ((inFamily p.ipv6 allowed).map iptAllowed) p ↔
      p.direction = .outbound ∧ p.destination ∈ allowed := by
  constructor
  · rintro ⟨entry, member, chain, fits⟩
    simp only [List.mem_map, mem_inFamily] at member
    obtain ⟨ip, ⟨listed, _⟩, rfl⟩ := member
    have out : p.direction = .outbound := by
      cases direction : p.direction
      · simp [direction, chainOf, iptAllowed] at chain
      · rfl
    simp only [iptAllowed, IptRule.allows, iptAny, unlessGiven_none, unlessGiven_some,
      Bool.and_eq_true, Bool.not_false, Bool.true_or, true_and, and_true] at fits
    exact ⟨out, fits ▸ listed⟩
  · rintro ⟨out, listed⟩
    exact ⟨iptAllowed p.destination, List.mem_map_of_mem (mem_inFamily.mpr ⟨listed, rfl⟩),
      by rw [out]; rfl, by simp [iptAllowed, IptRule.allows, iptAny]⟩

theorem lets_peers (allowed dnsServers : List IpAddr) (p : Packet) :
    Lets ((iptPeers allowed dnsServers p.ipv6).map iptPeer) p ↔ p.direction = .inbound ∧
      p.ctstate = .established ∧ (p.source ∈ allowed ∨ p.source ∈ dnsServers) := by
  constructor
  · rintro ⟨entry, member, chain, fits⟩
    simp only [List.mem_map, mem_iptPeers] at member
    obtain ⟨ip, ⟨listed, _⟩, rfl⟩ := member
    have inbound : p.direction = .inbound := by
      cases direction : p.direction
      · rfl
      · simp [direction, chainOf, iptPeer] at chain
    simp only [iptPeer, IptRule.allows, iptAny, unlessGiven_none, unlessGiven_some,
      Bool.and_eq_true, Bool.not_false, Bool.true_or, true_and, and_true] at fits
    exact ⟨inbound, fits.2, fits.1 ▸ listed⟩
  · rintro ⟨inbound, established, listed⟩
    have peer : p.source ∈ iptPeers allowed dnsServers p.ipv6 :=
      mem_iptPeers.mpr ⟨listed, p.one_family⟩
    exact ⟨iptPeer p.source, List.mem_map_of_mem peer, by rw [inbound]; rfl,
      by simp [iptPeer, IptRule.allows, iptAny, established]⟩

theorem iptables_out (allowed dnsServers : List IpAddr) (own : Hook → Packet → Bool) (p : Packet)
    (out : p.direction = .outbound) :
    iptablesAccepts allowed dnsServers own p ↔ p.loopback = true ∨
      (p.ipv6 = true ∧ p.protocol = .icmp6) ∨
      (p.ipv6 = false ∧ p.dhcpRequest ∧ p.sourcePort = 68) ∨
      (p.destination ∈ dnsServers ∧ p.hasPorts ∧ p.destinationPort = 53) ∨
      p.destination ∈ allowed := by
  rw [iptables_accepts_iff, iptAccepting, lets_append, lets_append, lets_append, lets_append,
    lets_loopback, lets_bootstrap, lets_resolvers, lets_allowed, lets_peers]
  simp only [out, reduceCtorEq, true_and, false_and, and_false, or_false, or_assoc]

theorem iptables_in (allowed dnsServers : List IpAddr) (own : Hook → Packet → Bool) (p : Packet)
    (inbound : p.direction = .inbound) :
    iptablesAccepts allowed dnsServers own p ↔ p.loopback = true ∨
      (p.ipv6 = true ∧ p.protocol = .icmp6) ∨
      (p.ipv6 = false ∧ ((p.dhcpReply ∧ p.sourcePort = 67) ∨
        (p.protocol = .icmp ∧ p.ctstate = .related))) ∨
      (p.ctstate = .established ∧ (p.source ∈ allowed ∨ p.source ∈ dnsServers)) := by
  rw [iptables_accepts_iff, iptAccepting, lets_append, lets_append, lets_append, lets_append,
    lets_loopback, lets_bootstrap, lets_resolvers, lets_allowed, lets_peers]
  simp only [inbound, reduceCtorEq, true_and, false_and, and_false, or_false, false_or, or_assoc]

/- pf. -/
theorem pfBlockAll_allows (p : Packet) : pfBlockAll.allows p = true := by
  simp [pfBlockAll, PfRule.allows]

/- The rules before the last one. -/
def pfPassing (allowed dnsServers : List IpAddr) : List PfRule :=
  [pfPassLoopback, pfDhcpRequest, pfDhcpReply] ++ dnsServers.map pfResolver ++
    (if (allowed ++ dnsServers).any IpAddr.isIpv6 then [pfNeighbourDiscovery] else []) ++
    allowed.map pfAllowed

theorem pfPassing_pass {allowed dnsServers : List IpAddr} {rule : PfRule}
    (member : rule ∈ pfPassing allowed dnsServers) : rule.pass = true := by
  simp only [pfPassing, List.mem_append, List.mem_cons, List.not_mem_nil, or_false,
    List.mem_map] at member
  rcases member with (((rfl | rfl | rfl) | ⟨ip, _, rfl⟩) | discovery) | ⟨ip, _, rfl⟩
  · rfl
  · rfl
  · rfl
  · rfl
  · split at discovery
    · rw [List.mem_singleton.mp discovery]
      rfl
    · exact absurd discovery List.not_mem_nil
  · rfl

theorem pfPasses_iff (allowed dnsServers : List IpAddr) (p : Packet) :
    pfPasses allowed dnsServers p ↔
      (pfPassing allowed dnsServers).any (·.allows p) = true := by
  have split : pfRules allowed dnsServers = pfPassing allowed dnsServers ++ [pfBlockAll] := rfl
  rw [pfPasses, pfDecides, split, List.find?_append, List.any_eq_true]
  constructor
  · rintro ⟨rule, decides, pass⟩
    cases found : (pfPassing allowed dnsServers).find? (·.allows p) with
    | some first =>
      have fits : first.allows p = true := by simpa using List.find?_some found
      exact ⟨first, List.mem_of_find?_eq_some found, fits⟩
    | none =>
      rw [found] at decides
      simp only [Option.none_or, List.find?_singleton, pfBlockAll_allows, if_true,
        Option.some.injEq] at decides
      simp [← decides, pfBlockAll] at pass
  · rintro ⟨rule, member, fits⟩
    cases found : (pfPassing allowed dnsServers).find? (·.allows p) with
    | some first => exact ⟨first, rfl, pfPassing_pass (List.mem_of_find?_eq_some found)⟩
    | none =>
      have none_fits := List.find?_eq_none.mp found rule member
      exact absurd fits none_fits

/- A rule of one field after the other, for the packet in hand. -/
theorem pf_passes (allowed dnsServers : List IpAddr) (p : Packet) :
    pfPasses allowed dnsServers p ↔ p.loopback = true ∨
      (p.direction = .outbound ∧ p.ipv6 = false ∧ p.dhcpRequest ∧ p.sourcePort = 68) ∨
      (p.direction = .inbound ∧ p.ipv6 = false ∧ p.dhcpReply ∧ p.sourcePort = 67) ∨
      (p.direction = .outbound ∧ p.destination ∈ dnsServers ∧ p.hasPorts ∧
        p.destinationPort = 53) ∨
      ((allowed ++ dnsServers).any IpAddr.isIpv6 = true ∧ p.ipv6 = true ∧ p.protocol = .icmp6) ∨
      (p.direction = .outbound ∧ p.destination ∈ allowed) := by
  have loopback : pfPassLoopback.allows p = true ↔ p.loopback = true := by
    simp [pfPassLoopback, PfRule.allows]
  have request : pfDhcpRequest.allows p = true ↔ p.direction = .outbound ∧ p.ipv6 = false ∧
      p.dhcpRequest ∧ p.sourcePort = 68 := by
    simp only [pfDhcpRequest, PfRule.allows, PfHosts.allow, Packet.dhcpRequest, unlessGiven_some,
      Bool.and_eq_true, Option.all_some]
    simp
    tauto
  have reply : pfDhcpReply.allows p = true ↔ p.direction = .inbound ∧ p.ipv6 = false ∧
      p.dhcpReply ∧ p.sourcePort = 67 := by
    simp only [pfDhcpReply, PfRule.allows, PfHosts.allow, Packet.dhcpReply, unlessGiven_some,
      unlessGiven_none, Bool.and_eq_true, Option.all_some]
    simp
    tauto
  have resolver : ∀ ip, (pfResolver ip).allows p = true ↔ p.direction = .outbound ∧
      p.destination = ip ∧ p.hasPorts ∧ p.destinationPort = 53 := by
    intro ip
    simp only [pfResolver, PfRule.allows, PfHosts.allow, Packet.hasPorts, unlessGiven_some,
      unlessGiven_none, Bool.and_eq_true, Option.all_some]
    simp
    tauto
  have discovery : pfNeighbourDiscovery.allows p = true ↔ p.ipv6 = true ∧ p.protocol = .icmp6 := by
    simp [pfNeighbourDiscovery, PfRule.allows]
  have listed : ∀ ip, (pfAllowed ip).allows p = true ↔ p.direction = .outbound ∧
      p.destination = ip := by
    intro ip
    simp [pfAllowed, PfRule.allows, PfHosts.allow]
  have resolvers : (dnsServers.map pfResolver).any (·.allows p) = true ↔
      p.direction = .outbound ∧ p.destination ∈ dnsServers ∧ p.hasPorts ∧
        p.destinationPort = 53 := by
    simp only [List.any_eq_true, List.mem_map, exists_exists_and_eq_and, resolver]
    constructor
    · rintro ⟨ip, member, out, rfl, rest⟩
      exact ⟨out, member, rest⟩
    · rintro ⟨out, member, rest⟩
      exact ⟨_, member, out, rfl, rest⟩
  have platform : (allowed.map pfAllowed).any (·.allows p) = true ↔
      p.direction = .outbound ∧ p.destination ∈ allowed := by
    simp only [List.any_eq_true, List.mem_map, exists_exists_and_eq_and, listed]
    constructor
    · rintro ⟨ip, member, out, rfl⟩
      exact ⟨out, member⟩
    · rintro ⟨out, member⟩
      exact ⟨_, member, out, rfl⟩
  have neighbours : (if (allowed ++ dnsServers).any IpAddr.isIpv6 then [pfNeighbourDiscovery]
      else []).any (·.allows p) = true ↔ (allowed ++ dnsServers).any IpAddr.isIpv6 = true ∧
        p.ipv6 = true ∧ p.protocol = .icmp6 := by
    split
    · rename_i some_ipv6
      simp [discovery, some_ipv6]
    · rename_i no_ipv6
      simp [no_ipv6]
  rw [pfPasses_iff, pfPassing, List.any_append, List.any_append, List.any_append, Bool.or_eq_true,
    Bool.or_eq_true, Bool.or_eq_true, resolvers, platform, neighbours]
  simp only [List.any_cons, List.any_nil, Bool.or_false, Bool.or_eq_true, loopback, request, reply,
    or_assoc]

/- Windows. An address is left open in its family's list. -/
def Needed (ip : IpAddr) : Prop := covers (neededRanges ip.isIpv6) ip.value

theorem value_injective {a b : IpAddr} (family : a.isIpv6 = b.isIpv6) (value : a.value = b.value) :
    a = b := by
  cases a <;> cases b <;> simp_all [IpAddr.isIpv6, IpAddr.value, Fin.ext_iff]

theorem value_le_max (ip : IpAddr) : ip.value ≤ maxAddress ip.isIpv6 := by
  cases ip with
  | v4 address => exact Nat.le_sub_one_of_lt address.isLt
  | v6 address => exact Nat.le_sub_one_of_lt address.isLt

theorem covers_singletons (ips : List IpAddr) (ip : IpAddr) :
    covers ((inFamily ip.isIpv6 ips).map fun other => (other.value, other.value)) ip.value ↔
      ip ∈ ips := by
  constructor
  · rintro ⟨range, member, first, last⟩
    simp only [List.mem_map, mem_inFamily] at member
    obtain ⟨other, ⟨listed, family⟩, rfl⟩ := member
    have same : other = ip := value_injective family (by simp only at first last; omega)
    exact same ▸ listed
  · intro listed
    exact ⟨(ip.value, ip.value), List.mem_map_of_mem (mem_inFamily.mpr ⟨listed, rfl⟩),
      le_refl _, le_refl _⟩

theorem netshBlocked_holds (keep : List IpAddr) (ipv6 : Bool) (ip : IpAddr) :
    (netshBlockedAddresses keep ipv6).any (·.holds ip) = true ↔
      ip.isIpv6 = ipv6 ∧ ¬ Needed ip ∧ ip ∉ keep := by
  have gaps_hold : (netshBlockedAddresses keep ipv6).any (·.holds ip) = true ↔
      ip.isIpv6 = ipv6 ∧ covers (gaps (neededRanges ipv6 ++ (inFamily ipv6 keep).map
        fun other => (other.value, other.value)) (maxAddress ipv6)) ip.value := by
    simp only [netshBlockedAddresses, List.any_map, List.any_eq_true, Function.comp,
      AddrRange.holds, Bool.and_eq_true, beq_iff_eq, decide_eq_true_eq, covers]
    constructor
    · rintro ⟨range, member, family, held⟩
      exact ⟨family.symm, range, member, held⟩
    · rintro ⟨family, range, member, held⟩
      exact ⟨range, member, family.symm, held⟩
  rw [gaps_hold]
  constructor
  · rintro ⟨rfl, covered⟩
    rw [covers_gaps (value_le_max ip), covers_append, covers_singletons, not_or] at covered
    exact ⟨rfl, covered⟩
  · rintro ⟨rfl, free⟩
    rw [covers_gaps (value_le_max ip), covers_append, covers_singletons, not_or]
    exact ⟨rfl, free⟩

theorem bothFamilies_holds (keep : List IpAddr) (ip : IpAddr) :
    (bothFamilies keep).any (fun group => group.any (·.holds ip)) = true ↔
      ¬ Needed ip ∧ ip ∉ keep := by
  simp only [bothFamilies, List.any_cons, List.any_nil, Bool.or_false, Bool.or_eq_true,
    netshBlocked_holds]
  cases ip.isIpv6 <;> simp

theorem exactly_holds (other ip : IpAddr) : (exactly other).holds ip = true ↔ other = ip := by
  rw [AddrRange.holds, Bool.and_eq_true, beq_iff_eq, decide_eq_true_iff]
  constructor
  · rintro ⟨family, first, last⟩
    exact value_injective family (le_antisymm first last)
  · rintro rfl
    exact ⟨rfl, le_refl _, le_refl _⟩

theorem listed_holds (listed : List IpAddr) (ip : IpAddr) :
    (listed.map exactly).any (·.holds ip) = true ↔ ip ∈ listed := by
  simp only [List.any_map, List.any_eq_true, Function.comp, exactly_holds, exists_eq_right]

/- A block rule, field by field. -/
theorem blocks_iff (rule : NetshRule) (p : Packet) : rule.blocks p = true ↔
    rule.direction = p.direction ∧ rule.protocol = p.protocol ∧
      (∀ ports, rule.remotePorts = some ports → covers ports p.destinationPort) ∧
      (∀ ports, rule.localPorts = some ports → covers ports p.destinationPort) ∧
      rule.remoteIp.any (fun group => group.any (·.holds p.remote)) = true := by
  simp only [NetshRule.blocks, Bool.and_eq_true, beq_iff_eq, Option.all_eq_true, decide_eq_true_eq,
    and_assoc]

theorem netsh_out (allowed dnsServers : List IpAddr) (p : Packet) (out : p.direction = .outbound) :
    netshBlocks allowed dnsServers p = true ↔
      (p.protocol = .tcp ∧ ¬ Needed p.destination ∧
        p.destination ∉ allowed ++ netshResolvers allowed dnsServers) ∨
      (p.protocol = .udp ∧ ¬ Needed p.destination ∧
        p.destination ∉ allowed ++ netshResolvers allowed dnsServers ++ [.broadcast]) ∨
      (p.protocol = .icmp ∧ p.ipv6 = false ∧ ¬ Needed p.destination ∧ p.destination ∉ allowed) ∨
      (p.hasPorts ∧ covers [(1, 52), (54, 65535)] p.destinationPort ∧
        p.destination ∈ netshResolvers allowed dnsServers) ∨
      (p.protocol = .udp ∧ covers [(1, 66), (68, 65535)] p.destinationPort ∧
        p.destination = .broadcast) := by
  have remote : p.remote = p.destination := by simp [Packet.remote, out]
  have resolvers : (if netshResolvers allowed dnsServers = [] then ([] : List NetshRule)
      else [⟨"OutDnsTCP", .outbound, .tcp, some [(1, 52), (54, 65535)], none,
          [(netshResolvers allowed dnsServers).map exactly]⟩,
        ⟨"OutDnsUDP", .outbound, .udp, some [(1, 52), (54, 65535)], none,
          [(netshResolvers allowed dnsServers).map exactly]⟩]).any (·.blocks p) = true ↔
      p.hasPorts ∧ covers [(1, 52), (54, 65535)] p.destinationPort ∧
        p.destination ∈ netshResolvers allowed dnsServers := by
    by_cases none : netshResolvers allowed dnsServers = []
    · simp [none]
    · rw [if_neg none]
      simp only [List.any_cons, List.any_nil, Bool.or_false, Bool.or_eq_true, blocks_iff, out,
        remote, listed_holds, Option.some.injEq, forall_eq', reduceCtorEq, false_implies,
        implies_true, true_and, Packet.hasPorts]
      rw [← or_and_right, eq_comm, eq_comm (b := p.protocol)]
  rw [netshBlocks, netshApply]
  simp only [List.any_append, resolvers, Bool.or_eq_true]
  simp only [List.any_cons, List.any_nil, Bool.or_false, Bool.or_eq_true, blocks_iff, out, remote,
    reduceCtorEq, false_implies, implies_true, true_and, false_and, or_false, bothFamilies_holds,
    netshBlocked_holds, Option.some.injEq, forall_eq', exactly_holds, or_assoc, Packet.ipv6,
    eq_comm (b := p.protocol), eq_comm (b := p.destination)]

theorem netsh_in (allowed dnsServers : List IpAddr) (p : Packet) (inbound : p.direction = .inbound) :
    netshBlocks allowed dnsServers p = true ↔ ¬ Needed p.source ∧ p.source ∉ allowed ∧
      (p.protocol = .tcp ∨
        (p.protocol = .udp ∧ covers [(1, 67), (69, 65535)] p.destinationPort)) := by
  have remote : p.remote = p.source := by simp [Packet.remote, inbound]
  have resolvers : (if netshResolvers allowed dnsServers = [] then ([] : List NetshRule)
      else [⟨"OutDnsTCP", .outbound, .tcp, some [(1, 52), (54, 65535)], none,
          [(netshResolvers allowed dnsServers).map exactly]⟩,
        ⟨"OutDnsUDP", .outbound, .udp, some [(1, 52), (54, 65535)], none,
          [(netshResolvers allowed dnsServers).map exactly]⟩]).any (·.blocks p) = false := by
    split <;> simp [NetshRule.blocks, inbound]
  rw [netshBlocks, netshApply]
  simp only [List.any_append, resolvers, Bool.or_eq_true, Bool.or_false]
  simp only [List.any_cons, List.any_nil, Bool.or_false, Bool.or_eq_true, blocks_iff, inbound,
    remote, reduceCtorEq, false_implies, implies_true, true_and, false_and, false_or, or_false,
    bothFamilies_holds, Option.some.injEq, forall_eq', eq_comm (b := p.protocol)]
  tauto

theorem other_ports {port : Nat} (known : Nat) (first : 0 < known) (bound : port < 65536)
    (some_port : port ≠ 0) (free : ¬ covers [(1, known - 1), (known + 1, 65535)] port) :
    port = known := by
  simp only [covers_cons, covers_nil, or_false, Range.holds, not_or] at free
  omega

theorem mem_netshResolvers {allowed dnsServers : List IpAddr} {ip : IpAddr} :
    ip ∈ netshResolvers allowed dnsServers ↔ ip ∈ dnsServers ∧ ip ∉ allowed := by
  simp [netshResolvers]

/- What an isolated host may send: nothing else leaves it. -/
def MaySend (allowed dnsServers : List IpAddr) (p : Packet) : Prop :=
  p.destination ∈ allowed ∨ (p.destination ∈ dnsServers ∧ p.hasPorts ∧ p.destinationPort = 53)

theorem netsh_lets_out {allowed dnsServers : List IpAddr} {p : Packet}
    (out : p.direction = .outbound) (ports : p.hasPorts) (some_port : p.destinationPort ≠ 0)
    (accepted : netshBlocks allowed dnsServers p = false) :
    Needed p.destination ∨ MaySend allowed dnsServers p ∨ p.dhcpRequest := by
  have free := mt (netsh_out allowed dnsServers p out).mpr (by simp [accepted])
  simp only [not_or] at free
  obtain ⟨tcp, udp, _, resolver, broadcast⟩ := free
  by_cases needed : Needed p.destination
  · exact Or.inl needed
  by_cases listed : p.destination ∈ allowed
  · exact Or.inr (Or.inl (Or.inl listed))
  by_cases resolves : p.destination ∈ netshResolvers allowed dnsServers
  · have port : p.destinationPort = 53 := by
      apply other_ports 53 (by omega) p.ports.2 some_port
      intro covered
      exact resolver ⟨ports, covered, resolves⟩
    exact Or.inr (Or.inl (Or.inr ⟨(mem_netshResolvers.mp resolves).1, ports, port⟩))
  have outside : p.destination ∉ allowed ++ netshResolvers allowed dnsServers := by
    simp [listed, resolves]
  rcases ports with is_tcp | is_udp
  · exact absurd ⟨is_tcp, needed, outside⟩ tcp
  · by_cases all : p.destination = .broadcast
    · have port : p.destinationPort = 67 := by
        apply other_ports 67 (by omega) p.ports.2 some_port
        intro covered
        exact broadcast ⟨is_udp, covered, all⟩
      exact Or.inr (Or.inr ⟨is_udp, all, port⟩)
    · exact absurd ⟨is_udp, needed, by simp [listed, resolves, all]⟩ udp

theorem netsh_sends {allowed dnsServers : List IpAddr} {p : Packet}
    (out : p.direction = .outbound) (unicast : p.destination ≠ .broadcast)
    (may : MaySend allowed dnsServers p) : netshBlocks allowed dnsServers p = false := by
  rw [← Bool.not_eq_true, netsh_out allowed dnsServers p out]
  by_cases listed : p.destination ∈ allowed
  · have no_resolver : p.destination ∉ netshResolvers allowed dnsServers :=
      fun member => (mem_netshResolvers.mp member).2 listed
    simp [listed, no_resolver, unicast]
  · rcases may with also | ⟨resolver, ports, port⟩
    · exact absurd also listed
    · have resolves := mem_netshResolvers.mpr ⟨resolver, listed⟩
      have no_icmp : p.protocol ≠ .icmp := by
        rcases ports with is_tcp | is_udp
        · simp [is_tcp]
        · simp [is_udp]
      have open_port : ¬ covers [(1, 52), (54, 65535)] 53 := by decide
      simp [resolves, no_icmp, port, open_port, unicast]

/- Off the loopback interface, to one host that is neither loopback nor of the
   local link, the three systems send the same TCP and UDP packets. -/
theorem systems_agree {allowed dnsServers : List IpAddr} {p : Packet}
    (own : Hook → Packet → Bool) (out : p.direction = .outbound) (link : p.loopback = false)
    (ports : p.hasPorts) (elsewhere : ¬ Needed p.destination)
    (unicast : p.destination ≠ .broadcast) (some_port : p.destinationPort ≠ 0) :
    (iptablesAccepts allowed dnsServers own p ↔ MaySend allowed dnsServers p) ∧
    (pfPasses allowed dnsServers p ↔ MaySend allowed dnsServers p) ∧
    (netshBlocks allowed dnsServers p = false ↔ MaySend allowed dnsServers p) := by
  have no_icmp6 : p.protocol ≠ .icmp6 := by
    rcases ports with is_tcp | is_udp
    · simp [is_tcp]
    · simp [is_udp]
  have no_dhcp : ¬ p.dhcpRequest := fun request => unicast request.2.1
  refine ⟨?_, ?_, ?_, ?_⟩
  · rw [iptables_out allowed dnsServers own p out]
    simp only [link, no_icmp6, no_dhcp, MaySend, Bool.false_eq_true, and_false, false_and, false_or]
    exact or_comm
  · rw [pf_passes]
    simp only [link, out, no_icmp6, no_dhcp, MaySend, Bool.false_eq_true, reduceCtorEq, and_false,
      false_and, true_and, false_or]
    exact or_comm
  · intro accepted
    rcases netsh_lets_out out ports some_port accepted with needed | may | request
    · exact absurd needed elsewhere
    · exact may
    · exact absurd request no_dhcp
  · exact netsh_sends out unicast

/- A packet of the local link, which Windows sends and the others drop. -/
def toLinkLocal : Packet :=
  { direction := .outbound
    loopback := false
    protocol := .tcp
    source := .v6 (Fin.ofNat _ (0xfe80 * 2 ^ 112 + 2))
    destination := .v6 (Fin.ofNat _ (0xfe80 * 2 ^ 112 + 1))
    sourcePort := 50000
    destinationPort := 445
    ctstate := .new
    one_family := rfl
    ports := by omega }

def checkedSub (a b : Nat) : Option Nat := if b ≤ a then some (a - b) else none

def checkedAdd (a b : Nat) : Option Nat := if a + b < 2 ^ 128 then some (a + b) else none

def checkedGapsFrom (max : Nat) : Option Nat → List Range → Option (List Range)
  | none, _ => some []
  | some cursor, [] => some [(cursor, max)]
  | some cursor, (first, last) :: rest => do
    let blocked ←
      if cursor < first then (checkedSub first 1).map fun stop => [(cursor, stop)] else some []
    let next ←
      if cursor ≤ last then (if last < max then (checkedAdd last 1).map some else some none)
      else some (some cursor)
    let later ← checkedGapsFrom max next rest
    return blocked ++ later

def checkedGaps (allowed : List Range) (max : Nat) : Option (List Range) :=
  checkedGapsFrom max (some 0) (allowed.insertionSort before)

/- Nothing is taken from 0, and nothing added to the largest number. -/
theorem checkedGapsFrom_eq {max : Nat} (fits : max < 2 ^ 128) (cursor : Option Nat)
    (ranges : List Range) : checkedGapsFrom max cursor ranges = some (gapsFrom max cursor ranges) := by
  induction ranges generalizing cursor with
  | nil =>
    cases cursor with
    | none => rfl
    | some cursor => rfl
  | cons range rest ih =>
    cases cursor with
    | none => rfl
    | some cursor =>
      obtain ⟨first, last⟩ := range
      have room : cursor < first → checkedSub first 1 = some (first - 1) :=
        fun less => if_pos (by omega)
      have more : last < max → checkedAdd last 1 = some (last + 1) := fun less => if_pos (by omega)
      rw [checkedGapsFrom, gapsFrom]
      split_ifs with here passed below passed below
      · simp [room here, more below, ih]
      · simp [room here, ih]
      · simp [room here, ih]
      · simp [more below, ih]
      · simp [ih]
      · simp [ih]

theorem checkedGaps_eq {max : Nat} (fits : max < 2 ^ 128) (ranges : List Range) :
    checkedGaps ranges max = some (gaps ranges max) := checkedGapsFrom_eq fits _ _

/- What is kept open in a family, whether or not it was asked for. -/
theorem needed_valid (ipv6 : Bool) : ∀ range ∈ neededRanges ipv6, range.Valid (maxAddress ipv6) := by
  cases ipv6 with
  | false => decide
  | true => decide

theorem kept_valid (allowed : List IpAddr) (ipv6 : Bool) :
    ∀ range ∈ neededRanges ipv6 ++ (inFamily ipv6 allowed).map fun ip => (ip.value, ip.value),
      range.Valid (maxAddress ipv6) := by
  intro range member
  rcases List.mem_append.mp member with needed | asked
  · exact needed_valid ipv6 range needed
  · obtain ⟨ip, ip_member, rfl⟩ := List.mem_map.mp asked
    have family := (mem_inFamily.mp ip_member).2
    exact ⟨le_rfl, family ▸ value_le_max ip⟩

/-- The gaps are the complement of the ranges, in ascending order and without an overlap, and no
    number of the sweep overflows; so an address is blocked just when it is neither allowed nor
    needed by a working stack. -/
theorem gaps_complement :
    (∀ (ranges : List Range) (max : Nat), max < 2 ^ 128 → (∀ range ∈ ranges, range.Valid max) →
      checkedGaps ranges max = some (gaps ranges max) ∧
        (gaps ranges max).Pairwise (fun a b => a.2 < b.1) ∧
        (∀ gap ∈ gaps ranges max, gap.1 ≤ gap.2) ∧
        (∀ n, covers (gaps ranges max) n ↔ n ≤ max ∧ ¬ covers ranges n)) ∧
      ∀ (allowed : List IpAddr) (ipv6 : Bool),
        (netshBlockedAddresses allowed ipv6).Pairwise (fun a b => a.range.2 < b.range.1) ∧
          ∀ ip : IpAddr, (netshBlockedAddresses allowed ipv6).any (·.holds ip) = true ↔
            ip.isIpv6 = ipv6 ∧ ¬ Needed ip ∧ ip ∉ allowed := by
  refine ⟨fun ranges max fits valid => ?_, fun allowed ipv6 => ⟨?_, netshBlocked_holds allowed ipv6⟩⟩
  rotate_left
  · exact List.pairwise_map.mpr (gaps_ordered (kept_valid allowed ipv6))
  refine ⟨checkedGaps_eq fits ranges, gaps_ordered valid,
    fun gap member => (gaps_valid valid gap member).1, fun n => ?_⟩
  constructor
  · rintro ⟨gap, member, held⟩
    have bound : n ≤ max := held.2.trans (gaps_valid valid gap member).2
    exact ⟨bound, (covers_gaps bound).mp ⟨gap, member, held⟩⟩
  · rintro ⟨bound, free⟩
    exact (covers_gaps bound).mpr free

theorem gaps_complement_three : (gaps [(5, 7), (2, 2), (6, 9)] 20).Pairwise (fun a b => a.2 < b.1) :=
  (gaps_complement.1 [(5, 7), (2, 2), (6, 9)] 20 (by decide) (by decide)).2.1

/- 127.0.0.1 -/
def loopback : IpAddr := .v4 ⟨127 * 2 ^ 24 + 1, by decide⟩

/-- An address that was not allowed is left open, since the stack needs it. -/
theorem loopback_not_blocked :
    loopback ∉ ([] : List IpAddr) ∧ (netshBlockedAddresses [] false).any (·.holds loopback) = false := by
  decide

end SentinelAgent.Isolation
