import Mathlib.Algebra.Group.Int.Defs
import Mathlib.Algebra.GroupWithZero.Nat
import SentinelAgent.Library.Ranges

/- The firewall rules of a host isolation, for the three systems. A rule is kept
   with what it tests; `args` and `line` give the text the system is handed. -/
namespace SentinelAgent.Isolation
open Ranges

instance v4_width : NeZero (2 ^ 32) := ⟨by decide⟩

instance v6_width : NeZero (2 ^ 128) := ⟨by decide⟩

/- An address, as the number it is written for. -/
inductive IpAddr where
  | v4 (address : Fin (2 ^ 32))
  | v6 (address : Fin (2 ^ 128))
  deriving DecidableEq

namespace IpAddr

def isIpv6 : IpAddr → Bool
  | v4 _ => false
  | v6 _ => true

def value : IpAddr → Nat
  | v4 address => address.val
  | v6 address => address.val

/- The order addresses are sorted in: all of IPv4 first. -/
def upTo (a b : IpAddr) : Prop :=
  (a.isIpv6 = false ∧ b.isIpv6 = true) ∨ (a.isIpv6 = b.isIpv6 ∧ a.value ≤ b.value)

instance : DecidableRel upTo := fun _ _ => inferInstanceAs (Decidable (_ ∨ _))

def broadcast : IpAddr := .v4 (Fin.last _)

end IpAddr

inductive Direction where
  | inbound | outbound
  deriving DecidableEq

inductive Protocol where
  | tcp | udp | icmp | icmp6
  | other (number : Nat)
  deriving DecidableEq

structure Command where
  program : String
  args : List String
  deriving DecidableEq

/- pf. -/
inductive PfState where
  | unsaid | keepState | noState
  deriving DecidableEq

/- `from any port … to … port …`, any part of it. -/
structure PfHosts where
  fromPort : Option Nat
  toAddress : Option IpAddr
  toPort : Option Nat
  deriving DecidableEq

/- One `quick` rule. Without hosts it is written with `all`. -/
structure PfRule where
  pass : Bool
  direction : Option Direction
  onLoopback : Bool
  ipv6 : Option Bool
  protocols : List Protocol
  hosts : Option PfHosts
  state : PfState
  deriving DecidableEq

def pfPassLoopback : PfRule := ⟨true, none, true, none, [], none, .unsaid⟩

def pfDhcpRequest : PfRule :=
  ⟨true, some .outbound, false, some false, [.udp], some ⟨some 68, some .broadcast, some 67⟩, .noState⟩

def pfDhcpReply : PfRule :=
  ⟨true, some .inbound, false, some false, [.udp], some ⟨some 67, none, some 68⟩, .noState⟩

def pfResolver (ip : IpAddr) : PfRule :=
  ⟨true, some .outbound, false, none, [.tcp, .udp], some ⟨none, some ip, some 53⟩, .keepState⟩

def pfNeighbourDiscovery : PfRule := ⟨true, none, false, some true, [.icmp6], none, .unsaid⟩

def pfAllowed (ip : IpAddr) : PfRule :=
  ⟨true, some .outbound, false, none, [], some ⟨none, some ip, none⟩, .keepState⟩

def pfBlockAll : PfRule := ⟨false, none, false, none, [], none, .unsaid⟩

def pfRules (allowed dnsServers : List IpAddr) : List PfRule :=
  [pfPassLoopback, pfDhcpRequest, pfDhcpReply] ++ dnsServers.map pfResolver ++
    (if (allowed ++ dnsServers).any IpAddr.isIpv6 then [pfNeighbourDiscovery] else []) ++
    allowed.map pfAllowed ++ [pfBlockAll]

/- Linux: one chain for each direction, in the tables of both families. -/
inductive Chain where
  | isoIn | isoOut
  deriving DecidableEq

inductive Hook where
  | input | output | forward
  deriving DecidableEq

inductive CtState where
  | new | established | related | invalid
  deriving DecidableEq

structure IptRule where
  inLoopback : Bool
  outLoopback : Bool
  protocol : Option Protocol
  source : Option IpAddr
  destination : Option IpAddr
  sourcePort : Option Nat
  destinationPort : Option Nat
  ctstate : Option CtState
  accept : Bool
  deriving DecidableEq

inductive IptCommand where
  | newChain (chain : Chain)
  | append (chain : Chain) (rule : IptRule)
  | insertHook (hook : Hook) (chain : Chain)
  | deleteHook (hook : Hook) (chain : Chain)
  | flush (chain : Chain)
  | deleteChain (chain : Chain)
  deriving DecidableEq

def iptAny (accept : Bool) : IptRule := ⟨false, false, none, none, none, none, none, none, accept⟩

/- One program's part of `iptables_release`. -/
def iptablesReleaseOne : List IptCommand :=
  [.deleteHook .input .isoIn, .deleteHook .output .isoOut, .deleteHook .forward .isoOut,
    .flush .isoIn, .deleteChain .isoIn, .flush .isoOut, .deleteChain .isoOut]

/- The commands, each with whether it is for `ip6tables`. -/
def iptablesRelease : List (Bool × IptCommand) :=
  iptablesReleaseOne.map (false, ·) ++ iptablesReleaseOne.map (true, ·)

/- `Vec::dedup`: equal neighbours become one. -/
def dedup : List IpAddr → List IpAddr
  | [] => []
  | [ip] => [ip]
  | a :: b :: rest => if a = b then dedup (b :: rest) else a :: dedup (b :: rest)

/- The rules of the two chains, in the order they are appended. -/
def iptBootstrap (ipv6 : Bool) : List (Chain × IptRule) :=
  if ipv6 then
    [(.isoIn, { iptAny true with protocol := some .icmp6 }),
      (.isoOut, { iptAny true with protocol := some .icmp6 })]
  else
    [(.isoOut, { iptAny true with
        protocol := some .udp, destination := some .broadcast, sourcePort := some 68,
        destinationPort := some 67 }),
      (.isoIn, { iptAny true with
        protocol := some .udp, sourcePort := some 67, destinationPort := some 68 }),
      (.isoIn, { iptAny true with protocol := some .icmp, ctstate := some .related })]

def iptResolver (ip : IpAddr) : List (Chain × IptRule) :=
  [.udp, .tcp].map fun protocol => (.isoOut, { iptAny true with
    protocol := some protocol, destination := some ip, destinationPort := some 53 })

def iptAllowed (ip : IpAddr) : Chain × IptRule :=
  (.isoOut, { iptAny true with destination := some ip })

def iptPeer (ip : IpAddr) : Chain × IptRule :=
  (.isoIn, { iptAny true with source := some ip, ctstate := some .established })

def inFamily (ipv6 : Bool) (ips : List IpAddr) : List IpAddr := ips.filter (·.isIpv6 == ipv6)

def iptPeers (allowed dnsServers : List IpAddr) (ipv6 : Bool) : List IpAddr :=
  dedup ((inFamily ipv6 (allowed ++ dnsServers)).insertionSort IpAddr.upTo)

def iptRules (allowed dnsServers : List IpAddr) (ipv6 : Bool) : List (Chain × IptRule) :=
  [(.isoIn, { iptAny true with inLoopback := true }),
    (.isoOut, { iptAny true with outLoopback := true })] ++ iptBootstrap ipv6 ++
  (inFamily ipv6 dnsServers).flatMap iptResolver ++ (inFamily ipv6 allowed).map iptAllowed ++
  (iptPeers allowed dnsServers ipv6).map iptPeer ++ [(.isoIn, iptAny false), (.isoOut, iptAny false)]

def iptablesApply (allowed dnsServers : List IpAddr) (ipv6 : Bool) : List IptCommand :=
  [.newChain .isoIn, .newChain .isoOut] ++
  (iptRules allowed dnsServers ipv6).map (fun (chain, rule) => .append chain rule) ++
  [.insertHook .input .isoIn, .insertHook .output .isoOut, .insertHook .forward .isoOut]

/- Windows: block rules, which win over allow rules. -/
structure AddrRange where
  ipv6 : Bool
  range : Range
  deriving DecidableEq

structure NetshRule where
  name : String
  direction : Direction
  protocol : Protocol
  remotePorts : Option (List Range)
  localPorts : Option (List Range)
  remoteIp : List (List AddrRange)
  deriving DecidableEq

def maxAddress (ipv6 : Bool) : Nat := if ipv6 then 2 ^ 128 - 1 else 2 ^ 32 - 1

/- What a working stack needs: loopback, and in IPv6 link-local and multicast. -/
def neededRanges (ipv6 : Bool) : List Range :=
  if ipv6 then
    [(1, 1), (0xfe80 * 2 ^ 112, 0xfec0 * 2 ^ 112 - 1), (0xff00 * 2 ^ 112, 2 ^ 128 - 1)]
  else [(127 * 2 ^ 24, 128 * 2 ^ 24 - 1)]

def netshBlockedAddresses (allowed : List IpAddr) (ipv6 : Bool) : List AddrRange :=
  (gaps (neededRanges ipv6 ++ (inFamily ipv6 allowed).map fun ip => (ip.value, ip.value))
    (maxAddress ipv6)).map fun range => ⟨ipv6, range⟩

def bothFamilies (keep : List IpAddr) : List (List AddrRange) :=
  [netshBlockedAddresses keep false, netshBlockedAddresses keep true]

def exactly (ip : IpAddr) : AddrRange := ⟨ip.isIpv6, (ip.value, ip.value)⟩

/- A resolver that is also a platform address stays fully open. -/
def netshResolvers (allowed dnsServers : List IpAddr) : List IpAddr :=
  dnsServers.filter fun ip => decide (ip ∉ allowed)

def netshApply (allowed dnsServers : List IpAddr) : List NetshRule :=
  let resolvers := netshResolvers allowed dnsServers
  let keep := allowed ++ resolvers
  let listed := [resolvers.map exactly]
  let otherPorts : List Range := [(1, 52), (54, 65535)]
  [⟨"OutTCP", .outbound, .tcp, none, none, bothFamilies keep⟩,
    ⟨"OutUDP", .outbound, .udp, none, none, bothFamilies (keep ++ [.broadcast])⟩,
    ⟨"OutICMPv4", .outbound, .icmp, none, none, [netshBlockedAddresses allowed false]⟩] ++
  (if resolvers = [] then []
    else [⟨"OutDnsTCP", .outbound, .tcp, some otherPorts, none, listed⟩,
      ⟨"OutDnsUDP", .outbound, .udp, some otherPorts, none, listed⟩]) ++
  [⟨"OutDHCP", .outbound, .udp, some [(1, 66), (68, 65535)], none, [[exactly .broadcast]]⟩,
    ⟨"InTCP", .inbound, .tcp, none, none, bothFamilies allowed⟩,
    ⟨"InUDP", .inbound, .udp, none, some [(1, 67), (69, 65535)], bothFamilies allowed⟩]

/- `NETSH_RULES`: the names the release deletes. -/
def netshRules : List String :=
  ["OutTCP", "OutUDP", "OutICMPv4", "OutDnsTCP", "OutDnsUDP", "OutDHCP", "InTCP", "InUDP"]

/- The text of the rules and commands. `display` writes an address. -/
section Text
variable (display : IpAddr → String)

def PfRule.words (rule : PfRule) : List String :=
  [if rule.pass then "pass" else "block drop"] ++
  (match rule.direction with | none => [] | some .inbound => ["in"] | some .outbound => ["out"]) ++
  ["quick"] ++ (if rule.onLoopback then ["on lo0"] else []) ++
  (match rule.ipv6 with | none => [] | some false => ["inet"] | some true => ["inet6"]) ++
  (match rule.protocols with
    | [] => []
    | [.udp] => ["proto udp"]
    | [.icmp6] => ["proto icmp6"]
    | _ => ["proto \x7b tcp, udp \x7d"]) ++
  (match rule.hosts with
    | none => ["all"]
    | some hosts => ["from any"] ++ (hosts.fromPort.map fun n => "port " ++ toString n).toList ++
        ["to " ++ (hosts.toAddress.map display).getD "any"] ++
        (hosts.toPort.map fun n => "port " ++ toString n).toList) ++
  (match rule.state with | .unsaid => [] | .keepState => ["keep state"] | .noState => ["no state"])

/- The file loaded into the anchor. -/
def pfRulesText (allowed dnsServers : List IpAddr) : String :=
  "# Sentinel GRC - host isolation. Managed by the agent, do not edit.\n" ++
    String.join ((pfRules allowed dnsServers).map fun rule =>
      " ".intercalate (rule.words display) ++ "\n")

def Chain.name : Chain → String
  | .isoIn => "SENTINEL_ISO_IN"
  | .isoOut => "SENTINEL_ISO_OUT"

def Hook.name : Hook → String
  | .input => "INPUT"
  | .output => "OUTPUT"
  | .forward => "FORWARD"

def iptProtocol : Protocol → String
  | .tcp => "tcp"
  | .udp => "udp"
  | .icmp => "icmp"
  | .icmp6 => "ipv6-icmp"
  | .other number => toString number

def CtState.name : CtState → String
  | .new => "NEW"
  | .established => "ESTABLISHED"
  | .related => "RELATED"
  | .invalid => "INVALID"

def IptRule.args (rule : IptRule) : List String :=
  (if rule.inLoopback then ["-i", "lo"] else []) ++
  (if rule.outLoopback then ["-o", "lo"] else []) ++
  ((rule.protocol.map fun p => ["-p", iptProtocol p]).getD []) ++
  ((rule.source.map fun ip => ["-s", display ip]).getD []) ++
  ((rule.destination.map fun ip => ["-d", display ip]).getD []) ++
  ((rule.sourcePort.map fun n => ["--sport", toString n]).getD []) ++
  ((rule.destinationPort.map fun n => ["--dport", toString n]).getD []) ++
  ((rule.ctstate.map fun s => ["-m", "conntrack", "--ctstate", s.name]).getD []) ++
  ["-j", if rule.accept then "ACCEPT" else "DROP"]

def IptCommand.args : IptCommand → List String
  | .newChain chain => ["-N", chain.name]
  | .append chain rule => ["-A", chain.name] ++ rule.args display
  | .insertHook hook chain => ["-I", hook.name, "1", "-j", chain.name]
  | .deleteHook hook chain => ["-D", hook.name, "-j", chain.name]
  | .flush chain => ["-F", chain.name]
  | .deleteChain chain => ["-X", chain.name]

def IptCommand.command (ipv6 : Bool) (command : IptCommand) : Command :=
  ⟨if ipv6 then "ip6tables" else "iptables", command.args display⟩

/- The address a number of a range stands for. -/
def addressOf (ipv6 : Bool) (n : Nat) : IpAddr :=
  if ipv6 then .v6 (Fin.ofNat _ n) else .v4 (Fin.ofNat _ n)

def AddrRange.text (addresses : AddrRange) : String :=
  let shown := fun n => display (addressOf addresses.ipv6 n)
  if addresses.range.1 = addresses.range.2 then shown addresses.range.1
  else shown addresses.range.1 ++ "-" ++ shown addresses.range.2

def portsText (ports : List Range) : String :=
  ",".intercalate (ports.map fun range => toString range.1 ++ "-" ++ toString range.2)

def netshProtocol : Protocol → String
  | .tcp => "TCP"
  | .udp => "UDP"
  | .icmp => "icmpv4"
  | .icmp6 => "icmpv6"
  | .other number => toString number

def netshRuleName (rule : String) : String := "name=SentinelIsolation_" ++ rule

def NetshRule.command (rule : NetshRule) : Command :=
  { program := "netsh"
    args := ["advfirewall", "firewall", "add", "rule", netshRuleName rule.name,
      "dir=" ++ (if rule.direction = .inbound then "in" else "out"), "action=block",
      "protocol=" ++ netshProtocol rule.protocol] ++
      (rule.remotePorts.map fun ports => "remoteport=" ++ portsText ports).toList ++
      (rule.localPorts.map fun ports => "localport=" ++ portsText ports).toList ++
      ["remoteip=" ++ ",".intercalate
        (rule.remoteIp.map fun group => ",".intercalate (group.map (AddrRange.text display)))] }

def netshDelete (rule : String) : Command :=
  ⟨"netsh", ["advfirewall", "firewall", "delete", "rule", netshRuleName rule]⟩

end Text
end SentinelAgent.Isolation
