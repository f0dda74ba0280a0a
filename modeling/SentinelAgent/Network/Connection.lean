import SentinelAgent.Library.Json
import SentinelAgent.Response.Allowlist

/- The text an address is displayed as. -/
namespace SentinelAgent.Network
open Isolation

/- An IPv6 address as its eight groups. -/
def segments (address : Nat) : List Nat :=
  (List.range 8).map fun i => address / 65536 ^ (7 - i) % 65536

def octets (address : Nat) : List Nat := (List.range 4).map fun i => address / 256 ^ (3 - i) % 256

def ipv4Text (address : Nat) : List Char :=
  ['.'].intercalate ((octets address).map fun octet => octet.repr.toList)

/- Where the longest run of zeros starts, and how long it is: the first one among equals. -/
def longestZeros : Nat → Nat × Nat → Nat × Nat → List Nat → Nat × Nat
  | _, longest, _, [] => longest
  | i, longest, current, segment :: rest =>
    if segment = 0 then
      let current := if current.2 = 0 then (i, 1) else (current.1, current.2 + 1)
      longestZeros (i + 1) (if longest.2 < current.2 then current else longest) current rest
    else longestZeros (i + 1) longest (0, 0) rest

def groupsText (groups : List Nat) : List Char := [':'].intercalate (groups.map (Nat.toDigits 16))

/- The last 32 bits of an IPv4-mapped address are written as an IPv4 address; elsewhere the
   longest run of zeros is left out, when there are two of them at least. -/
def ipv6Text (address : Nat) : List Char :=
  if address / 2 ^ 32 = 0xffff then [':', ':', 'f', 'f', 'f', 'f', ':'] ++ ipv4Text (address % 2 ^ 32)
  else
    let groups := segments address
    let zeros := longestZeros 0 (0, 0) (0, 0) groups
    if 1 < zeros.2 then
      groupsText (groups.take zeros.1) ++ [':', ':'] ++ groupsText (groups.drop (zeros.1 + zeros.2))
    else groupsText groups

def addressText : IpAddr → String
  | .v4 address => String.ofList (ipv4Text address.val)
  | .v6 address => String.ofList (ipv6Text address.val)

example : addressText (.v6 (Fin.ofNat _ 0x20010db8000000000000000000002003)) = "2001:db8::2003" := by
  decide

def isLoopback : IpAddr → Bool
  | .v4 address => decide (address.val / 2 ^ 24 = 127)
  | .v6 address => decide (address.val = 1)

/-! Connections of a host, and the alerts raised for them. -/

inductive ConnectionProtocol where
  | tcp | udp | tcp6 | udp6
  deriving DecidableEq

inductive ConnectionState where
  | established | listen | timeWait | closeWait | synSent | synReceived | finWait1 | finWait2
  | closing | lastAck | closed | unknown
  deriving DecidableEq

structure NetworkConnection where
  protocol : ConnectionProtocol
  localAddress : String
  localPort : Nat
  remoteAddress : Option String
  remotePort : Option Nat
  state : ConnectionState
  pid : Option Nat
  processName : Option String
  processPath : Option String
  deriving DecidableEq

inductive AlertSeverity where
  | low | medium | high | critical
  deriving DecidableEq

inductive NetworkAlertType where
  | c2Communication | cryptoMining | dataExfiltration | suspiciousPort | maliciousDestination
  | dnsTunneling | anonymizationNetwork | connectionAnomaly
  deriving DecidableEq

/- Times are in nanoseconds. -/
structure NetworkSecurityAlert where
  alertType : NetworkAlertType
  severity : AlertSeverity
  title : String
  description : String
  connection : Option NetworkConnection
  evidence : Json Nat
  confidence : Nat
  detectedAt : Int
  iocsMatched : List String

structure ThreatIntelligence where
  maliciousIps : List String
  maliciousDomains : List String
  c2Ports : List Nat
  miningPools : List String

def jsonText (s : String) : Json Nat := .string s.toList

def jsonOption {A : Type} (write : A → Json Nat) : Option A → Json Nat
  | some value => write value
  | none => .null

def jsonFields (fields : List (String × Json Nat)) : Json Nat :=
  .object (fields.map fun field => (field.1.toList, field.2))

/- Who holds the connection, as the descriptions of alerts have it. -/
def processInfo (conn : NetworkConnection) : String :=
  match conn.processName with
  | some name => " par le processus « " ++ name ++ " »"
  | none => ""

end SentinelAgent.Network
