import Mathlib.Data.Nat.Bitwise
import SentinelAgent.Network.Connection

/-!
The indicators of a feed: each text of the feed is read as a hash, an address or a domain. URLs
are read by a library.
-/
namespace SentinelAgent.ThreatFeed
open Isolation Network Response Text

def maxIndicatorsPerFeed : Nat := 500000

structure Indicators where
  ips : Std.TreeSet String
  domains : Std.TreeSet String
  hashes : Std.TreeSet String

def Indicators.default : Indicators := ⟨∅, ∅, ∅⟩

def Indicators.len (known : Indicators) : Nat :=
  known.ips.size + known.domains.size + known.hashes.size

def Indicators.isFull (known : Indicators) : Bool := decide (maxIndicatorsPerFeed ≤ known.len)

def trimMatches (marks : List Char) (text : String) : String :=
  String.ofList ((text.toList.dropWhile fun c => marks.contains c).reverse.dropWhile fun c =>
    marks.contains c).reverse

def isHexDigit (c : Char) : Bool := (hexValue c).isSome

def sha256Indicator (raw : String) : Option String :=
  let value := trimMatches ['"', '\''] (trim raw)
  if value.utf8ByteSize = 64 ∧ value.toList.all isHexDigit then some (toAsciiLowercase value)
  else none

/- The text without the port at its end, if it has one. -/
def withoutPort (value : String) : String :=
  match splitLast ':' value with
  | some (host, port) => if port ≠ "" ∧ allDigits port then host else value
  | none => value

section Host
/- The host of a URL, as the library that reads it gives it. -/
variable (urlHost : String → Option String)

def hostOf (raw : String) : Option String :=
  let value := trimMatches ['"', '\''] (trim raw)
  if value = "" then none
  else if contains value "://" then (urlHost value).map (trimMatches ['[', ']'])
  else if (parseIpAddr value).isSome then some value
  else
    let first := ((split '/' value).head?).getD value
    some (trimMatches ['[', ']'] (withoutPort first))

end Host

/- Addresses that can be met on the Internet. -/
def isPublicAddress : IpAddr → Bool
  | .v4 address =>
    let first := address.val / 2 ^ 24
    let second := address.val / 2 ^ 16 % 256
    let isPrivate := first = 10 ∨ (first = 172 ∧ 16 ≤ second ∧ second ≤ 31) ∨
      (first = 192 ∧ second = 168)
    let isLinkLocal := first = 169 ∧ second = 254
    let isMulticast := 224 ≤ first ∧ first ≤ 239
    let isShared := first = 100 ∧ 64 ≤ second ∧ second ≤ 127
    let isReserved := 240 ≤ first
    !decide (isPrivate ∨ first = 127 ∨ isLinkLocal ∨ address.val = 0 ∨ isMulticast ∨ isShared ∨
      isReserved)
  | .v6 address =>
    let first := address.val / 2 ^ 112
    let isMulticast := first / 256 = 0xff
    let isUniqueLocal := first &&& 0xfe00 = 0xfc00
    let isLinkLocal := first &&& 0xffc0 = 0xfe80
    !decide (address.val = 1 ∨ address.val = 0 ∨ isMulticast ∨ isUniqueLocal ∨ isLinkLocal)

def validLabel (label : String) : Bool :=
  label ≠ "" ∧ label.utf8ByteSize ≤ 63 ∧ ¬ startsWith label '-' ∧ ¬ endsWith "-" label ∧
    label.toList.all fun c => c.isAlphanum || c = '-' || c = '_'

def normalizeDomain (raw : String) : Option String :=
  let domain := toAsciiLowercase (trimEndOf '.' (trim raw))
  let labels := split '.' domain
  if domain.utf8ByteSize ≤ 253 ∧ 2 ≤ labels.length ∧ labels.all validLabel ∧
      (labels.getLast?).any (fun last => !allDigits last) then some domain
  else none

variable (urlHost : String → Option String)

/- Adds the indicator, and tells whether it was accepted: whether it is one that was not known. -/
def Indicators.add (known : Indicators) (raw : String) : Indicators × Bool :=
  if known.isFull then (known, false)
  else
    match sha256Indicator raw with
    | some hash => ({ known with hashes := known.hashes.insert hash }, !known.hashes.contains hash)
    | none =>
      match hostOf urlHost raw with
      | none => (known, false)
      | some host =>
        match parseIpAddr host with
        | some ip =>
          if isPublicAddress ip then
            ({ known with ips := known.ips.insert (addressText ip) },
              !known.ips.contains (addressText ip))
          else (known, false)
        | none =>
          match normalizeDomain host with
          | some domain =>
            ({ known with domains := known.domains.insert domain }, !known.domains.contains domain)
          | none => (known, false)

/- The indicators of a feed, from the texts it has. -/
def indicatorsOf (raws : List String) : Indicators :=
  raws.foldl (fun known raw => (known.add urlHost raw).1) .default

def Indicators.merge (known other : Indicators) : Indicators where
  ips := other.ips.foldl (fun all ip => all.insert ip) known.ips
  domains := other.domains.foldl (fun all domain => all.insert domain) known.domains
  hashes := other.hashes.foldl (fun all hash => all.insert hash) known.hashes

/- What the network detector is given of the feeds. -/
def intelOf (feeds : List Indicators) : ThreatIntelligence :=
  let merged := feeds.foldl Indicators.merge .default
  { maliciousIps := merged.ips.toList
    maliciousDomains := merged.domains.toList
    c2Ports := []
    miningPools := [] }

end SentinelAgent.ThreatFeed
