import Mathlib.Data.List.MinMax
import SentinelAgent.Library.Maps
import SentinelAgent.Network.Connection

/-!
The beaconing detector: contacts of the last hour with each destination, taken from snapshots of
the connections, and the destinations that are contacted at regular intervals. Each reading of
the clock is an argument.
-/
namespace SentinelAgent.Network
open Isolation Maps Response Text

structure BeaconingConfig where
  minConnections : Nat
  maxJitterPercent : Float
  minConfidence : Nat
  analysisWindowSecs : Nat
  minBeaconIntervalSecs : Int
  maxBeaconIntervalSecs : Int
  maxTrackedDestinations : Nat
  maxEventsPerDestination : Nat

def BeaconingConfig.default : BeaconingConfig where
  minConnections := 5
  maxJitterPercent := 15.0
  minConfidence := 70
  analysisWindowSecs := 3600
  minBeaconIntervalSecs := 30
  maxBeaconIntervalSecs := 3600
  maxTrackedDestinations := 10000
  maxEventsPerDestination := 1000

structure ConnectionEvent where
  destination : String
  timestamp : Int
  processName : Option String
  pid : Option Nat
  deriving DecidableEq

abbrev History := Map String (List ConnectionEvent)

/- The process, and what its standard library decides: the order a table is gone through in, and
   the texts that rest on tables of characters. -/
structure Host where
  myPid : Nat
  order : History → List String
  order_nodup : ∀ history, (order history).Nodup
  mem_order : ∀ history key, key ∈ order history ↔ key ∈ history
  toLowercase : String → String
  debugText : String → String

structure BeaconingAnalysis where
  destination : String
  avgIntervalSecs : Float
  stdDevSecs : Float
  jitterPercent : Float
  connectionCount : Nat
  confidence : Nat
  isBeaconing : Bool

structure BeaconingDetector where
  config : BeaconingConfig
  connectionHistory : History
  whitelist : List String
  observedSockets : Finset String

/- A number with so many decimals: the nearest one, the even one of two as near. -/
def fixedText (places : Nat) (x : Float) : String :=
  let bits : Nat := x.toBits.toNat
  let sign := if bits / 2 ^ 63 = 1 then "-" else ""
  let exponent : Nat := bits / 2 ^ 52 % 2048
  let fraction : Nat := bits % 2 ^ 52
  if exponent = 2047 then if fraction = 0 then sign ++ "inf" else "NaN"
  else
    let mantissa := if exponent = 0 then fraction else fraction + 2 ^ 52
    let power : Int := if exponent = 0 then -1074 else (exponent : Int) - 1075
    let above := mantissa * 10 ^ places * 2 ^ power.toNat
    let below := 2 ^ (-power).toNat
    let up := below < 2 * (above % below) ∨ (below = 2 * (above % below) ∧ above / below % 2 = 1)
    let rounded := above / below + (if up then 1 else 0)
    let decimals := (rounded % 10 ^ places).repr
    sign ++ (rounded / 10 ^ places).repr ++
      if places = 0 then ""
      else "." ++ String.ofList (List.replicate (places - decimals.length) '0') ++ decimals

def protocolName : ConnectionProtocol → String
  | .tcp => "Tcp"
  | .udp => "Udp"
  | .tcp6 => "Tcp6"
  | .udp6 => "Udp6"

def debugOption (write : A → String) : Option A → String
  | some value => "Some(" ++ write value ++ ")"
  | none => "None"

def defaultWhitelist : List String :=
  ["cloudfunctions.net", "run.app", "googleapis.com", "google.com", "microsoft.com", "azure.com",
   "amazonaws.com", "cloudflare.com", "apple.com", "icloud.com", "dropbox.com", "slack.com",
   "zoom.us", "teams.microsoft.com", "pool.ntp.org", "127.0.0.1", "localhost", "::1"]

def destinationOf (address : String) (port : Nat) : String := address ++ ":" ++ port.repr

def seconds (n : Nat) : Int := n * 1000000000

namespace BeaconingDetector

def withConfig (config : BeaconingConfig) : BeaconingDetector := ⟨config, ∅, defaultWhitelist, ∅⟩

/- The rules of the detection say nothing of beacons. -/
def new : BeaconingDetector := withConfig .default

variable (host : Host)

/- The host of a destination, in lower case and without its port. -/
def hostOf (destination : String) : String :=
  match parseIpAddr destination with
  | some address => addressText address
  | none =>
    let before := match splitLast ':' destination with
      | some (name, port) => if (parseUnsigned 16 port).isSome then name else destination
      | none => destination
    host.toLowercase (trimEndOf '.' before)

def isWhitelisted (d : BeaconingDetector) (destination : String) : Bool :=
  let name := hostOf host destination
  (parseIpAddr name).any isLoopback ||
    d.whitelist.any fun domain => name == domain || endsWith ("." ++ domain) name

/- The destination a connection is a contact with. -/
def contactOf (d : BeaconingDetector) (conn : NetworkConnection) : Option String :=
  if conn.state = .established then
    match conn.remoteAddress, conn.remotePort with
    | some address, some port =>
      if d.isWhitelisted host (destinationOf address port) ∨ d.isWhitelisted host address then none
      else some (destinationOf address port)
    | _, _ => none
  else none

/- Contacts outside the window are dropped, and destinations without any. -/
def cleanupOldEvents (now : Int) (d : BeaconingDetector) : BeaconingDetector :=
  let cutoff := now - seconds d.config.analysisWindowSecs
  let recent := d.connectionHistory.adjust fun _ events =>
    events.filter fun e => decide (cutoff < e.timestamp)
  { d with connectionHistory := recent.retain fun _ events => !events.isEmpty }

/- A new destination takes the place of the one with the fewest contacts, when there are as many
   as can be. -/
def makeRoom (d : BeaconingDetector) (destination : String) : History :=
  if destination ∉ d.connectionHistory ∧
      d.config.maxTrackedDestinations ≤ d.connectionHistory.size then
    let contacts (key : String) := ((d.connectionHistory.lookup key).getD []).length
    match (host.order d.connectionHistory).argmin contacts with
    | some evicted => d.connectionHistory.erase evicted
    | none => d.connectionHistory
  else d.connectionHistory

/- `now` is read for the contact, `later` when old ones are dropped. -/
def recordConnection (now later : Int) (d : BeaconingDetector) (conn : NetworkConnection) :
    BeaconingDetector :=
  match d.contactOf host conn with
  | some destination =>
    let kept := d.makeRoom host destination
    let events := (kept.lookup destination).getD [] ++
      [⟨destination, now, conn.processName, conn.pid⟩]
    let excess := events.length - d.config.maxEventsPerDestination
    cleanupOldEvents later
      { d with connectionHistory := kept.insert destination (events.drop excess) }
  | none => d

/- What tells one socket from another. -/
def socketKey (conn : NetworkConnection) : String :=
  protocolName conn.protocol ++ "|" ++ conn.localAddress ++ "|" ++ conn.localPort.repr ++ "|" ++
    debugOption host.debugText conn.remoteAddress ++ "|" ++
    debugOption Nat.repr conn.remotePort ++ "|" ++ debugOption Nat.repr conn.pid

/- A socket is new that neither this snapshot nor the one before it had. -/
def recordNew (now later : Int) (current : Finset String) (d : BeaconingDetector)
    (conn : NetworkConnection) : BeaconingDetector :=
  if socketKey host conn ∉ current ∧ socketKey host conn ∉ d.observedSockets then
    d.recordConnection host now later conn
  else d

/- The sockets of a snapshot one by one, with those of it that were met already. The clock is
   read twice for the contact at each position. -/
def recordEach (clock : Nat → Int) :
    Nat → Finset String → List NetworkConnection → BeaconingDetector →
      Finset String × BeaconingDetector
  | _, current, [], d => (current, d)
  | k, current, conn :: rest, d =>
    recordEach clock (k + 1) (insert (socketKey host conn) current) rest
      (d.recordNew host (clock (2 * k)) (clock (2 * k + 1)) current conn)

/- Only sockets that the snapshot before did not have are new contacts. -/
def recordSnapshot (clock : Nat → Int) (conns : List NetworkConnection) (d : BeaconingDetector) :
    BeaconingDetector :=
  let established := conns.filter fun conn => conn.state == .established
  let recorded := recordEach host clock 0 ∅ established d
  cleanupOldEvents (clock (2 * established.length))
    { recorded.2 with observedSockets := recorded.1 }

end BeaconingDetector

/-! Which of the destinations are contacted at regular intervals, and the alert for each. -/

namespace BeaconingDetector
open Maps

/- Whole seconds between each contact and the next. -/
def intervals (events : List ConnectionEvent) : List Float :=
  List.zipWith (fun first next => Float.ofInt ((next.timestamp - first.timestamp).tdiv 1000000000))
    events events.tail

def sum (values : List Float) : Float := values.foldl (· + ·) 0.0

/- The more regular, the more intervals, the more usual the interval, and one process only. -/
def calculateConfidence (intervalCount : Nat) (jitterPercent avgInterval : Float)
    (events : List ConnectionEvent) : Nat :=
  let regular : Float :=
    if jitterPercent < 5.0 then 40.0
    else if jitterPercent < 10.0 then 30.0
    else if jitterPercent < 15.0 then 20.0
    else if jitterPercent < 20.0 then 10.0
    else 0.0
  let share := Float.ofNat intervalCount / 20.0
  let score := regular + (if share ≤ 1.0 then share else 1.0) * 30.0
  let score :=
    if 60.0 ≤ avgInterval ∧ avgInterval ≤ 900.0 then score + 20.0
    else if 30.0 ≤ avgInterval ∧ avgInterval ≤ 1800.0 then score + 10.0
    else score
  let score :=
    match events with
    | [] => score
    | first :: _ =>
      if (events.all fun e => e.processName == first.processName) ∧ first.processName.isSome then
        score + 10.0
      else score
  min (if score ≤ 100.0 then score else 100.0).toUInt8.toNat 100

def analyzeDestination (d : BeaconingDetector) (destination : String)
    (events : List ConnectionEvent) : Option BeaconingAnalysis :=
  if events.length < d.config.minConnections then none
  else
    let sorted := events.mergeSort fun a b => decide (a.timestamp ≤ b.timestamp)
    let intervals := intervals sorted
    if intervals.any fun i => decide (i < Float.ofInt d.config.minBeaconIntervalSecs) ||
        decide (Float.ofInt d.config.maxBeaconIntervalSecs < i) then none
    else if intervals.length < d.config.minConnections - 1 then none
    else if intervals = [] then none
    else
      let count := Float.ofNat intervals.length
      let avgInterval := sum intervals / count
      let variance := sum (intervals.map fun i => (i - avgInterval) * (i - avgInterval)) / count
      let stdDev := variance.sqrt
      let jitterPercent := if 0.0 < avgInterval then stdDev / avgInterval * 100.0 else 100.0
      let confidence := calculateConfidence intervals.length jitterPercent avgInterval sorted
      some {
        destination
        avgIntervalSecs := avgInterval
        stdDevSecs := stdDev
        jitterPercent
        connectionCount := events.length
        confidence
        isBeaconing := decide (jitterPercent ≤ d.config.maxJitterPercent) &&
          decide (d.config.minConfidence ≤ confidence) }

def intervalText (secs : Float) : String :=
  let comma (s : String) := String.ofList (s.toList.map fun c => if c = '.' then ',' else c)
  if secs < 60.0 then fixedText 0 secs ++ " s"
  else if secs < 3600.0 then comma (fixedText 1 (secs / 60.0) ++ " min")
  else comma (fixedText 1 (secs / 3600.0) ++ " h")

def createAlert (now : Int) (conn : NetworkConnection) (analysis : BeaconingAnalysis) :
    NetworkSecurityAlert where
  alertType := .c2Communication
  severity :=
    if 90 ≤ analysis.confidence then .critical
    else if 80 ≤ analysis.confidence then .high
    else .medium
  title := "Balise vers " ++ analysis.destination
  description := "Appels réguliers vers « " ++ analysis.destination ++ " »" ++ processInfo conn ++
    ", confiance " ++ analysis.confidence.repr ++ " %. Intervalle moyen : " ++
    intervalText analysis.avgIntervalSecs ++ ", gigue : " ++ fixedText 1 analysis.jitterPercent ++
    " %. Un logiciel malveillant contacte ainsi son serveur de commande à intervalles réguliers."
  connection := some conn
  evidence := jsonFields
    [("destination", jsonText analysis.destination),
     ("confidence", .number analysis.confidence),
     ("analysis", jsonFields
       [("avg_interval_secs", jsonText (fixedText 2 analysis.avgIntervalSecs)),
        ("std_dev_secs", jsonText (fixedText 2 analysis.stdDevSecs)),
        ("jitter_percent", jsonText (fixedText 2 analysis.jitterPercent)),
        ("connection_count", .number analysis.connectionCount)]),
     ("process_name", jsonOption jsonText conn.processName),
     ("process_path", jsonOption jsonText conn.processPath),
     ("pid", jsonOption .number conn.pid),
     ("detection_reason", jsonText "periodic_beacon_pattern")]
  confidence := analysis.confidence
  detectedAt := now
  iocsMatched := ["beacon:" ++ analysis.destination]

/- A connection that is a contact with the destination. -/
def reaches (destination : String) (conn : NetworkConnection) : Bool :=
  conn.state == .established &&
    match conn.remoteAddress, conn.remotePort with
    | some address, some port => destinationOf address port == destination
    | _, _ => false

/- The clock is read first for the window, then for each of the alerts. -/
def detect (host : Host) (clock : Nat → Int) (conns : List NetworkConnection)
    (d : BeaconingDetector) : List NetworkSecurityAlert :=
  let cutoff := clock 0 - seconds d.config.analysisWindowSecs
  let found := (host.order d.connectionHistory).filterMap fun destination => do
    let history ← d.connectionHistory.lookup destination
    let recent := history.filter fun e => decide (cutoff < e.timestamp)
    let analysis ← d.analyzeDestination destination recent
    if analysis.isBeaconing then
      let conn ← conns.find? (reaches destination)
      some (conn, analysis)
    else none
  found.zipIdx.map fun p => createAlert (clock (p.2 + 1)) p.1.1 p.1.2

end BeaconingDetector
end SentinelAgent.Network
