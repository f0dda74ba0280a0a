import SentinelAgent.Network.BeaconingDetector

/- The detection rules made from threat intelligence, and the detectors that keep something of
   them or of the connections they have seen. -/
namespace SentinelAgent.Network

/- Indicators of the rules that intelligence adds to. -/
structure DetectionRules where
  maliciousIps : Finset String
  maliciousDomains : Finset String
  c2Ports : Finset Nat
  miningPools : Finset String

def DetectionRules.default : DetectionRules where
  maliciousIps := ∅
  maliciousDomains := ∅
  c2Ports := [4444, 1337, 31337, 5555, 6666, 9999, 12345, 20000, 65535].toFinset
  miningPools :=
    ["pool.minexmr.com", "xmr.pool.minergate.com", "xmr-eu1.nanopool.org",
     "xmr-us-east1.nanopool.org", "pool.supportxmr.com", "xmrpool.eu", "monerohash.com",
     "moneroocean.stream", "hashvault.pro", "gulf.moneroocean.stream", "pool.hashvault.pro",
     "stratum+tcp://", "nicehash.com", "2miners.com", "f2pool.com", "ethermine.org",
     "sparkpool.com"].toFinset

def DetectionRules.fromThreatIntel (intel : ThreatIntelligence) : DetectionRules where
  maliciousIps := DetectionRules.default.maliciousIps ∪ intel.maliciousIps.toFinset
  maliciousDomains := DetectionRules.default.maliciousDomains ∪ intel.maliciousDomains.toFinset
  c2Ports := DetectionRules.default.c2Ports ∪ intel.c2Ports.toFinset
  miningPools := DetectionRules.default.miningPools ∪ intel.miningPools.toFinset

structure C2Detector where
  c2Ports : Finset Nat
  maliciousIps : Finset String

namespace C2Detector

def new (rules : DetectionRules) : C2Detector := ⟨rules.c2Ports, rules.maliciousIps⟩

def createC2PortAlert (now : Int) (conn : NetworkConnection) (port : Nat) :
    NetworkSecurityAlert where
  alertType := .suspiciousPort
  severity := .medium
  title := "Connexion sur un port associé à un C2 : " ++ port.repr
  description := "Connexion établie vers le port distant " ++ port.repr ++
    ", souvent utilisé pour communiquer avec un serveur de commande et contrôle" ++
    processInfo conn ++ ". Adresse distante : " ++ conn.remoteAddress.getD "inconnue" ++ "."
  connection := some conn
  evidence := jsonFields
    [("port", .number port),
     ("remote_address", jsonOption jsonText conn.remoteAddress),
     ("local_port", .number conn.localPort),
     ("process_name", jsonOption jsonText conn.processName),
     ("process_path", jsonOption jsonText conn.processPath),
     ("pid", jsonOption .number conn.pid),
     ("detection_reason", jsonText "known_c2_port")]
  confidence := 40
  detectedAt := now
  iocsMatched := ["port:" ++ port.repr]

def createMaliciousIpAlert (now : Int) (conn : NetworkConnection) (ip : String) :
    NetworkSecurityAlert where
  alertType := .maliciousDestination
  severity := .critical
  title := "Connexion à une adresse IP malveillante connue : " ++ ip
  description := "Connexion active vers l'adresse IP " ++ ip ++
    ", listée comme malveillante par le renseignement sur les menaces" ++ processInfo conn ++ "."
  connection := some conn
  evidence := jsonFields
    [("malicious_ip", jsonText ip),
     ("local_address", jsonText conn.localAddress),
     ("local_port", .number conn.localPort),
     ("remote_port", jsonOption .number conn.remotePort),
     ("process_name", jsonOption jsonText conn.processName),
     ("process_path", jsonOption jsonText conn.processPath),
     ("pid", jsonOption .number conn.pid),
     ("detection_reason", jsonText "known_malicious_ip")]
  confidence := 95
  detectedAt := now
  iocsMatched := ["ip:" ++ ip]

/- The alerts for one connection: for its port, then for its address. -/
def detectIn (d : C2Detector) (now later : Int) (conn : NetworkConnection) :
    List NetworkSecurityAlert :=
  if conn.state = .established then
    ((conn.remotePort.filter fun port => decide (port ∈ d.c2Ports)).map
        (createC2PortAlert now conn)).toList ++
      ((conn.remoteAddress.filter fun ip => decide (ip ∈ d.maliciousIps)).map
        (createMaliciousIpAlert later conn)).toList
  else []

def detect (d : C2Detector) (clock : Nat → Int) (conns : List NetworkConnection) :
    List NetworkSecurityAlert :=
  conns.zipIdx.flatMap fun p => d.detectIn (clock (2 * p.2)) (clock (2 * p.2 + 1)) p.1

end C2Detector

/- The other detectors keep nothing of one snapshot for the next. -/
structure SecurityDetector where
  rules : DetectionRules
  c2Detector : C2Detector
  beaconingDetector : BeaconingDetector

namespace SecurityDetector

def new : SecurityDetector :=
  ⟨.default, C2Detector.new .default, BeaconingDetector.new⟩

def updateThreatIntel (_ : SecurityDetector) (intel : ThreatIntelligence) : SecurityDetector :=
  let rules := DetectionRules.fromThreatIntel intel
  ⟨rules, C2Detector.new rules, BeaconingDetector.new⟩

/- Connections of the agent itself are left out. -/
def external (host : Host) (conns : List NetworkConnection) : List NetworkConnection :=
  conns.filter fun conn => conn.pid != some host.myPid

def recordConnectionsForBeaconing (host : Host) (clock : Nat → Int)
    (conns : List NetworkConnection) (d : SecurityDetector) : SecurityDetector :=
  { d with
    beaconingDetector := d.beaconingDetector.recordSnapshot host clock (external host conns) }

/- What the analysis of a snapshot has of beacons. -/
def beacons (host : Host) (clock : Nat → Int) (conns : List NetworkConnection)
    (d : SecurityDetector) : List NetworkSecurityAlert :=
  d.beaconingDetector.detect host clock (external host conns)

end SecurityDetector
end SentinelAgent.Network
