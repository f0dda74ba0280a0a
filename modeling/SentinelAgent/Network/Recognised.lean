import SentinelAgent.Network.KernelLines
import SentinelAgent.Network.SecurityDetector
import SentinelAgent.Network.ThreatFeed

/-!
Whether a connection to an address of a feed is recognised: from the lines of the kernel and the
texts of the feeds to the alerts of the detector.
-/
namespace SentinelAgent.ThreatFeed
open Isolation Maps Network Response Text

variable (urlHost : String → Option String)

/- An address that is kept from one of the feeds. -/
def Listed (feeds : List Indicators) (ip : IpAddr) : Prop :=
  ∃ feed ∈ feeds, addressText ip ∈ feed.ips

instance (feeds : List Indicators) (ip : IpAddr) : Decidable (Listed feeds ip) :=
  inferInstanceAs (Decidable (∃ feed ∈ feeds, _))

/- The addresses the other end of a socket has: an IPv4 one too, in the mapped form. -/
def remotes : Ends → List IpAddr
  | .ipv4 _ there => [.v4 there]
  | .ipv6 _ there =>
    if there.val / 2 ^ 32 = 0xffff then [.v6 there, .v4 (Fin.ofNat (2 ^ 32) there.val)]
    else [.v6 there]

def ConnectedToListed (feeds : List Indicators) (ends : Ends) : Prop :=
  ∃ ip ∈ remotes ends, Listed feeds ip

instance (feeds : List Indicators) (ends : Ends) : Decidable (ConnectedToListed feeds ends) :=
  inferInstanceAs (Decidable (∃ ip ∈ remotes ends, _))

def detector (feeds : List Indicators) : C2Detector :=
  C2Detector.new (DetectionRules.fromThreatIntel (intelOf feeds))

def Raised (feeds : List Indicators) (clock : Nat → Int) (conns : List NetworkConnection)
    (conn : NetworkConnection) : Prop :=
  ∃ alert ∈ (detector feeds).detect clock conns,
    alert.alertType = .maliciousDestination ∧ alert.connection = some conn

instance (feeds : List Indicators) (clock : Nat → Int) (conns : List NetworkConnection)
    (conn : NetworkConnection) : Decidable (Raised feeds clock conns conn) :=
  inferInstanceAs (Decidable (∃ alert ∈ (detector feeds).detect clock conns, _ ∧ _))

structure Recognised (feeds : List Indicators) (clock : Nat → Int)
    (conns : List NetworkConnection) (socket : Socket) (conn : NetworkConnection) : Prop where
  connected : socket.state.val = established →
    (ConnectedToListed feeds socket.ends ↔ Raised feeds clock conns conn)
  unconnected : socket.state.val = listening → conn.remoteAddress = none

/- An IPv4 socket; or an IPv6 one that does not listen and, when it is connected, has no address of
   a feed at its other end or one whose eight groups have four digits each. -/
def Legible (feeds : List Indicators) (socket : Socket) : Prop :=
  match socket.ends with
  | .ipv4 _ _ => True
  | .ipv6 here there => socket.state.val ≠ listening ∧ (socket.state.val = established →
      ¬ ConnectedToListed feeds (.ipv6 here there) ∨ LongGroups there.val)

section Kept

/- What is kept of a feed are the texts of public addresses. -/
def PublicIps (known : Indicators) : Prop :=
  ∀ text ∈ known.ips, ∃ ip, isPublicAddress ip = true ∧ addressText ip = text

theorem publicIps_add {known : Indicators} (kept : PublicIps known) (raw : String) :
    PublicIps (known.add urlHost raw).1 := by
  unfold Indicators.add
  split
  · exact kept
  split
  · exact kept
  split
  · exact kept
  split
  · rename_i ip _
    split
    · rename_i is_public
      intro text member
      obtain same | old := Std.TreeSet.mem_insert.mp member
      · exact ⟨ip, is_public, Std.LawfulEqOrd.eq_of_compare same⟩
      · exact kept text old
    · exact kept
  · split
    · exact kept
    · exact kept

theorem publicIps_indicatorsOf (raws : List String) : PublicIps (indicatorsOf urlHost raws) := by
  have general : ∀ known, PublicIps known →
      PublicIps (raws.foldl (fun known raw => (known.add urlHost raw).1) known) := by
    induction raws with
    | nil => exact fun _ kept => kept
    | cons raw raws ih => exact fun known kept => ih _ (publicIps_add urlHost kept raw)
  refine general .default fun text member => ?_
  simp [Indicators.default] at member

theorem mem_foldl_insert (added known : Std.TreeSet String) (text : String) :
    text ∈ added.foldl (fun all one => all.insert one) known ↔ text ∈ known ∨ text ∈ added := by
  have general : ∀ (list : List String) (all : Std.TreeSet String),
      text ∈ list.foldl (fun all one => all.insert one) all ↔ text ∈ all ∨ text ∈ list := by
    intro list
    induction list with
    | nil => simp
    | cons one list ih =>
      intro all
      rw [List.foldl_cons, ih, Std.TreeSet.mem_insert, List.mem_cons,
        Std.LawfulEqOrd.compare_eq_iff_eq]
      tauto
  rw [Std.TreeSet.foldl_eq_foldl_toList, general, Std.TreeSet.mem_toList]

theorem mem_intelOf (feeds : List Indicators) (text : String) :
    text ∈ (intelOf feeds).maliciousIps ↔ ∃ feed ∈ feeds, text ∈ feed.ips := by
  have general : ∀ known : Indicators, text ∈ (feeds.foldl Indicators.merge known).ips ↔
      text ∈ known.ips ∨ ∃ feed ∈ feeds, text ∈ feed.ips := by
    induction feeds with
    | nil => simp
    | cons feed feeds ih =>
      intro known
      rw [List.foldl_cons, ih]
      simp [Indicators.merge, mem_foldl_insert, or_assoc]
  rw [intelOf, Std.TreeSet.mem_toList, general]
  simp [Indicators.default]

theorem mem_detector (feeds : List Indicators) (text : String) :
    text ∈ (detector feeds).maliciousIps ↔ ∃ feed ∈ feeds, text ∈ feed.ips := by
  rw [← mem_intelOf]
  simp [detector, C2Detector.new, DetectionRules.fromThreatIntel, DetectionRules.default]

end Kept

section Detected
variable {feeds : List Indicators} {conn : NetworkConnection}

theorem mem_detectIn (d : C2Detector) (now later : Int) {alert : NetworkSecurityAlert} :
    (alert ∈ d.detectIn now later conn ∧ alert.alertType = .maliciousDestination) ↔
      conn.state = .established ∧ ∃ ip, conn.remoteAddress = some ip ∧ ip ∈ d.maliciousIps ∧
        alert = C2Detector.createMaliciousIpAlert later conn ip := by
  constructor
  · rintro ⟨member, malicious⟩
    unfold C2Detector.detectIn at member
    split at member
    · rename_i connected
      refine ⟨connected, ?_⟩
      obtain by_port | by_address := List.mem_append.mp member
      · obtain ⟨port, _, rfl⟩ := Option.map_eq_some_iff.mp (Option.mem_toList.mp by_port)
        cases malicious
      · obtain ⟨ip, kept, rfl⟩ := Option.map_eq_some_iff.mp (Option.mem_toList.mp by_address)
        obtain ⟨remote, listed⟩ := Option.filter_eq_some_iff.mp kept
        exact ⟨ip, remote, of_decide_eq_true listed, rfl⟩
    · cases member
  · rintro ⟨connected, ip, remote, listed, rfl⟩
    refine ⟨?_, rfl⟩
    rw [C2Detector.detectIn, if_pos connected]
    refine List.mem_append_right _ ?_
    simp [remote, listed]

theorem raised_iff {clock : Nat → Int} {conns : List NetworkConnection} (seen : conn ∈ conns) :
    Raised feeds clock conns conn ↔ conn.state = .established ∧
      ∃ text, conn.remoteAddress = some text ∧ ∃ feed ∈ feeds, text ∈ feed.ips := by
  simp only [← mem_detector]
  constructor
  · rintro ⟨alert, member, malicious, about⟩
    obtain ⟨place, _, from_place⟩ := List.mem_flatMap.mp member
    obtain ⟨connected, ip, remote, listed, rfl⟩ := (mem_detectIn _ _ _).mp ⟨from_place, malicious⟩
    cases about
    exact ⟨connected, ip, remote, listed⟩
  · rintro ⟨connected, ip, remote, listed⟩
    obtain ⟨i, bound, here⟩ := List.mem_iff_getElem.mp seen
    have alert := (mem_detectIn (detector feeds) (clock (2 * i)) (clock (2 * i + 1))).mpr
      ⟨connected, ip, remote, listed, rfl⟩
    refine ⟨_, List.mem_flatMap.mpr ⟨(conn, i), ?_, alert.1⟩, alert.2, rfl⟩
    rw [List.mem_zipIdx_iff_getElem?]
    exact (List.getElem?_eq_getElem bound).trans (congrArg some here)

end Detected

/-! The texts of addresses of the two families. -/

theorem splitOn_ipv4Text (address : Nat) :
    (ipv4Text address).splitOn '.' = (octets address).map fun octet => octet.repr.toList := by
  refine List.splitOn_intercalate '.' ?_ (by simp [octets])
  intro piece member digit
  obtain ⟨octet, _, rfl⟩ := List.mem_map.mp member
  exact absurd (repr_digits octet '.' digit) (by decide)

theorem colon_notMem_ipv4Text (address : Nat) : ':' ∉ ipv4Text address := by
  intro member
  have digits (n : Nat) : ':' ∉ Nat.toDigits 10 n :=
    mark_notMem_digits (by decide) (by omega) (by omega) n
  rw [ipv4Text, octets_eq] at member
  simp [List.intercalate, digits] at member

theorem colon_mem_ipv6Text (address : Nat) : ':' ∈ ipv6Text address := by
  unfold ipv6Text
  split
  · exact List.mem_cons_self ..
  · dsimp only
    split
    · exact List.mem_append_left _ (List.mem_append_right _ (List.mem_cons_self ..))
    · rw [groupsText, segments_eq, addressWords_eq]
      simp [List.intercalate]

theorem colon_mem_fullText (address : Nat) : ':' ∈ fullText address := by
  rw [fullText_eq, addressWords_eq]
  simp [List.intercalate]

theorem ipv4Text_eq_zero {address : Nat} (small : address < 4294967296)
    (zero : ipv4Text address = "0.0.0.0".toList) : address = 0 := by
  have pieces := splitOn_ipv4Text address
  have zeros : ("0.0.0.0".toList).splitOn '.' = [['0'], ['0'], ['0'], ['0']] := by decide
  have one (n : Nat) (same : ['0'] = n.repr.toList) : n = 0 :=
    repr_injective (String.toList_injective same.symm)
  rw [zero, zeros, octets_eq] at pieces
  simp only [List.map_cons, List.map_nil, List.cons.injEq, and_true] at pieces
  have first := one _ pieces.1
  have second := one _ pieces.2.1
  have third := one _ pieces.2.2.1
  have last := one _ pieces.2.2.2
  omega

/- The address that stands for none is of no feed. -/
theorem zero_not_kept {known : Indicators} (kept : PublicIps known) : "0.0.0.0" ∉ known.ips := by
  intro member
  obtain ⟨ip, is_public, text⟩ := kept _ member
  cases ip with
  | v4 address =>
    have zero := ipv4Text_eq_zero address.isLt (String.ofList_injective text)
    simp [isPublicAddress, zero] at is_public
  | v6 address =>
    have colon := colon_mem_ipv6Text address.val
    rw [String.ofList_injective text] at colon
    exact absurd colon (by decide)

/- A full text is kept for the address it is of, when no digit of it is left out. -/
theorem fullText_kept {feeds : List Indicators} (kept : ∀ feed ∈ feeds, PublicIps feed)
    (address : Fin (2 ^ 128)) :
    (∃ feed ∈ feeds, String.ofList (fullText address.val) ∈ feed.ips) ↔
      Listed feeds (.v6 address) ∧ LongGroups address.val := by
  constructor
  · rintro ⟨feed, known, member⟩
    obtain ⟨ip, _, text⟩ := kept feed known _ member
    cases ip with
    | v4 other =>
      have colon := colon_mem_fullText address.val
      rw [← String.ofList_injective text] at colon
      exact absurd colon (colon_notMem_ipv4Text other.val)
    | v6 other =>
      have same := (fullText_eq_ipv6Text address.isLt other.isLt).mp
        (String.ofList_injective text).symm
      refine ⟨⟨feed, known, ?_⟩, same.2⟩
      rw [Fin.ext same.1, text]
      exact member
  · rintro ⟨⟨feed, known, member⟩, long⟩
    refine ⟨feed, known, ?_⟩
    rw [(fullText_eq_ipv6Text address.isLt address.isLt).mpr ⟨rfl, long⟩]
    exact member

section Main
variable {feeds : List Indicators} {socket : Socket} {conn : NetworkConnection}
  (clock : Nat → Int) {conns : List NetworkConnection}

/- Over an IPv4 socket everything is as it should be. -/
theorem recognised_ipv4 {here there : Fin (2 ^ 32)} (over_ipv4 : socket.ends = .ipv4 here there)
    (kept : ∀ feed ∈ feeds, PublicIps feed) (seen : conn ∈ conns)
    (state : conn.state = .established ↔ socket.state.val = established)
    (remote : conn.remoteAddress =
      if String.ofList (ipv4Text there.val) = "0.0.0.0" ∨ String.ofList (ipv4Text there.val) = "::"
      then none else some (String.ofList (ipv4Text there.val))) :
    Recognised feeds clock conns socket conn where
  connected := by
    intro open_one
    have not_colons : String.ofList (ipv4Text there.val) ≠ "::" := by
      intro same
      refine colon_notMem_ipv4Text there.val ?_
      rw [← String.toList_ofList (l := ipv4Text there.val), same]
      decide
    rw [raised_iff seen, remote, ConnectedToListed, over_ipv4]
    simp only [remotes, List.mem_singleton, exists_eq_left, state.mpr open_one, true_and]
    by_cases zero : String.ofList (ipv4Text there.val) = "0.0.0.0"
    · simp only [zero, true_or, if_true, reduceCtorEq, false_and, exists_false, iff_false]
      rintro ⟨feed, known, member⟩
      rw [addressText, zero] at member
      exact zero_not_kept (kept feed known) member
    · simp only [zero, not_colons, or_self, if_false, Option.some.injEq, exists_eq_left']
      rfl
  unconnected := by
    intro listens
    have zero : there.val = 0 := by
      have unconnected := socket.unconnected listens
      rw [over_ipv4] at unconnected
      exact unconnected
    rw [remote, zero, if_pos (Or.inl (by decide))]

theorem recognised_ipv6_iff {here there : Fin (2 ^ 128)}
    (over_ipv6 : socket.ends = .ipv6 here there) (kept : ∀ feed ∈ feeds, PublicIps feed)
    (seen : conn ∈ conns) (state : conn.state = .established ↔ socket.state.val = established)
    (remote : conn.remoteAddress = some (String.ofList (fullText there.val))) :
    Recognised feeds clock conns socket conn ↔ Legible feeds socket := by
  have raised : socket.state.val = established → (Raised feeds clock conns conn ↔
      Listed feeds (.v6 there) ∧ LongGroups there.val) := by
    intro open_one
    rw [raised_iff seen, remote, ← fullText_kept kept]
    simp only [state.mpr open_one, true_and, Option.some.injEq, exists_eq_left']
  have own : Listed feeds (.v6 there) → ConnectedToListed feeds (.ipv6 here there) := by
    intro listed
    refine ⟨.v6 there, ?_, listed⟩
    rw [remotes]
    split
    · exact List.mem_cons_self ..
    · exact List.mem_cons_self ..
  have long_own : LongGroups there.val → ConnectedToListed feeds (.ipv6 here there) →
      Listed feeds (.v6 there) := by
    rintro long ⟨ip, target, listed⟩
    rw [remotes, if_neg (long_not_mapped long), List.mem_singleton] at target
    exact target ▸ listed
  unfold Legible
  rw [over_ipv6]
  constructor
  · rintro ⟨connected, unconnected⟩
    refine ⟨fun listens => ?_, fun open_one => ?_⟩
    · have none_there := unconnected listens
      rw [remote] at none_there
      cases none_there
    · refine Classical.or_iff_not_imp_left.mpr fun listed => ?_
      have alarm := (connected open_one).mp (over_ipv6 ▸ Classical.not_not.mp listed)
      exact ((raised open_one).mp alarm).2
  · rintro ⟨not_listening, legible⟩
    refine ⟨fun open_one => ?_, fun listens => absurd listens not_listening⟩
    rw [raised open_one, over_ipv6]
    constructor
    · intro listed
      have long := (legible open_one).resolve_left fun unlisted => unlisted listed
      exact ⟨long_own long listed, long⟩
    · exact fun both => own both.1

/-- The line of a TCP socket is read, and what is read is recognised as it should be if and only
    if the socket is legible: an IPv4 one, or an IPv6 one that does not listen and is connected to
    no address of a feed or to one whose groups have four digits each. -/
theorem recognised_iff_legible (raws : List (List String)) (clock : Nat → Int) {line : String}
    {socket : Socket} (is_line : LineOf line socket) (inodes : Map Nat Holder) :
    ∃ conn, parseProcNetLine line socket.ends.protocol inodes = some conn ∧
      ∀ conns, conn ∈ conns →
        (Recognised (raws.map (indicatorsOf urlHost)) clock conns socket conn ↔
          Legible (raws.map (indicatorsOf urlHost)) socket) := by
  obtain ⟨conn, read, state, remote⟩ := parse_line is_line inodes
  refine ⟨conn, read, fun conns seen => ?_⟩
  have kept : ∀ feed ∈ raws.map (indicatorsOf urlHost), PublicIps feed := by
    intro feed member
    obtain ⟨one, _, rfl⟩ := List.mem_map.mp member
    exact publicIps_indicatorsOf urlHost one
  cases ends : socket.ends with
  | ipv4 here there =>
    rw [ends] at remote
    have recognised := recognised_ipv4 clock ends kept seen state remote
    simp [Legible, ends, recognised]
  | ipv6 here there =>
    rw [ends] at remote
    refine recognised_ipv6_iff clock ends kept seen state (remote.trans (if_neg ?_))
    refine not_or.mpr ⟨fun zero => ?_, fun colons => ?_⟩
    · have colon := colon_mem_fullText there.val
      have text : fullText there.val = "0.0.0.0".toList := String.ofList_injective zero
      rw [text] at colon
      exact absurd colon (by decide)
    · exact fullText_ne_doubled there.val [] [] (String.ofList_injective colons)

end Main

section Examples

def noUrls : String → Option String := fun _ => none

def exampleFields (here there state : String) : List String :=
  ["0:", here, there, state, "00000000:00000000", "00:00000000", "00000000", "0", "0", "12345", "1"]

def exampleLine (here there state : String) : String :=
  " ".intercalate (exampleFields here there state)

/- From 192.168.0.2 to 198.51.100.7, over an IPv4 socket. -/
def ipv4Socket : Socket where
  ends := .ipv4 3232235522 3325256711
  localPort := 40000
  remotePort := 443
  state := 1
  inode := 12345
  unconnected := by decide

def ipv4Line : String := exampleLine "0200A8C0:9C40" "076433C6:01BB" "01"

theorem ipv4Line_of : LineOf ipv4Line ipv4Socket := by
  have fields : words ipv4Line = exampleFields "0200A8C0:9C40" "076433C6:01BB" "01" := by
    decide
  rw [LineOf, fields]
  exact ⟨by decide, by decide, by decide, by decide, by decide⟩

theorem recognised_iff_legible_ipv4 :
    ∃ conn, parseProcNetLine ipv4Line .tcp ∅ = some conn ∧
      Recognised [indicatorsOf noUrls ["198.51.100.7"]] (fun _ => 0) [conn] ipv4Socket conn := by
  obtain ⟨conn, read, recognised⟩ :=
    recognised_iff_legible noUrls [["198.51.100.7"]] (fun _ => 0) ipv4Line_of ∅
  exact ⟨conn, read, (recognised [conn] (List.mem_singleton_self conn)).mpr trivial⟩

/- To 2001:db8::7. -/
def ipv6Socket : Socket where
  ends := .ipv6 1 0x20010db8000000000000000000000007
  localPort := 40000
  remotePort := 443
  state := 1
  inode := 12345
  unconnected := by decide

/- To 198.51.100.7, over an IPv6 socket. -/
def mappedSocket : Socket :=
  { ipv6Socket with ends := .ipv6 1 0xffffc6336407, unconnected := by decide }

def listeningSocket : Socket where
  ends := .ipv6 0 0
  localPort := 443
  remotePort := 0
  state := 10
  inode := 12345
  unconnected := fun _ => rfl

def ipv6Line : String := exampleLine "00000000000000000000000001000000:9C40"
  "B80D0120000000000000000007000000:01BB" "01"

theorem ipv6Line_of : LineOf ipv6Line ipv6Socket := by
  have fields : words ipv6Line = exampleFields "00000000000000000000000001000000:9C40"
      "B80D0120000000000000000007000000:01BB" "01" := by
    decide +kernel
  rw [LineOf, fields]
  exact ⟨by decide, by decide, by decide, by decide, by decide⟩

def mappedLine : String := exampleLine "00000000000000000000000001000000:9C40"
  "0000000000000000FFFF0000076433C6:01BB" "01"

theorem mappedLine_of : LineOf mappedLine mappedSocket := by
  have fields : words mappedLine = exampleFields "00000000000000000000000001000000:9C40"
      "0000000000000000FFFF0000076433C6:01BB" "01" := by
    decide +kernel
  rw [LineOf, fields]
  exact ⟨by decide, by decide, by decide, by decide, by decide⟩

def listeningLine : String := exampleLine "00000000000000000000000000000000:01BB"
  "00000000000000000000000000000000:0000" "0A"

theorem listeningLine_of : LineOf listeningLine listeningSocket := by
  have fields : words listeningLine = exampleFields "00000000000000000000000000000000:01BB"
      "00000000000000000000000000000000:0000" "0A" := by
    decide +kernel
  rw [LineOf, fields]
  exact ⟨by decide, by decide, by decide, by decide, by decide⟩

def readFrom (line : String) : List NetworkConnection := (parseProcNetLine line .tcp6 ∅).toList

def exampleConn (remote : String) : NetworkConnection where
  protocol := .tcp6
  localAddress := "0000:0000:0000:0000:0000:0000:0000:0001"
  localPort := 40000
  remoteAddress := some remote
  remotePort := some 443
  state := .established
  pid := none
  processName := none
  processPath := none

def listeningConn : NetworkConnection :=
  { exampleConn "0000:0000:0000:0000:0000:0000:0000:0000" with
    state := .listen, localAddress := "0000:0000:0000:0000:0000:0000:0000:0000", localPort := 443,
    remotePort := none }

/- The lines are read, a connection to an address of the feed goes unnoticed with an IPv6 address
   or with an IPv4 one in the mapped form, and the listening socket has a remote address. -/
theorem recognised_not_always :
    (LineOf ipv6Line ipv6Socket ∧ LineOf mappedLine mappedSocket ∧
      LineOf listeningLine listeningSocket) ∧
    (∃ conn, readFrom ipv6Line = [conn] ∧
      ¬ Recognised [indicatorsOf noUrls ["2001:db8::7"]] (fun _ => 0) [conn] ipv6Socket conn) ∧
    (∃ conn, readFrom mappedLine = [conn] ∧
      ¬ Recognised [indicatorsOf noUrls ["198.51.100.7"]] (fun _ => 0) [conn] mappedSocket conn) ∧
    ∃ conn, readFrom listeningLine = [conn] ∧
      ¬ Recognised [] (fun _ => 0) [conn] listeningSocket conn := by
  refine ⟨⟨ipv6Line_of, mappedLine_of, listeningLine_of⟩,
    ⟨exampleConn "2001:0db8:0000:0000:0000:0000:0000:0007", by decide +kernel, ?_⟩,
    ⟨exampleConn "0000:0000:0000:0000:0000:ffff:c633:6407", by decide +kernel, ?_⟩,
    ⟨listeningConn, by decide +kernel, ?_⟩⟩
  · intro recognised
    have connected : ConnectedToListed [indicatorsOf noUrls ["2001:db8::7"]] ipv6Socket.ends := by
      decide
    have raised := (recognised.connected rfl).mp connected
    revert raised
    decide
  · intro recognised
    have connected : ConnectedToListed [indicatorsOf noUrls ["198.51.100.7"]]
        mappedSocket.ends := by
      decide
    have raised := (recognised.connected rfl).mp connected
    revert raised
    decide
  · intro recognised
    exact absurd (recognised.unconnected rfl) (by decide)

end Examples

end SentinelAgent.ThreatFeed
