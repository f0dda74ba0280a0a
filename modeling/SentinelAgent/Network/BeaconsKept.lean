import Mathlib.Data.Finset.Sort
import Mathlib.Data.String.Basic
import SentinelAgent.Library.Runs
import SentinelAgent.Network.SecurityDetector

/-!
What an update of the threat intelligence does to the memory of the beaconing detector, which it
rebuilds with the rest: a run of snapshots and updates beside the same run without the updates.
-/
namespace SentinelAgent.Network
open BeaconingDetector Maps Runs

inductive NetworkAction where
  | snapshot (recording detecting : Nat → Int) (conns : List NetworkConnection)
  | update (intel : ThreatIntelligence)

def NetworkAction.isSnapshot : NetworkAction → Bool
  | snapshot .. => true
  | update _ => false

variable (host : Host)

def networkStep (d : SecurityDetector) : NetworkAction → SecurityDetector
  | .snapshot recording _ conns => d.recordConnectionsForBeaconing host recording conns
  | .update intel => d.updateThreatIntel intel

/- The beaconing detections of each snapshot of a run, and the contacts kept after it. -/
def yields : SecurityDetector → List NetworkAction → List (List NetworkSecurityAlert × History)
  | _, [] => []
  | d, .snapshot recording detecting conns :: as =>
    let d := d.recordConnectionsForBeaconing host recording conns
    (d.beacons host detecting conns, d.beaconingDetector.connectionHistory) :: yields d as
  | d, .update intel :: as => yields (d.updateThreatIntel intel) as

/- Nothing is remembered that counts: no contact, and no socket of the last snapshot that was
   one with a destination contacts are kept of. -/
def Quiet (d : BeaconingDetector) : Prop :=
  d.connectionHistory = ∅ ∧
    ∀ conn, conn.pid ≠ some host.myPid → socketKey host conn ∈ d.observedSockets →
      d.contactOf host conn = none

/-! Two detectors that differ in no more than the sockets of a snapshot, and in none of those a
contact was recorded for. -/

structure Alike (d e : BeaconingDetector) : Prop where
  config : d.config = .default
  whitelist : d.whitelist = defaultWhitelist
  rest : e = { d with observedSockets := e.observedSockets }
  sockets : ∀ conn, conn.pid ≠ some host.myPid → d.contactOf host conn ≠ none →
    (socketKey host conn ∈ d.observedSockets ↔ socketKey host conn ∈ e.observedSockets)

theorem contactOf_congr {d e : BeaconingDetector} (same : d.whitelist = e.whitelist)
    (conn : NetworkConnection) : d.contactOf host conn = e.contactOf host conn := by
  unfold contactOf isWhitelisted
  rw [same]

theorem record_none {d : BeaconingDetector} {conn : NetworkConnection}
    (none : d.contactOf host conn = none) (now later : Int) :
    d.recordConnection host now later conn = d := by
  unfold recordConnection
  rw [none]

theorem record_keeps (now later : Int) (d : BeaconingDetector) (conn : NetworkConnection) :
    (d.recordConnection host now later conn).config = d.config ∧
      (d.recordConnection host now later conn).whitelist = d.whitelist ∧
      (d.recordConnection host now later conn).observedSockets = d.observedSockets := by
  unfold recordConnection
  cases d.contactOf host conn with
  | none => exact ⟨rfl, rfl, rfl⟩
  | some destination => exact ⟨rfl, rfl, rfl⟩

theorem recordNew_keeps (now later : Int) (current : Finset String) (d : BeaconingDetector)
    (conn : NetworkConnection) :
    (d.recordNew host now later current conn).config = d.config ∧
      (d.recordNew host now later current conn).whitelist = d.whitelist ∧
      (d.recordNew host now later current conn).observedSockets = d.observedSockets := by
  unfold recordNew
  split
  · exact record_keeps host now later d conn
  · exact ⟨rfl, rfl, rfl⟩

theorem recordEach_keeps (clock : Nat → Int) (conns : List NetworkConnection) (k : Nat)
    (current : Finset String) (d : BeaconingDetector) :
    (recordEach host clock k current conns d).2.config = d.config ∧
      (recordEach host clock k current conns d).2.whitelist = d.whitelist := by
  induction conns generalizing k current d with
  | nil => exact ⟨rfl, rfl⟩
  | cons conn conns ih =>
    obtain ⟨config, whitelist, _⟩ :=
      recordNew_keeps host (clock (2 * k)) (clock (2 * k + 1)) current d conn
    obtain ⟨sameConfig, sameWhitelist⟩ := ih (k + 1) (insert (socketKey host conn) current)
      (d.recordNew host (clock (2 * k)) (clock (2 * k + 1)) current conn)
    exact ⟨sameConfig.trans config, sameWhitelist.trans whitelist⟩

theorem record_sockets (now later : Int) (d : BeaconingDetector) (s : Finset String)
    (conn : NetworkConnection) :
    ({ d with observedSockets := s } : BeaconingDetector).recordConnection host now later conn =
      { d.recordConnection host now later conn with observedSockets := s } := by
  have same : ({ d with observedSockets := s } : BeaconingDetector).contactOf host conn =
      d.contactOf host conn := rfl
  unfold recordConnection
  rw [same]
  cases d.contactOf host conn with
  | none => rfl
  | some destination => rfl

theorem recordNew_sockets (now later : Int) (current : Finset String) {d : BeaconingDetector}
    {s : Finset String} {conn : NetworkConnection}
    (sockets : d.contactOf host conn ≠ none →
      (socketKey host conn ∈ d.observedSockets ↔ socketKey host conn ∈ s)) :
    ({ d with observedSockets := s } : BeaconingDetector).recordNew host now later current conn =
      { d.recordNew host now later current conn with observedSockets := s } := by
  unfold recordNew
  by_cases contact : d.contactOf host conn = none
  · rw [record_sockets, record_none host contact]
    split <;> split <;> rfl
  · have same := sockets contact
    by_cases new : socketKey host conn ∉ current ∧ socketKey host conn ∉ s
    · rw [if_pos new, if_pos ⟨new.1, fun seen => new.2 (same.mp seen)⟩]
      exact record_sockets host now later d s conn
    · rw [if_neg new, if_neg fun other => new ⟨other.1, fun seen => other.2 (same.mpr seen)⟩]

theorem recordEach_sockets (clock : Nat → Int) {s : Finset String}
    {conns : List NetworkConnection} (k : Nat) (current : Finset String) {d : BeaconingDetector}
    (sockets : ∀ conn ∈ conns, d.contactOf host conn ≠ none →
      (socketKey host conn ∈ d.observedSockets ↔ socketKey host conn ∈ s)) :
    recordEach host clock k current conns { d with observedSockets := s } =
      ((recordEach host clock k current conns d).1,
        { (recordEach host clock k current conns d).2 with observedSockets := s }) := by
  induction conns generalizing k current d with
  | nil => rfl
  | cons conn conns ih =>
    let next := d.recordNew host (clock (2 * k)) (clock (2 * k + 1)) current conn
    obtain ⟨_, whitelist, observed⟩ :=
      recordNew_keeps host (clock (2 * k)) (clock (2 * k + 1)) current d conn
    have kept : ∀ other ∈ conns, next.contactOf host other ≠ none →
        (socketKey host other ∈ next.observedSockets ↔ socketKey host other ∈ s) := by
      intro other member contact
      rw [contactOf_congr host whitelist] at contact
      rw [show next.observedSockets = d.observedSockets from observed]
      exact sockets other (List.mem_cons_of_mem conn member) contact
    simp only [recordEach, recordNew_sockets host _ _ current (sockets conn List.mem_cons_self)]
    exact ih (k + 1) (insert (socketKey host conn) current) kept

/-- A snapshot leaves nothing of what two such detectors differ in. -/
theorem snapshot_sockets (clock : Nat → Int) {s : Finset String}
    {conns : List NetworkConnection} {d : BeaconingDetector}
    (sockets : ∀ conn ∈ conns, d.contactOf host conn ≠ none →
      (socketKey host conn ∈ d.observedSockets ↔ socketKey host conn ∈ s)) :
    recordSnapshot host clock conns { d with observedSockets := s } =
      recordSnapshot host clock conns d := by
  have same := recordEach_sockets host clock 0 ∅
    fun conn (member : conn ∈ conns.filter fun conn => conn.state == .established) =>
      sockets conn (List.mem_of_mem_filter member)
  simp only [recordSnapshot, same]

theorem snapshot_keeps (clock : Nat → Int) (conns : List NetworkConnection)
    (d : BeaconingDetector) :
    (recordSnapshot host clock conns d).config = d.config ∧
      (recordSnapshot host clock conns d).whitelist = d.whitelist :=
  recordEach_keeps host clock _ 0 ∅ d

theorem alike_refl {d : BeaconingDetector} (config : d.config = .default)
    (whitelist : d.whitelist = defaultWhitelist) : Alike host d d :=
  ⟨config, whitelist, rfl, fun _ _ _ => Iff.rfl⟩

theorem alike_snapshot {d e : BeaconingDetector} (alike : Alike host d e) (clock : Nat → Int)
    {conns : List NetworkConnection} (others : ∀ conn ∈ conns, conn.pid ≠ some host.myPid) :
    recordSnapshot host clock conns e = recordSnapshot host clock conns d := by
  rw [alike.rest]
  exact snapshot_sockets host clock fun conn member => alike.sockets conn (others conn member)

theorem external_pid (conns : List NetworkConnection) :
    ∀ conn ∈ SecurityDetector.external host conns, conn.pid ≠ some host.myPid := by
  intro conn member
  exact bne_iff_ne.mp (List.mem_filter.mp member).2

/-- After a quiet update the detector is like the one that was not updated. -/
theorem alike_update {d e : BeaconingDetector} (alike : Alike host d e) (quiet : Quiet host d) :
    Alike host BeaconingDetector.new e where
  config := rfl
  whitelist := rfl
  rest := by
    have start : d = { BeaconingDetector.new with observedSockets := d.observedSockets } := by
      obtain ⟨config, history, whitelist, sockets⟩ := d
      obtain ⟨rfl, _⟩ := quiet
      obtain ⟨rfl, rfl, _, _⟩ := alike
      rfl
    rw [alike.rest, start]
  sockets := by
    intro conn other contact
    have same : d.contactOf host conn = BeaconingDetector.new.contactOf host conn :=
      contactOf_congr host alike.whitelist conn
    have unseen : socketKey host conn ∉ e.observedSockets := by
      intro seen
      rw [← alike.sockets conn other fun none => contact (same.symm.trans none)] at seen
      exact contact (same.symm.trans (quiet.2 conn other seen))
    exact iff_of_false (Finset.notMem_empty _) unseen

/- The step lemma of the comparison: the same detections and contacts, and detectors alike. -/
theorem alike_step {d e : SecurityDetector}
    (alike : Alike host d.beaconingDetector e.beaconingDetector) (recording : Nat → Int)
    (conns : List NetworkConnection) :
    (e.recordConnectionsForBeaconing host recording conns).beaconingDetector =
        (d.recordConnectionsForBeaconing host recording conns).beaconingDetector ∧
      Alike host (d.recordConnectionsForBeaconing host recording conns).beaconingDetector
        (e.recordConnectionsForBeaconing host recording conns).beaconingDetector := by
  have same := alike_snapshot host alike recording (external_pid host conns)
  obtain ⟨config, whitelist⟩ := snapshot_keeps host recording
    (SecurityDetector.external host conns) d.beaconingDetector
  refine ⟨same, ?_⟩
  show Alike host (recordSnapshot host recording (SecurityDetector.external host conns) _)
    (recordSnapshot host recording (SecurityDetector.external host conns) _)
  rw [same]
  exact alike_refl host (config.trans alike.config) (whitelist.trans alike.whitelist)

theorem alike_yields {d e : SecurityDetector} {as : List NetworkAction}
    (alike : Alike host d.beaconingDetector e.beaconingDetector) :
    yields host d as = yields host e as := by
  induction as generalizing d e with
  | nil => rfl
  | cons a as ih =>
    cases a with
    | snapshot recording detecting conns =>
      obtain ⟨same, next⟩ := alike_step host alike recording conns
      simp only [yields, SecurityDetector.beacons]
      rw [same, ih next]
    | update intel => rfl

/- Updates that are quiet, each in the state it is made in. -/
def QuietUpdate (d : SecurityDetector) : NetworkAction → Prop
  | .update _ => Quiet host d.beaconingDetector
  | .snapshot .. => True

theorem quiet_yields {d e : SecurityDetector} {as : List NetworkAction}
    (alike : Alike host d.beaconingDetector e.beaconingDetector)
    (quiet : Along (networkStep host) (QuietUpdate host) d as) :
    yields host d as = yields host e (as.filter NetworkAction.isSnapshot) := by
  induction as generalizing d e with
  | nil => rfl
  | cons a as ih =>
    cases a with
    | snapshot recording detecting conns =>
      obtain ⟨same, next⟩ := alike_step host alike recording conns
      have rest := ih next quiet.2
      show yields host d (.snapshot recording detecting conns :: as) =
        yields host e (.snapshot recording detecting conns :: as.filter NetworkAction.isSnapshot)
      simp only [yields, SecurityDetector.beacons]
      rw [same, ← rest]
    | update intel =>
      have next : Alike host (d.updateThreatIntel intel).beaconingDetector e.beaconingDetector :=
        alike_update host alike quiet.1
      exact ih next quiet.2

/-! What a run keeps: the first configuration and list, and no destination without contacts. -/

structure Kept (d : BeaconingDetector) : Prop where
  config : d.config = .default
  whitelist : d.whitelist = defaultWhitelist
  contacts : ∀ key events, d.connectionHistory.lookup key = some events → events ≠ []

theorem cleanup_contacts (now : Int) (d : BeaconingDetector) (key : String)
    (events : List ConnectionEvent)
    (found : (d.cleanupOldEvents now).connectionHistory.lookup key = some events) :
    events ≠ [] := by
  have kept := (lookup_retain_eq_some.mp found).2
  intro none
  rw [none] at kept
  cases kept

theorem new_kept : Kept BeaconingDetector.new where
  config := rfl
  whitelist := rfl
  contacts key events found := by cases found

theorem step_kept (d : SecurityDetector) (a : NetworkAction) (kept : Kept d.beaconingDetector) :
    Kept (networkStep host d a).beaconingDetector := by
  cases a with
  | snapshot recording detecting conns =>
    obtain ⟨config, whitelist⟩ := snapshot_keeps host recording
      (SecurityDetector.external host conns) d.beaconingDetector
    exact ⟨config.trans kept.config, whitelist.trans kept.whitelist,
      cleanup_contacts (recording _) _⟩
  | update intel => exact new_kept

/-! The other direction: memory that counts shows in a snapshot after the update. -/

theorem cleanup_lookup (now : Int) (d : BeaconingDetector) (key : String) :
    (d.cleanupOldEvents now).connectionHistory.lookup key =
      ((d.connectionHistory.lookup key).map fun events => events.filter fun e =>
        decide (now - seconds d.config.analysisWindowSecs < e.timestamp)).filter
          fun events => !events.isEmpty := by
  simp only [cleanupOldEvents, lookup_retain, lookup_adjust]

theorem cleanup_empty (now : Int) {d : BeaconingDetector} (empty : d.connectionHistory = ∅) :
    (d.cleanupOldEvents now).connectionHistory = ∅ := by
  apply Finmap.ext_lookup
  intro key
  rw [cleanup_lookup, empty]
  rfl

/-- A contact is kept as long as it is within the window. -/
theorem cleanup_recent {now : Int} {d : BeaconingDetector} {key : String}
    {events : List ConnectionEvent} {e : ConnectionEvent}
    (found : d.connectionHistory.lookup key = some events) (member : e ∈ events)
    (recent : now - seconds d.config.analysisWindowSecs < e.timestamp) :
    ∃ kept, (d.cleanupOldEvents now).connectionHistory.lookup key = some kept ∧ e ∈ kept := by
  have still : e ∈ events.filter fun e =>
      decide (now - seconds d.config.analysisWindowSecs < e.timestamp) :=
    List.mem_filter.mpr ⟨member, decide_eq_true recent⟩
  refine ⟨_, ?_, still⟩
  rw [cleanup_lookup, found, Option.map_some, Option.filter_some, if_pos]
  simp only [Bool.not_eq_true', List.isEmpty_eq_false_iff]
  exact List.ne_nil_of_mem still

theorem window_open (now : Int) : now - seconds BeaconingConfig.default.analysisWindowSecs < now := by
  have positive : 0 < seconds BeaconingConfig.default.analysisWindowSecs := by decide
  omega

/- The first contact there is. -/
theorem record_first {d : BeaconingDetector} {conn : NetworkConnection} {destination : String}
    (config : d.config = .default) (empty : d.connectionHistory = ∅)
    (contact : d.contactOf host conn = some destination) (now : Int) :
    ∃ kept, (d.recordConnection host now now conn).connectionHistory.lookup destination = some kept ∧
      ⟨destination, now, conn.processName, conn.pid⟩ ∈ kept := by
  have room : d.makeRoom host destination = ∅ := by
    unfold makeRoom
    rw [if_neg, empty]
    rintro ⟨_, full⟩
    rw [config, empty] at full
    exact absurd full (by decide)
  simp only [recordConnection, contact, room]
  refine cleanup_recent (Finmap.lookup_insert _) ?_ ?_
  · simp [config, BeaconingConfig.default]
  · rw [config]
    exact window_open now

/- What a snapshot at one time shows of the contacts, after an update and without it. -/
theorem harmless_history {d : SecurityDetector} {intel : ThreatIntelligence}
    (harmless : ∀ bs, yields host (d.updateThreatIntel intel) bs = yields host d bs) (now : Int)
    (conns : List NetworkConnection) :
    (recordSnapshot host (fun _ => now) (SecurityDetector.external host conns)
        BeaconingDetector.new).connectionHistory =
      (recordSnapshot host (fun _ => now) (SecurityDetector.external host conns)
        d.beaconingDetector).connectionHistory := by
  have same := harmless [.snapshot (fun _ => now) (fun _ => now) conns]
  simp only [yields, List.cons.injEq, Prod.mk.injEq, and_true] at same
  exact same.2

theorem no_contacts_of_harmless {d : SecurityDetector} {intel : ThreatIntelligence}
    (kept : Kept d.beaconingDetector)
    (harmless : ∀ bs, yields host (d.updateThreatIntel intel) bs = yields host d bs) :
    d.beaconingDetector.connectionHistory = ∅ := by
  apply Finmap.ext_lookup
  intro key
  cases found : d.beaconingDetector.connectionHistory.lookup key with
  | none => rfl
  | some events =>
    obtain ⟨e, member⟩ := List.exists_mem_of_ne_nil events (kept.contacts key events found)
    have same : (recordSnapshot host (fun _ => e.timestamp) []
          BeaconingDetector.new).connectionHistory =
        (recordSnapshot host (fun _ => e.timestamp) [] d.beaconingDetector).connectionHistory :=
      harmless_history host harmless e.timestamp []
    have recent : e.timestamp - seconds d.beaconingDetector.config.analysisWindowSecs <
        e.timestamp := by
      rw [kept.config]
      exact window_open e.timestamp
    obtain ⟨after, still, _⟩ := cleanup_recent
      (d := { d.beaconingDetector with observedSockets := ∅ }) found member recent
    have forgotten : (recordSnapshot host (fun _ => e.timestamp) []
        BeaconingDetector.new).connectionHistory = ∅ := cleanup_empty e.timestamp rfl
    have seen : (recordSnapshot host (fun _ => e.timestamp) []
        d.beaconingDetector).connectionHistory.lookup key = some after := still
    rw [← same, forgotten] at seen
    cases seen

theorem no_sockets_of_harmless {d : SecurityDetector} {intel : ThreatIntelligence}
    (kept : Kept d.beaconingDetector) (empty : d.beaconingDetector.connectionHistory = ∅)
    (harmless : ∀ bs, yields host (d.updateThreatIntel intel) bs = yields host d bs)
    (conn : NetworkConnection) (other : conn.pid ≠ some host.myPid)
    (observed : socketKey host conn ∈ d.beaconingDetector.observedSockets) :
    d.beaconingDetector.contactOf host conn = none := by
  cases contact : d.beaconingDetector.contactOf host conn with
  | none => rfl
  | some destination =>
    have same := harmless_history host harmless 0 [conn]
    have alone : SecurityDetector.external host [conn] = [conn] := by
      simp [SecurityDetector.external, other]
    have established : [conn].filter (fun conn => conn.state == .established) = [conn] := by
      unfold contactOf at contact
      split at contact
      · simp [‹conn.state = .established›]
      · cases contact
    have again : d.beaconingDetector.recordNew host 0 0 ∅ conn = d.beaconingDetector :=
      if_neg fun new => new.2 observed
    have fresh : BeaconingDetector.new.recordNew host 0 0 ∅ conn =
        BeaconingDetector.new.recordConnection host 0 0 conn :=
      if_pos ⟨Finset.notMem_empty _, Finset.notMem_empty _⟩
    have alike : d.beaconingDetector.contactOf host conn = BeaconingDetector.new.contactOf host conn :=
      contactOf_congr host kept.whitelist conn
    obtain ⟨events, found, member⟩ := record_first host rfl rfl (alike.symm.trans contact) 0
    rw [alone] at same
    simp only [recordSnapshot, established, recordEach, again, fresh] at same
    rw [cleanup_empty 0 (d := { d.beaconingDetector with
      observedSockets := insert (socketKey host conn) ∅ }) empty] at same
    have recent : 0 - seconds
        (BeaconingDetector.new.recordConnection host 0 0 conn).config.analysisWindowSecs < 0 := by
      rw [(record_keeps host 0 0 BeaconingDetector.new conn).1]
      exact window_open 0
    obtain ⟨after, still, _⟩ := cleanup_recent
      (d := { BeaconingDetector.new.recordConnection host 0 0 conn with
        observedSockets := insert (socketKey host conn) ∅ }) found member recent
    rw [same] at still
    cases still

theorem harmless_iff_quiet {d : SecurityDetector} (kept : Kept d.beaconingDetector)
    (intel : ThreatIntelligence) :
    (∀ bs, yields host (d.updateThreatIntel intel) bs = yields host d bs) ↔
      Quiet host d.beaconingDetector := by
  constructor
  · intro harmless
    have empty := no_contacts_of_harmless host kept harmless
    exact ⟨empty, no_sockets_of_harmless host kept empty harmless⟩
  · intro quiet bs
    exact alike_yields host (alike_update host (alike_refl host kept.config kept.whitelist) quiet)

theorem yields_append (d : SecurityDetector) (as bs : List NetworkAction) :
    yields host d (as ++ bs) = yields host d as ++ yields host (run (networkStep host) d as) bs := by
  induction as generalizing d with
  | nil => rfl
  | cons a as ih =>
    cases a with
    | snapshot recording detecting conns =>
      show yields host d (.snapshot recording detecting conns :: (as ++ bs)) = _
      simp only [yields, ih, List.cons_append, run_cons, networkStep]
    | update intel =>
      show yields host d (.update intel :: (as ++ bs)) = _
      simp only [yields, ih, run_cons, networkStep]

/-- Where every update is made while nothing that counts is remembered, the detections and the
    contacts kept are those of the run without the updates; and after any run an update changes
    nothing of what follows only when nothing that counts is remembered then. -/
theorem quiet_updates_keep_beacons (as : List NetworkAction)
    (quiet : Along (networkStep host) (QuietUpdate host) SecurityDetector.new as) :
    yields host SecurityDetector.new as =
        yields host SecurityDetector.new (as.filter NetworkAction.isSnapshot) ∧
      ∀ bs intel, (∀ cs, yields host SecurityDetector.new (bs ++ .update intel :: cs) =
          yields host SecurityDetector.new (bs ++ cs)) ↔
        Quiet host (run (networkStep host) SecurityDetector.new bs).beaconingDetector := by
  refine ⟨quiet_yields host (alike_refl host rfl rfl) quiet, ?_⟩
  intro bs intel
  have kept : Kept (run (networkStep host) SecurityDetector.new bs).beaconingDetector :=
    run_invariant (I := fun d : SecurityDetector => Kept d.beaconingDetector) (step_kept host)
      new_kept bs
  simp only [yields_append, List.append_cancel_left_eq, yields]
  exact harmless_iff_quiet host kept intel

/- A host for the runs below. -/
def plainHost : Host where
  myPid := 77
  order history := history.keys.sort
  order_nodup history := Finset.sort_nodup _ _
  mem_order history key := by simp [Finmap.mem_keys]
  toLowercase := Text.toAsciiLowercase
  debugText s := "\"" ++ s ++ "\""

def contact : NetworkConnection where
  protocol := .tcp
  localAddress := "192.168.1.100"
  localPort := 54321
  remoteAddress := some "203.0.113.8"
  remotePort := some 443
  state := .established
  pid := some 1234
  processName := some "updater"
  processPath := none

def noIntel : ThreatIntelligence := ⟨[], [], [], []⟩

def always (secs : Nat) : Nat → Int := fun _ => seconds secs

theorem quiet_updates_keep_beacons_first :
    yields plainHost SecurityDetector.new
        [.update noIntel, .snapshot (always 60) (always 60) [contact], .snapshot (always 120) (always 120) []] =
      yields plainHost SecurityDetector.new
        [.snapshot (always 60) (always 60) [contact], .snapshot (always 120) (always 120) []] :=
  (quiet_updates_keep_beacons plainHost
    [.update noIntel, .snapshot (always 60) (always 60) [contact],
      .snapshot (always 120) (always 120) []]
    ⟨⟨rfl, fun _ _ seen => absurd seen (Finset.notMem_empty _)⟩, trivial, trivial, trivial⟩).1

def refreshed : List NetworkAction :=
  [.snapshot (always 60) (always 60) [contact], .update noIntel,
    .snapshot (always 120) (always 120) []]

/-- The contact of a minute ago is forgotten at an update. -/
theorem update_forgets_contact :
    ¬ yields plainHost SecurityDetector.new refreshed =
      yields plainHost SecurityDetector.new (refreshed.filter NetworkAction.isSnapshot) := by
  intro same
  have histories := congrArg (List.map fun y => y.2.size) same
  have different : ¬ (yields plainHost SecurityDetector.new refreshed).map (fun y => y.2.size) =
      (yields plainHost SecurityDetector.new (refreshed.filter NetworkAction.isSnapshot)).map
        (fun y => y.2.size) := by
    decide
  exact different histories

end SentinelAgent.Network
