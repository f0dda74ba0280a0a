import Mathlib.Data.List.Range
import Mathlib.Order.Defs.LinearOrder

/-!
The sweep for hidden processes and ports: two listings and two rounds of probes, one after the
other, of a system that goes on meanwhile.
-/
namespace SentinelAgent.Rootcheck

/- What a round is told: a listing first, then an answer for each number it asks about. -/
structure Round where
  listed : List Nat
  alive : Nat → Bool
  isThread : Nat → Bool

structure PortRound where
  listed : List Nat
  taken : Nat → Bool

def hiddenProcesses (max : Nat) (first second : Round) : List Nat :=
  let candidates := (List.range' 1 max).filter fun pid =>
    !first.listed.contains pid && first.alive pid && !first.isThread pid
  if candidates.isEmpty then candidates
  else candidates.filter fun pid =>
    !second.listed.contains pid && second.alive pid && !second.isThread pid

/- The ports from the first one to 65535; a connection is tried in the second round only. -/
def hiddenPorts (firstPort : Nat) (first second : PortRound) (accepts : Nat → Bool) : List Nat :=
  let candidates := (List.range' firstPort (65536 - firstPort)).filter fun port =>
    !first.listed.contains port && first.taken port
  if candidates.isEmpty then candidates
  else candidates.filter fun port =>
    !second.listed.contains port && second.taken port && accepts port

inductive Finding where
  | hiddenProcess (pid : Nat)
  | hiddenPort (port : Nat)
  deriving DecidableEq

def maxPid : Nat := 4194304

def maxFindingsPerCheck : Nat := 20

def firstPort (root : Bool) : Nat := if root then 1 else 1024

section Linux

/- An entry of `/proc`: the number of a process, another name, or an error. -/
inductive Entry where
  | pid (n : Nat)
  | other
  | unread

def Entry.number : Entry → Option Nat
  | .pid n => some n
  | _ => none

/- `/proc`, nothing where it cannot be opened. -/
abbrev ProcDirectory := Option (List Entry)

def linuxListedPids (proc : ProcDirectory) : List Nat :=
  (proc.map fun entries => entries.filterMap Entry.number).getD []

/- A table of ports: there is none, it cannot be read, or the ports read from it. -/
inductive PortTable where
  | missing
  | unread
  | ports (numbers : List Nat)

def PortTable.read : PortTable → Option (List Nat)
  | .ports numbers => some numbers
  | _ => none

/- `/proc/net/tcp` and `/proc/net/tcp6`. -/
def linuxListedPorts (tables : List PortTable) : List Nat :=
  (tables.filterMap PortTable.read).flatten

structure LinuxAnswers where
  pidMax : Option Nat
  root : Bool
  pids : ProcDirectory × ProcDirectory
  alive : (Nat → Bool) × (Nat → Bool)
  isThread : (Nat → Bool) × (Nat → Bool)
  ports : List PortTable × List PortTable
  taken : (Nat → Bool) × (Nat → Bool)
  accepts : Nat → Bool

namespace LinuxAnswers
variable (a : LinuxAnswers)

def pidLimit : Nat := min (a.pidMax.getD 32768) maxPid

def firstPids : Round := ⟨linuxListedPids a.pids.1, a.alive.1, a.isThread.1⟩
def secondPids : Round := ⟨linuxListedPids a.pids.2, a.alive.2, a.isThread.2⟩
def firstPorts : PortRound := ⟨linuxListedPorts a.ports.1, a.taken.1⟩
def secondPorts : PortRound := ⟨linuxListedPorts a.ports.2, a.taken.2⟩

def sweep : List Finding :=
  (hiddenProcesses a.pidLimit a.firstPids a.secondPids).map .hiddenProcess ++
    (hiddenPorts (firstPort a.root) a.firstPorts a.secondPorts a.accepts).map .hiddenPort

end LinuxAnswers

end Linux

section MacOs

/- `proc_listallpids`: how many there are, and then those there are, if the calls succeed. -/
structure PidCalls where
  count : Option Nat
  pids : Option (List Int)

/- The buffer has room for 64 more than were counted. -/
def macListedPids (calls : PidCalls) : List Nat :=
  match calls.count, calls.pids with
  | some count, some pids =>
    ((pids.take (count + 64)).filter (0 < ·)).map Int.toNat
  | _, _ => []

/- `netstat` and, for root, `lsof`. Whether `netstat` may tell the whole list is the system's. -/
structure PortCommands where
  netstat : Option (List Nat)
  permitted : Bool
  root : Bool
  lsof : Option (List Nat)

def macListedPorts (commands : PortCommands) : List Nat :=
  commands.netstat.getD [] ++ (if commands.root then commands.lsof.getD [] else [])

structure MacAnswers where
  guardPids : PidCalls
  pids : PidCalls × PidCalls
  alive : (Nat → Bool) × (Nat → Bool)
  root : Bool
  guardPorts : PortCommands
  ports : PortCommands × PortCommands
  taken : (Nat → Bool) × (Nat → Bool)
  accepts : Nat → Bool

namespace MacAnswers
variable (a : MacAnswers)

def firstPids : Round := ⟨macListedPids a.pids.1, a.alive.1, fun _ => false⟩
def secondPids : Round := ⟨macListedPids a.pids.2, a.alive.2, fun _ => false⟩
def firstPorts : PortRound := ⟨macListedPorts a.ports.1, a.taken.1⟩
def secondPorts : PortRound := ⟨macListedPorts a.ports.2, a.taken.2⟩

def sweep : List Finding :=
  if (macListedPids a.guardPids).isEmpty then []
  else (hiddenProcesses 99999 a.firstPids a.secondPids).map .hiddenProcess ++
    if (macListedPorts a.guardPorts).isEmpty then []
    else (hiddenPorts (firstPort a.root) a.firstPorts a.secondPorts a.accepts).map .hiddenPort

end MacAnswers

end MacOs

section Fair

/- A listing and the probes after it. `whole`: the listing was read to its end. -/
structure Observed where
  listed : List Nat
  whole : Bool
  answers : Nat → Bool
  spared : Nat → Bool

def Observed.misses (seen : Observed) (n : Nat) : Bool :=
  !seen.listed.contains n && seen.answers n && !seen.spared n

structure Kind where
  numbers : List Nat
  first : Observed
  second : Observed

def Kind.missing (kind : Kind) (n : Nat) : Bool := kind.first.misses n && kind.second.misses n

/- Who has a number, from `start` until `stop`. -/
structure Owner where
  number : Nat
  start : Nat
  stop : Nat
  visible : Bool

def Owner.Lives (owner : Owner) (time : Nat) : Prop := owner.start ≤ time ∧ time < owner.stop

/- What went on during a sweep, and when it looked. -/
structure Course where
  owners : List Owner
  listings : (Nat × Nat) × (Nat × Nat)
  probes : (Nat → Nat) × (Nat → Nat)
  ordered : listings.1.1 ≤ listings.1.2 ∧ listings.2.1 ≤ listings.2.2 ∧ ∀ n,
    listings.1.2 ≤ probes.1 n ∧ probes.1 n ≤ listings.2.1 ∧ listings.2.2 ≤ probes.2 n

/- Only what exists answers, and a whole listing has every visible one that was there from its
   beginning to its end. Who starts or stops meanwhile may or may not be listed. -/
def Tells (owners : List Owner) (listing : Nat × Nat) (probe : Nat → Nat) (seen : Observed) : Prop :=
  (∀ n, seen.answers n = true → ∃ owner ∈ owners, owner.number = n ∧ owner.Lives (probe n)) ∧
  (seen.whole = true → ∀ owner ∈ owners, owner.visible = true → owner.Lives listing.1 →
    owner.Lives listing.2 → owner.number ∈ seen.listed)

def Course.Fits (course : Course) (kind : Kind) : Prop :=
  Tells course.owners course.listings.1 course.probes.1 kind.first ∧
  Tells course.owners course.listings.2 course.probes.2 kind.second

structure Kind.Fair (kind : Kind) (found : List Nat) : Prop where
  answered : ∀ n ∈ found, kind.missing n = true
  read : found ≠ [] → kind.first.whole = true ∧ kind.second.whole = true
  accused : ∀ course : Course, course.Fits kind → ∀ n ∈ found,
    (∀ owner ∈ course.owners, owner.number = n → owner.visible = true) →
      ∃ owner ∈ course.owners, ∃ other ∈ course.owners, owner ≠ other ∧
        owner.number = n ∧ owner.Lives (course.probes.1 n) ∧
        other.number = n ∧ other.Lives (course.probes.2 n)
  few : found.length ≤ maxFindingsPerCheck

/- Both listings are read unless nobody is missing from them, and not too many are missing. -/
structure Kind.Readable (kind : Kind) : Prop where
  read : ∀ n ∈ kind.numbers, kind.missing n = true →
    kind.first.whole = true ∧ kind.second.whole = true
  few : kind.numbers.countP kind.missing ≤ maxFindingsPerCheck

/-- Who answered both times and is not in the second listing, if that is whole, did not live from
the first answer to the second. -/
theorem two_owners {kind : Kind} {course : Course} {n : Nat} (fits : course.Fits kind)
    (missing : kind.missing n = true) (whole : kind.second.whole = true)
    (visible : ∀ owner ∈ course.owners, owner.number = n → owner.visible = true) :
    ∃ owner ∈ course.owners, ∃ other ∈ course.owners, owner ≠ other ∧
      owner.number = n ∧ owner.Lives (course.probes.1 n) ∧
      other.number = n ∧ other.Lives (course.probes.2 n) := by
  simp only [Kind.missing, Observed.misses, Bool.and_eq_true, Bool.not_eq_true',
    List.contains_eq_mem, decide_eq_false_iff_not] at missing
  obtain ⟨⟨⟨_, answered⟩, _⟩, ⟨unlisted, again⟩, _⟩ := missing
  obtain ⟨owner, member, number, lives⟩ := fits.1.1 n answered
  obtain ⟨other, member', number', lives'⟩ := fits.2.1 n again
  refine ⟨owner, member, other, member', ?_, number, lives, number', lives'⟩
  rintro rfl
  obtain ⟨_, forwards, later⟩ := course.ordered
  obtain ⟨_, before, after⟩ := later n
  unfold Owner.Lives at lives lives'
  have there := fits.2.2 whole owner member (visible owner member number)
    ⟨by omega, by omega⟩ ⟨by omega, by omega⟩
  exact unlisted (number ▸ there)

theorem fair_iff (kind : Kind) :
    kind.Fair (kind.numbers.filter kind.missing) ↔ kind.Readable := by
  constructor
  · intro fair
    refine ⟨fun n member missing => ?_, ?_⟩
    · exact fair.read (List.ne_nil_of_mem (List.mem_filter.mpr ⟨member, missing⟩))
    · rw [List.countP_eq_length_filter]
      exact fair.few
  · intro readable
    have read : ∀ n ∈ kind.numbers.filter kind.missing,
        kind.first.whole = true ∧ kind.second.whole = true := fun n member =>
      readable.read n (List.mem_filter.mp member).1 (List.mem_filter.mp member).2
    refine ⟨fun n member => (List.mem_filter.mp member).2, fun some_found => ?_,
      fun course fits n member visible => ?_, ?_⟩
    · obtain ⟨n, member⟩ := List.exists_mem_of_ne_nil _ some_found
      exact read n member
    · exact two_owners fits (List.mem_filter.mp member).2 (read n member).2 visible
    · rw [← List.countP_eq_length_filter]
      exact readable.few

theorem fair_nil (kind : Kind) : kind.Fair [] where
  answered := fun _ member => nomatch member
  read := fun some_found => absurd rfl some_found
  accused := fun _ _ _ member => nomatch member
  few := Nat.zero_le _

end Fair

section Sweeps

def pids (findings : List Finding) : List Nat :=
  findings.filterMap fun
    | .hiddenProcess pid => some pid
    | .hiddenPort _ => none

def ports (findings : List Finding) : List Nat :=
  findings.filterMap fun
    | .hiddenProcess _ => none
    | .hiddenPort port => some port

def Fair (processes ports' : Kind) (findings : List Finding) : Prop :=
  processes.Fair (pids findings) ∧ ports'.Fair (ports findings)

theorem pids_findings (found found' : List Nat) :
    pids (found.map .hiddenProcess ++ found'.map .hiddenPort) = found := by
  simp [pids, List.filterMap_map, Function.comp_def]

theorem ports_findings (found found' : List Nat) :
    ports (found.map .hiddenProcess ++ found'.map .hiddenPort) = found' := by
  simp [ports, List.filterMap_map, Function.comp_def]

/- Candidates of the first round that the second round confirms. -/
theorem twice_filtered (numbers : List Nat) (p q : Nat → Bool) :
    (if (numbers.filter p).isEmpty then numbers.filter p else (numbers.filter p).filter q) =
      numbers.filter fun n => p n && q n := by
  rw [List.filter_filter]
  split_ifs with none_found
  · rw [List.isEmpty_iff] at none_found
    rw [none_found, eq_comm, List.filter_eq_nil_iff]
    intro n member both
    rw [List.filter_eq_nil_iff] at none_found
    rw [Bool.and_eq_true] at both
    exact none_found n member both.1
  · refine List.filter_congr fun n _ => ?_
    rw [Bool.and_comm]

def processKind (max : Nat) (first second : Round) (whole : Bool × Bool) : Kind where
  numbers := List.range' 1 max
  first := ⟨first.listed, whole.1, first.alive, first.isThread⟩
  second := ⟨second.listed, whole.2, second.alive, second.isThread⟩

def portKind (firstPort : Nat) (first second : PortRound) (accepts : Nat → Bool)
    (whole : Bool × Bool) : Kind where
  numbers := List.range' firstPort (65536 - firstPort)
  first := ⟨first.listed, whole.1, first.taken, fun _ => false⟩
  second := ⟨second.listed, whole.2, second.taken, fun port => !accepts port⟩

theorem hiddenProcesses_eq (max : Nat) (first second : Round) (whole : Bool × Bool) :
    hiddenProcesses max first second = (processKind max first second whole).numbers.filter
      (processKind max first second whole).missing :=
  twice_filtered _ _ _

theorem hiddenPorts_eq (firstPort : Nat) (first second : PortRound) (accepts : Nat → Bool)
    (whole : Bool × Bool) : hiddenPorts firstPort first second accepts =
      (portKind firstPort first second accepts whole).numbers.filter
        (portKind firstPort first second accepts whole).missing := by
  refine (twice_filtered _ _ _).trans (List.filter_congr fun port _ => ?_)
  simp [portKind, Kind.missing, Observed.misses]

/- Every entry was read. -/
def procWhole (proc : ProcDirectory) : Bool :=
  proc.any fun entries => entries.all fun
    | .unread => false
    | _ => true

/- Every table that there is was read. -/
def tablesWhole (tables : List PortTable) : Bool :=
  tables.all fun
    | .unread => false
    | _ => true

/- All fit in the buffer. -/
def PidCalls.whole (calls : PidCalls) : Bool :=
  match calls.count, calls.pids with
  | some count, some pids => pids.length ≤ count + 64
  | _, _ => false

/- One command that may tell all of them did. -/
def PortCommands.whole (commands : PortCommands) : Bool :=
  commands.permitted && commands.netstat.isSome || commands.root && commands.lsof.isSome

def LinuxAnswers.processKind (a : LinuxAnswers) : Kind :=
  Rootcheck.processKind a.pidLimit a.firstPids a.secondPids
    (procWhole a.pids.1, procWhole a.pids.2)

def LinuxAnswers.portKind (a : LinuxAnswers) : Kind :=
  Rootcheck.portKind (firstPort a.root) a.firstPorts a.secondPorts a.accepts
    (tablesWhole a.ports.1, tablesWhole a.ports.2)

def MacAnswers.processKind (a : MacAnswers) : Kind :=
  Rootcheck.processKind 99999 a.firstPids a.secondPids (a.pids.1.whole, a.pids.2.whole)

def MacAnswers.portKind (a : MacAnswers) : Kind :=
  Rootcheck.portKind (firstPort a.root) a.firstPorts a.secondPorts a.accepts
    (a.ports.1.whole, a.ports.2.whole)

theorem linux_fair_iff (a : LinuxAnswers) : Fair a.processKind a.portKind a.sweep ↔
    a.processKind.Readable ∧ a.portKind.Readable := by
  rw [Fair, LinuxAnswers.sweep, pids_findings, ports_findings,
    hiddenProcesses_eq _ _ _ (procWhole a.pids.1, procWhole a.pids.2),
    hiddenPorts_eq _ _ _ _ (tablesWhole a.ports.1, tablesWhole a.ports.2)]
  exact and_congr (fair_iff a.processKind) (fair_iff a.portKind)

theorem mac_fair_iff (a : MacAnswers) : Fair a.processKind a.portKind a.sweep ↔
    (macListedPids a.guardPids ≠ [] → a.processKind.Readable ∧
      (macListedPorts a.guardPorts ≠ [] → a.portKind.Readable)) := by
  unfold MacAnswers.sweep
  by_cases no_pids : macListedPids a.guardPids = []
  · rw [if_pos (List.isEmpty_iff.mpr no_pids)]
    simp only [no_pids, ne_eq, not_true_eq_false, false_imp_iff, iff_true]
    exact ⟨fair_nil _, fair_nil _⟩
  · rw [if_neg (by rwa [List.isEmpty_iff])]
    simp only [no_pids, ne_eq, not_false_eq_true, true_imp_iff]
    by_cases no_ports : macListedPorts a.guardPorts = []
    · rw [if_pos (List.isEmpty_iff.mpr no_ports), List.append_nil, Fair,
        hiddenProcesses_eq _ _ _ (a.pids.1.whole, a.pids.2.whole)]
      have split := pids_findings (a.processKind.numbers.filter a.processKind.missing) []
      have split' := ports_findings (a.processKind.numbers.filter a.processKind.missing) []
      rw [List.map_nil, List.append_nil] at split split'
      simp only [no_ports, not_true_eq_false, false_imp_iff, and_true]
      rw [← fair_iff a.processKind]
      refine (and_iff_left ?_).trans (iff_of_eq (congrArg _ split))
      exact split' ▸ fair_nil _
    · rw [if_neg (by rwa [List.isEmpty_iff]), Fair, pids_findings, ports_findings,
        hiddenProcesses_eq _ _ _ (a.pids.1.whole, a.pids.2.whole),
        hiddenPorts_eq _ _ _ _ (a.ports.1.whole, a.ports.2.whole)]
      simp only [no_ports, not_false_eq_true, true_imp_iff]
      exact and_congr (fair_iff a.processKind) (fair_iff a.portKind)

/-- When the sweep accuses nobody who is visible, on both platforms and whatever happens during
it. -/
theorem sweep_fair_iff (linux : LinuxAnswers) (mac : MacAnswers) :
    (Fair linux.processKind linux.portKind linux.sweep ↔
      linux.processKind.Readable ∧ linux.portKind.Readable) ∧
    (Fair mac.processKind mac.portKind mac.sweep ↔
      (macListedPids mac.guardPids ≠ [] → mac.processKind.Readable ∧
        (macListedPorts mac.guardPorts ≠ [] → mac.portKind.Readable))) :=
  ⟨linux_fair_iff linux, mac_fair_iff mac⟩

/- `/proc` cannot be opened either time, one process answers. -/
def unreadProc : LinuxAnswers where
  pidMax := some 3
  root := false
  pids := (none, none)
  alive := (fun pid => pid == 1, fun pid => pid == 1)
  isThread := (fun _ => false, fun _ => false)
  ports := ([], [])
  taken := (fun _ => false, fun _ => false)
  accepts := fun _ => false

/-- What cannot be listed is found hidden. -/
theorem unread_accused : ¬ Fair unreadProc.processKind unreadProc.portKind unreadProc.sweep := by
  intro fair
  have found : hiddenProcesses unreadProc.pidLimit unreadProc.firstPids unreadProc.secondPids =
      [1] := by decide
  have read := fair.1.read (by
    rw [LinuxAnswers.sweep, pids_findings, found]
    exact List.cons_ne_nil _ _)
  exact absurd read.1 (by decide)

end Sweeps

end SentinelAgent.Rootcheck
