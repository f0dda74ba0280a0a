import Mathlib.Data.Finset.Sort
import SentinelAgent.Fim.Delivery
import SentinelAgent.Fim.SameFiles

/-!
The event loop of the watcher. A path an event names is read against the baseline at once, or
kept to be read when its burst is over; before the baseline is ready, everything is kept. The
clock never goes back: each turn says how long the loop waited and how long it then took.
-/
namespace SentinelAgent.Fim
open Maps (Map)

def maxTrackedPaths : Nat := 10000

inductive EventKind where
  | create | modifyData | modifyMetadata | modifyName | remove | other
  deriving DecidableEq

def EventKind.hint : EventKind → Option FimChangeType
  | .create => some .created
  | .modifyData => some .modified
  | .modifyMetadata => some .permissionChanged
  | .modifyName => some .renamed
  | .remove => some .deleted
  | .other => none

/- The disk during one turn. A path is resolved up to its last component, or whole if that can be
   done; `read` counts the readings of the loop from its start. -/
structure Look where
  entryPath : Path → Path
  canonicalize : Path → Option Path
  isDir : Path → Bool
  read : Nat → Path → Reading
  sha256 : Path → Option String
  order : Map Path Nat → List Path
  mem_order : ∀ paths path, path ∈ order paths ↔ path ∈ paths

/- A path of an event that is not ignored, when it came, and how many paths were read before. -/
structure Announcement where
  path : Path
  time : Nat
  mark : Nat
  deriving DecidableEq

/- What the loop remembers, and beside it the reading of the clock, the alerts it sent, the paths
   it read and the paths that were announced. -/
structure EventLoop where
  manager : BaselineManager
  debounce : Nat
  ignorePatterns : List String
  lastReported : Map Path Nat
  pending : Map Path Nat
  clock : Nat
  sent : List FimAlert
  reads : List (Path × Nat)
  announced : List Announcement

def EventLoop.new (manager : BaselineManager) (debounce : Nat) (ignorePatterns : List String)
    (clock : Nat) : EventLoop where
  manager := manager
  debounce := debounce
  ignorePatterns := ignorePatterns
  lastReported := ∅
  pending := ∅
  clock := clock
  sent := []
  reads := []
  announced := []

/- An excluded directory is skipped along with its content. -/
def eventIgnored (host : Host) (patterns : List String) (isDir : Bool) (path : Path) : Bool :=
  (!host.unix && ntfsInternal path) ||
    if isDir then isIgnoredDir host.letters path patterns
    else isIgnoredPath host.letters path patterns

namespace EventLoop
variable (host : Host) (look : Look)

/- A link that has taken the place of a watched file stands for that file too. -/
def targets (s : EventLoop) (raw : Path) : List Path :=
  let literal := look.entryPath raw
  match look.canonicalize raw with
  | some resolved =>
    if resolved = literal then [resolved]
    else if literal ∈ s.manager.entries then [literal, resolved]
    else [resolved]
  | none => if literal ∈ s.manager.entries then [literal] else []

def forgetOld (s : EventLoop) : EventLoop :=
  if maxTrackedPaths < s.lastReported.size then
    { s with lastReported := s.lastReported.retain fun _ last =>
        decide (s.clock - last < s.debounce) }
  else s

def read (s : EventLoop) (path : Path) (hint : Option FimChangeType) : EventLoop :=
  let observed := observeKey host s.manager (look.entryPath path) (look.read s.reads.length path)
  let after := { s with manager := observed.1, reads := s.reads ++ [(path, s.clock)] }
  match intoAlert look.sha256 .realtime observed.2 with
  | none => after
  | some alert =>
    { after with
      lastReported := s.lastReported.insert path s.clock
      sent := s.sent ++ [hinted hint alert] }

/- When too many paths are waiting, the path is read at once rather than forgotten. -/
def defer (s : EventLoop) (path : Path) (due : Nat) : EventLoop :=
  if maxTrackedPaths ≤ s.pending.size ∧ path ∉ s.pending then s.read host look path none
  else if path ∈ s.pending then s
  else { s with pending := s.pending.insert path due }

def note (s : EventLoop) (path : Path) : EventLoop :=
  { s with announced := s.announced ++ [⟨path, s.clock, s.reads.length⟩] }

/- A removal and a rename are reported at once, also in a burst. -/
def target (ready : Bool) (hint : FimChangeType) (s : EventLoop) (path : Path) : EventLoop :=
  if eventIgnored host s.ignorePatterns (look.isDir path) path then s
  else if ready = false then (s.note path).defer host look path s.clock
  else
    match s.lastReported.lookup path with
    | none => (s.note path).read host look path (some hint)
    | some last =>
      if s.clock - last < s.debounce ∧ hint ≠ .deleted ∧ hint ≠ .renamed then
        (s.note path).defer host look path (last + s.debounce)
      else (s.note path).read host look path (some hint)

def handle (ready : Bool) (kind : EventKind) (paths : List Path) (s : EventLoop) : EventLoop :=
  match kind.hint with
  | none => s
  | some hint =>
    paths.foldl (fun s raw => (s.targets look raw).foldl (target host look ready hint) s)
      s.forgetOld

def readDue (s : EventLoop) (path : Path) : EventLoop :=
  { s with pending := s.pending.erase path }.read host look path none

def readPending (s : EventLoop) : EventLoop :=
  ((look.order s.pending).filter fun path =>
    (s.pending.lookup path).any fun due => decide (due ≤ s.clock)).foldl (readDue host look) s

def wait (s : EventLoop) (time : Nat) : EventLoop := { s with clock := s.clock + time }

end EventLoop

/- One turn of the loop: what the channel gives, if anything comes in time, and then the paths
   whose time has come. -/
structure LoopTurn where
  ready : Bool
  event : Option (EventKind × List Path)
  look : Look
  waited : Nat
  took : Nat

/- Between two turns the scans may change the baseline. -/
inductive LoopAct where
  | turn (t : LoopTurn)
  | scanned (manager : BaselineManager)

def loopStep (host : Host) (s : EventLoop) : LoopAct → EventLoop
  | .scanned manager => { s with manager := manager }
  | .turn t =>
    let woken := s.wait t.waited
    let handled := match t.event with
      | none => woken
      | some (kind, paths) => woken.handle host t.look t.ready kind paths
    if t.ready then (handled.wait t.took).readPending host t.look else handled.wait t.took

/-! What has become of the paths that were announced. -/

section Announced
variable {host : Host} {look : Look} {s : EventLoop} {owed : Announcement → Prop}

/- It was read, not before it was announced. -/
def Announcement.Read (a : Announcement) (s : EventLoop) : Prop :=
  ∃ time, (a.path, time) ∈ s.reads.drop a.mark ∧ a.time ≤ time

def Announcement.Waits (a : Announcement) (s : EventLoop) : Prop :=
  ∃ due, s.pending.lookup a.path = some due ∧ due ≤ a.time + s.debounce

/- No time lies ahead of the clock, and but for those still owed each path announced was read, or
   waits for its burst to be over. -/
structure Sound (owed : Announcement → Prop) (s : EventLoop) : Prop where
  reported : ∀ path last, s.lastReported.lookup path = some last → last ≤ s.clock
  waiting : ∀ path due, s.pending.lookup path = some due → due ≤ s.clock + s.debounce
  logged : ∀ a ∈ s.announced, a.mark ≤ s.reads.length ∧ a.time ≤ s.clock
  served : ∀ a ∈ s.announced, a.Read s ∨ a.Waits s ∨ owed a

abbrev AllSound (s : EventLoop) : Prop := Sound (fun _ => False) s

/- What a reading does besides the baseline and the alert. -/
theorem read_does (host : Host) (look : Look) (s : EventLoop) (path : Path)
    (hint : Option FimChangeType) :
    let after := s.read host look path hint
    after.pending = s.pending ∧ after.clock = s.clock ∧ after.debounce = s.debounce ∧
      after.announced = s.announced ∧ after.reads = s.reads ++ [(path, s.clock)] ∧
      (after.lastReported = s.lastReported ∨
        after.lastReported = s.lastReported.insert path s.clock) := by
  simp only [EventLoop.read]
  split
  · exact ⟨rfl, rfl, rfl, rfl, rfl, Or.inl rfl⟩
  · exact ⟨rfl, rfl, rfl, rfl, rfl, Or.inr rfl⟩

theorem sound_read {path : Path} (sound : Sound owed s)
    (only : ∀ a ∈ s.announced, owed a → a.path = path) (hint : Option FimChangeType) :
    AllSound (s.read host look path hint) := by
  obtain ⟨pending, clock, debounce, announced, reads, last⟩ :=
    read_does host look s path hint
  refine ⟨fun other time found => ?_, fun other due found => ?_, fun a member => ?_,
    fun a member => ?_⟩
  · rw [clock]
    rcases last with same | inserted
    · exact sound.reported other time (same ▸ found)
    · rw [inserted, Maps.lookup_insert_eq] at found
      split at found
      · exact (Option.some.inj found).symm.le
      · exact sound.reported other time found
  · rw [clock, debounce]
    exact sound.waiting other due (pending ▸ found)
  · obtain ⟨mark, time⟩ := sound.logged a (announced ▸ member)
    rw [reads, clock, List.length_append]
    exact ⟨by omega, time⟩
  · rw [announced] at member
    obtain ⟨mark, before⟩ := sound.logged a member
    have dropped : (s.read host look path hint).reads.drop a.mark =
        s.reads.drop a.mark ++ [(path, s.clock)] := by
      rw [reads, List.drop_append_of_le_length mark]
    rcases sound.served a member with ⟨time, read, later⟩ | ⟨due, found, soon⟩ | owes
    · exact Or.inl ⟨time, dropped ▸ List.mem_append_left _ read, later⟩
    · exact Or.inr (Or.inl ⟨due, pending ▸ found, debounce ▸ soon⟩)
    · refine Or.inl ⟨s.clock, ?_, before⟩
      rw [dropped, only a member owes]
      exact List.mem_append_right _ List.mem_cons_self

/- The path just announced. -/
def Announcement.New (s : EventLoop) (path : Path) (a : Announcement) : Prop :=
  a.path = path ∧ a.time = s.clock

theorem sound_note (sound : AllSound s) (path : Path) :
    Sound (Announcement.New s path) (s.note path) := by
  refine ⟨sound.reported, sound.waiting, fun a member => ?_, fun a member => ?_⟩
  · rcases List.mem_append.mp member with before | last
    · exact sound.logged a before
    · rw [List.mem_singleton.mp last]
      exact ⟨le_rfl, le_rfl⟩
  · rcases List.mem_append.mp member with before | last
    · exact (sound.served a before).imp_right (Or.imp_right False.elim)
    · rw [List.mem_singleton.mp last]
      exact Or.inr (Or.inr ⟨rfl, rfl⟩)

theorem sound_defer {path : Path} {due : Nat} (sound : Sound (Announcement.New s path) s)
    (soon : due ≤ s.clock + s.debounce) : AllSound (s.defer host look path due) := by
  unfold EventLoop.defer
  split
  · exact sound_read sound (fun _ _ new => new.1) none
  split
  · rename_i waits
    obtain ⟨kept, found⟩ := Maps.mem_iff_lookup.mp waits
    refine ⟨sound.reported, sound.waiting, sound.logged, fun a member => ?_⟩
    rcases sound.served a member with read | waits | ⟨rfl, now⟩
    · exact Or.inl read
    · exact Or.inr (Or.inl waits)
    · exact Or.inr (Or.inl ⟨kept, found, now ▸ sound.waiting _ kept found⟩)
  · rename_i absent
    refine ⟨sound.reported, fun other time found => ?_, sound.logged, fun a member => ?_⟩
    · rw [Maps.lookup_insert_eq] at found
      split at found
      · exact Option.some.inj found ▸ soon
      · exact sound.waiting other time found
    · have there (time : Nat) (here : s.pending.lookup a.path = some time) : a.path ≠ path :=
        fun same => absent (same ▸ Maps.mem_iff_lookup.mpr ⟨time, here⟩)
      rcases sound.served a member with read | ⟨time, found, early⟩ | ⟨rfl, now⟩
      · exact Or.inl read
      · refine Or.inr (Or.inl ⟨time, ?_, early⟩)
        rw [Maps.lookup_insert_eq, if_neg (there time found), found]
      · refine Or.inr (Or.inl ⟨due, ?_, now ▸ soon⟩)
        rw [Maps.lookup_insert_eq, if_pos rfl]

theorem sound_target (sound : AllSound s) (ready : Bool) (hint : FimChangeType) (path : Path) :
    AllSound (s.target host look ready hint path) := by
  have noted := sound_note sound path
  have read : AllSound ((s.note path).read host look path (some hint)) :=
    sound_read noted (fun _ _ new => new.1) (some hint)
  unfold EventLoop.target
  split
  · exact sound
  split
  · exact sound_defer noted (Nat.le_add_right _ _)
  split
  · exact read
  · rename_i last found
    split
    · exact sound_defer noted (Nat.add_le_add_right (sound.reported path last found) _)
    · exact read

theorem sound_handle (sound : AllSound s) (ready : Bool) (kind : EventKind) (paths : List Path) :
    AllSound (s.handle host look ready kind paths) := by
  unfold EventLoop.handle
  split
  · exact sound
  · rename_i hint _
    have forgot : AllSound s.forgetOld := by
      unfold EventLoop.forgetOld
      split
      · exact ⟨fun path last found => sound.reported path last
          (Maps.lookup_retain_eq_some.mp found).1, sound.waiting, sound.logged, sound.served⟩
      · exact sound
    refine Runs.run_invariant (I := AllSound) ?_ forgot paths
    intro before raw holds
    exact Runs.run_invariant (I := AllSound)
      (fun _ path each => sound_target each ready hint path) holds _

theorem sound_wait (sound : Sound owed s) (time : Nat) : Sound owed (s.wait time) where
  reported path last found := (sound.reported path last found).trans (Nat.le_add_right _ _)
  waiting path due found := by
    have before := sound.waiting path due found
    simp only [EventLoop.wait]
    omega
  logged a member := ⟨(sound.logged a member).1,
    (sound.logged a member).2.trans (Nat.le_add_right _ _)⟩
  served := sound.served

theorem sound_readDue (sound : AllSound s) (path : Path) :
    AllSound (s.readDue host look path) := by
  have erased : Sound (fun a => a.path = path) { s with pending := s.pending.erase path } := by
    refine ⟨sound.reported, fun other due found => ?_, sound.logged, fun a member => ?_⟩
    · rw [Maps.lookup_erase_eq] at found
      split at found
      · cases found
      · exact sound.waiting other due found
    · rcases sound.served a member with read | ⟨due, found, soon⟩ | none
      · exact Or.inl read
      · by_cases same : a.path = path
        · exact Or.inr (Or.inr same)
        · refine Or.inr (Or.inl ⟨due, ?_, soon⟩)
          rw [Maps.lookup_erase_eq, if_neg same, found]
      · exact none.elim
  exact sound_read erased (fun _ _ same => same) none

theorem sound_step (sound : AllSound s) (a : LoopAct) : AllSound (loopStep host s a) := by
  cases a with
  | scanned manager => exact ⟨sound.reported, sound.waiting, sound.logged, sound.served⟩
  | turn t =>
    have handled : AllSound (match t.event with
        | none => s.wait t.waited
        | some (kind, paths) => (s.wait t.waited).handle host t.look t.ready kind paths) := by
      split
      · exact sound_wait sound t.waited
      · exact sound_handle (sound_wait sound t.waited) t.ready _ _
    simp only [loopStep]
    split
    · exact Runs.run_invariant (I := AllSound) (fun _ path each => sound_readDue each path)
        (sound_wait handled t.took) _
    · exact sound_wait handled t.took

/- What is due is gone from the waiting paths, and the clock stands. -/
theorem readDue_does (host : Host) (look : Look) (paths : List Path) (s : EventLoop) :
    let after := paths.foldl (EventLoop.readDue host look) s
    after.clock = s.clock ∧ ∀ path due, after.pending.lookup path = some due →
      path ∉ paths ∧ s.pending.lookup path = some due := by
  induction paths generalizing s with
  | nil => exact ⟨rfl, fun _ _ found => ⟨List.not_mem_nil, found⟩⟩
  | cons first paths ih =>
    obtain ⟨pending, clock, -⟩ := read_does host look
      { s with pending := s.pending.erase first } first none
    obtain ⟨stands, rest⟩ := ih (s.readDue host look first)
    refine ⟨stands.trans clock, fun path due found => ?_⟩
    obtain ⟨other, before⟩ := rest path due found
    have erased : (s.pending.erase first).lookup path = some due :=
      (congrArg (Finmap.lookup path) pending).symm.trans before
    rw [Maps.lookup_erase_eq] at erased
    split at erased
    · cases erased
    · rename_i differs
      exact ⟨List.not_mem_cons_of_ne_of_not_mem differs other, erased⟩

theorem readPending_early (host : Host) (look : Look) (s : EventLoop) :
    (s.readPending host look).clock = s.clock ∧ ∀ path due,
      (s.readPending host look).pending.lookup path = some due → s.clock < due := by
  obtain ⟨stands, left⟩ := readDue_does host look
    ((look.order s.pending).filter fun path =>
      (s.pending.lookup path).any fun due => decide (due ≤ s.clock)) s
  refine ⟨stands, fun path due found => ?_⟩
  obtain ⟨early, before⟩ := left path due found
  by_contra late
  refine early (List.mem_filter.mpr ⟨?_, ?_⟩)
  · exact (look.mem_order _ _).mpr (Maps.mem_iff_lookup.mpr ⟨due, before⟩)
  · rw [before]
    exact decide_eq_true (not_lt.mp late)

/-- Every path announced is read after it was: by the end of any turn that begins when the
    baseline is ready and ends no sooner than the debounce time after the announcement. -/
theorem announced_read (manager : BaselineManager) (debounce clock : Nat) (patterns : List String)
    (acts : List LoopAct) (t : LoopTurn) (ready : t.ready = true) :
    let s := Runs.run (loopStep host) (.new manager debounce patterns clock) (acts ++ [.turn t])
    ∀ a ∈ s.announced, a.time + s.debounce ≤ s.clock → a.Read s := by
  intro s a member past
  have start : AllSound (.new manager debounce patterns clock) := by
    constructor
    · intro path last found
      cases found
    · intro path due found
      cases found
    · exact fun a member => absurd member List.not_mem_nil
    · exact fun a member => absurd member List.not_mem_nil
  have sound : AllSound s :=
    Runs.run_invariant (I := AllSound) (fun _ a each => sound_step each a) start _
  rcases sound.served a member with read | ⟨due, found, soon⟩ | none
  · exact read
  · have last : s = loopStep host (Runs.run (loopStep host)
        (.new manager debounce patterns clock) acts) (.turn t) :=
      Runs.run_append _ _ _ _
    rw [loopStep] at last
    simp only [if_pos ready] at last
    obtain ⟨stands, early⟩ := readPending_early host t.look ((match t.event with
      | none => (Runs.run (loopStep host) (.new manager debounce patterns clock) acts).wait t.waited
      | some (kind, paths) => ((Runs.run (loopStep host) (.new manager debounce patterns clock)
          acts).wait t.waited).handle host t.look t.ready kind paths).wait t.took)
    rw [← last] at stands early
    have ahead := early a.path due found
    omega
  · exact none.elim

/-! Before the baseline is ready. -/

/- No more paths wait than can, and nothing is read unless as many do. -/
structure Quiet (s : EventLoop) : Prop where
  room : s.pending.size ≤ maxTrackedPaths
  unread : s.reads = [] ∨ s.pending.size = maxTrackedPaths

theorem quiet_defer {path : Path} {due : Nat} (quiet : Quiet s) :
    Quiet (s.defer host look path due) := by
  obtain ⟨room, unread⟩ := quiet
  unfold EventLoop.defer
  split
  · rename_i full
    obtain ⟨pending, -⟩ := read_does host look s path none
    refine ⟨pending ▸ room, Or.inr ?_⟩
    rw [pending]
    exact le_antisymm room full.1
  split
  · exact ⟨room, unread⟩
  · rename_i few absent
    have free : s.pending.size < maxTrackedPaths := not_le.mp fun full => few ⟨full, absent⟩
    refine ⟨(Maps.size_insert_le s.pending path due).trans free, Or.inl ?_⟩
    exact unread.resolve_right free.ne

theorem quiet_target (quiet : Quiet s) (hint : FimChangeType) (path : Path) :
    Quiet (s.target host look false hint path) := by
  have noted : Quiet (s.note path) := ⟨quiet.room, quiet.unread⟩
  unfold EventLoop.target
  split
  · exact quiet
  · exact quiet_defer noted

theorem quiet_step (quiet : Quiet s) (a : LoopAct) (unready : ∀ t, a = .turn t → t.ready = false) :
    Quiet (loopStep host s a) := by
  cases a with
  | scanned manager => exact ⟨quiet.room, quiet.unread⟩
  | turn t =>
    have woken : Quiet (s.wait t.waited) := ⟨quiet.room, quiet.unread⟩
    simp only [loopStep, unready t rfl, Bool.false_eq_true, if_false]
    cases t.event with
    | none => exact ⟨woken.room, woken.unread⟩
    | some event =>
      obtain ⟨kind, paths⟩ := event
      have handled : Quiet ((s.wait t.waited).handle host t.look false kind paths) := by
        unfold EventLoop.handle
        split
        · exact woken
        · rename_i hint _
          have forgot : Quiet (s.wait t.waited).forgetOld := by
            unfold EventLoop.forgetOld
            split
            · exact ⟨woken.room, woken.unread⟩
            · exact woken
          refine Runs.run_invariant (I := Quiet) ?_ forgot paths
          intro before raw holds
          exact Runs.run_invariant (I := Quiet) (fun _ path each => quiet_target each hint path)
            holds _
      exact ⟨handled.room, handled.unread⟩

/-- Until the baseline is ready nothing is read, unless as many paths wait as can. -/
theorem quiet_until_ready (manager : BaselineManager) (debounce clock : Nat)
    (patterns : List String) (acts : List LoopAct)
    (unready : ∀ t, LoopAct.turn t ∈ acts → t.ready = false) :
    Quiet (Runs.run (loopStep host) (.new manager debounce patterns clock) acts) := by
  have each : ∀ a ∈ acts, ∀ t, a = .turn t → t.ready = false := by
    rintro a member t rfl
    exact unready t member
  have always : Runs.Along (loopStep host) (fun _ _ => True)
      (EventLoop.new manager debounce patterns clock) acts :=
    Runs.along_always (fun _ _ => trivial) _ _
  exact Runs.run_keeps (I := Quiet) (fun _ a quiet only => quiet_step quiet a only.2)
    ⟨Nat.zero_le _, Or.inl rfl⟩ (Runs.along_and_mem always each)

end Announced

/-! A file is created before the baseline is ready, and read once it is. -/

def emptyFiles : Look where
  entryPath := id
  canonicalize := some
  isDir _ := false
  read _ _ := emptyFile
  sha256 _ := none
  order paths := paths.keys.sort
  mem_order paths path := by simp [Finmap.mem_keys]

def creation : LoopAct := .turn ⟨false, some (.create, [["srv", "index"]]), emptyFiles, 1, 0⟩

def readyTurn : LoopTurn := ⟨true, none, emptyFiles, 1000, 0⟩

theorem announced_read_created : (Announcement.mk ["srv", "index"] 1 0).Read
    (Runs.run (loopStep unixHost) (.new noBaseline 500 [] 0) ([creation] ++ [.turn readyTurn])) :=
  announced_read noBaseline 500 0 [] [creation] readyTurn rfl _
    (by decide +kernel) (by decide +kernel)

theorem quiet_until_ready_created :
    Quiet (Runs.run (loopStep unixHost) (.new noBaseline 500 [] 0) [creation]) :=
  quiet_until_ready noBaseline 500 0 [] [creation] fun t member => by
    rw [List.mem_singleton] at member
    cases member
    rfl

end SentinelAgent.Fim
