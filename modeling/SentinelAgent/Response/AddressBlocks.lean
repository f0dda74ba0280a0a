import SentinelAgent.Library.Deadlines
import SentinelAgent.Library.Runs
import SentinelAgent.Library.Text
import SentinelAgent.Response.IsolationRules

/- Addresses blocked for a time: the firewall, the ledger of pending unblocks, the
   timers, and what a restart of the agent makes of the ledger. A reboot of the host is
   not part of it. `parse` reads the text of an address. -/
namespace SentinelAgent.AddressBlocks
open Deadlines Isolation Maps Text

inductive System where
  | linux | macos | windows
  deriving DecidableEq

/- `to_canonical`: an IPv4 address written as IPv6 is the IPv4 address. -/
def canonical : IpAddr → IpAddr
  | .v4 address => .v4 address
  | .v6 address =>
    if address.val / 2 ^ 32 = 0xffff then .v4 (Fin.ofNat _ address.val) else .v6 address

def isLoopback : IpAddr → Bool
  | .v4 address => address.val / 2 ^ 24 = 127
  | .v6 address => address.val = 1

def isUnspecified (ip : IpAddr) : Bool := ip.value = 0

theorem canonical_canonical (ip : IpAddr) : canonical (canonical ip) = canonical ip := by
  cases ip with
  | v4 address => rfl
  | v6 address =>
    by_cases mapped : address.val / 2 ^ 32 = 0xffff
    · simp only [canonical, if_pos mapped]
    · simp only [canonical, if_neg mapped]

/- `blocked`: the addresses the firewall drops because of the agent. -/
structure Agent where
  board : Board String IpAddr
  blocked : IpAddr → Bool

inductive Applied where
  | done
  | failed (text : String) (still : Bool)

/- What one call is answered. Where a new block fails, `still` says whether an earlier
   block of the address is left. `lag`: the seconds until the timer of the call starts. -/
structure BlockAnswers where
  isBackend : IpAddr → Bool
  resolvers : List String
  gateways : List String
  firewall : Applied
  file : FileAnswers
  lag : Nat

/- `lifts`: whether the firewall drops the rules of the address. -/
structure UnblockAnswers where
  lifts : Bool
  file : FileAnswers

inductive BlockError where
  | failed (text : String)
  | overflow
  deriving DecidableEq

section Calls
variable (parse : String → Option IpAddr)

def parseReportedAddress (value : String) : Option IpAddr :=
  (parse (String.ofList ((trim value).toList.takeWhile (· != '%')))).map canonical

def essentialRole (ip : IpAddr) (resolvers gateways : List String) : Option String :=
  let listed (addresses : List String) :=
    addresses.any fun address => parseReportedAddress parse address = some ip
  if listed resolvers then some "DNS resolver"
  else if listed gateways then some "network gateway"
  else none

/- The address a text is blocked as. -/
def blockAddress (ip : String) : Option IpAddr := (parse ip).map canonical

def checkBlock (ip : String) (answers : BlockAnswers) : Except String IpAddr :=
  match blockAddress parse ip with
  | none => .error s!"Invalid IP address: {ip}"
  | some address =>
    if isLoopback address || isUnspecified address then
      .error "Anti-Draper protection: Cannot block localhost"
    else if answers.isBackend address then
      .error "Anti-Draper protection: Cannot block the backend API server"
    else
      match essentialRole parse address answers.resolvers answers.gateways with
      | some role => .error s!"Anti-Draper protection: Cannot block the {role} of this host"
      | none => .ok address

/- `duration_secs as i64`, then a checked addition. -/
def unblockAt (now : Int) (durationSecs : Nat) : Option Int :=
  let wide : Int := if durationSecs < 2 ^ 63 then durationSecs else durationSecs - 2 ^ 64
  if -2 ^ 63 ≤ now + wide ∧ now + wide < 2 ^ 63 then some (now + wide) else none

def recordPendingBlock (ip : String) (time : Int) (file : FileAnswers) (ledger : Map String Int) :
    Map String Int :=
  store file ledger ((load file ledger).insert ip time)

def clearPendingBlock (ip : String) (file : FileAnswers) (ledger : Map String Int) :
    Map String Int :=
  if ((load file ledger).lookup ip).isSome then store file ledger ((load file ledger).erase ip)
  else ledger

/- The end that is promised with a block. -/
def promised (now : Int) (durationSecs : Nat) : End :=
  if 0 < durationSecs then endAt (now + durationSecs) else forGood

/- The firewall drops the address, whatever comes after. -/
def Agent.block (s : Agent) (address : IpAddr) (ends : End) : Agent where
  board := { s.board with ends := Function.update s.board.ends address ends }
  blocked := Function.update s.blocked address true

def blockIp (ip : String) (durationSecs : Nat) (answers : BlockAnswers) (s : Agent) :
    Agent × Except BlockError Unit :=
  match checkBlock parse ip answers with
  | .error text => (s, .error (.failed text))
  | .ok address =>
    match answers.firewall with
    | .failed text still =>
      ({ s with blocked := Function.update s.blocked address (s.blocked address && still) },
        .error (.failed s!"Failed to apply firewall rules: {text}"))
    | .done =>
      let s := s.block address (promised s.board.now durationSecs)
      if 0 < durationSecs then
        match unblockAt s.board.now durationSecs with
        | none => (s, .error .overflow)
        | some time =>
          ({ s with board := { s.board with
              ledger := recordPendingBlock ip time answers.file s.board.ledger
              timers := s.board.timers ++ [(ip, s.board.now + answers.lag + durationSecs)] } },
            .ok ())
      else (s, .ok ())

/- The address is read as it is written, and the ledger comes first. -/
def unblockIp (system : System) (ip : String) (answers : UnblockAnswers) (s : Agent) :
    Agent × Except String Unit :=
  let board := { s.board with ledger := clearPendingBlock ip answers.file s.board.ledger }
  match parse ip with
  | none => ({ s with board := board }, .error s!"Invalid IP address: {ip}")
  | some address =>
    let blocked := if answers.lifts then Function.update s.blocked address false else s.blocked
    (⟨board, blocked⟩,
      if answers.lifts || system = .windows then .ok () else .error "unblock failed")

/- The ledger is gone through in no fixed order. -/
structure RestartAnswers where
  file : FileAnswers
  order : List String
  unblock : String → UnblockAnswers
  lag : Nat

def reconcileEntry (system : System) (answers : RestartAnswers) (s : Agent)
    (entry : String × Int) : Agent :=
  if entry.2 ≤ s.board.now then (unblockIp parse system entry.1 (answers.unblock entry.1) s).1
  else { s with board := { s.board with
    timers := s.board.timers ++ [(entry.1, s.board.now + answers.lag + (entry.2 - s.board.now))] } }

def entriesOf (ledger : Map String Int) (order : List String) : List (String × Int) :=
  order.filterMap fun ip => (ledger.lookup ip).map (ip, ·)

def forgetTimers (s : Agent) : Agent := { s with board := { s.board with timers := [] } }

/- The agent starts again: `reconcile_pending_blocks`. -/
def restart (system : System) (answers : RestartAnswers) (s : Agent) : Agent :=
  Runs.run (reconcileEntry parse system answers) (forgetTimers s)
    (entriesOf (load answers.file s.board.ledger) answers.order)

end Calls

inductive Action where
  | pass (seconds : Nat)
  | block (ip : String) (durationSecs : Nat) (answers : BlockAnswers)
  | unblock (ip : String) (answers : UnblockAnswers)
  | restart (answers : RestartAnswers)
  | fire (n : Nat) (answers : UnblockAnswers)

section Runs
variable (parse : String → Option IpAddr) (system : System)

/- A timer fires once it is due; its process may have ended before. -/
def step (s : Agent) : Action → Agent
  | .pass seconds => { s with board := { s.board with now := s.board.now + seconds } }
  | .block ip durationSecs answers => (blockIp parse ip durationSecs answers s).1
  | .unblock ip answers => (unblockIp parse system ip answers s).1
  | .restart answers => restart parse system answers s
  | .fire n answers =>
    match s.board.timers[n]? with
    | none => s
    | some (ip, time) =>
      if time ≤ s.board.now then
        (unblockIp parse system ip answers
          { s with board := { s.board with timers := s.board.timers.eraseIdx n } }).1
      else s

/- No address is unblocked by a timer or by a restart before the end of its last block. -/
def NotEarly (s : Agent) : Action → Prop
  | .fire n answers => ∀ ip time address, s.board.timers[n]? = some (ip, time) →
      time ≤ s.board.now → parse ip = some address → s.blocked address = true →
        answers.lifts = true → s.board.ends address ≤ endAt s.board.now
  | .restart answers => ∀ ip time address,
      (ip, time) ∈ entriesOf (load answers.file s.board.ledger) answers.order →
        time ≤ s.board.now → parse ip = some address → s.blocked address = true →
          s.board.ends address ≤ endAt s.board.now
  | _ => True

/- Every address blocked for a limited time has an entry. -/
def Tracked (s : Agent) : Prop :=
  ∀ address time, s.blocked address = true → s.board.ends address = endAt time →
    ∃ ip due, s.board.ledger.lookup ip = some due ∧ blockAddress parse ip = some address

def OnTime (s : Agent) (action : Action) : Prop :=
  NotEarly parse s action ∧ Tracked parse (step parse system s action)

/- The entry of an address that is blocked goes only together with the block. -/
def UnblockMeets (ip : String) (answers : UnblockAnswers) (s : Agent) : Prop :=
  ((load answers.file s.board.ledger).lookup ip).isSome = true →
    answers.file.stored ≠ .damaged ∧
    (answers.file.stored = .written → ∀ address, blockAddress parse ip = some address →
      s.blocked address = true → parse ip = some address ∧ answers.lifts = true)

/- Nothing that is left of earlier blocks is due before the new end, and the new end is
   recorded. -/
def BlockMeets (ip : String) (durationSecs : Nat) (answers : BlockAnswers) (s : Agent) : Prop :=
  ∀ address, checkBlock parse ip answers = .ok address → answers.firewall = .done →
    (∀ timer ∈ s.board.timers, blockAddress parse timer.1 = some address →
      promised s.board.now durationSecs ≤ endAt timer.2) ∧
    (∀ name time, s.board.ledger.lookup name = some time → name ≠ ip ∨ durationSecs = 0 →
      blockAddress parse name = some address →
        promised s.board.now durationSecs ≤ endAt time) ∧
    (0 < durationSecs → unblockAt s.board.now durationSecs = some (s.board.now + durationSecs) ∧
      answers.file.stored = .written ∧
      (answers.file.readFails = true → s.board.ledger = ∅))

def Meets (s : Agent) : Action → Prop
  | .pass _ => True
  | .block ip durationSecs answers => BlockMeets parse ip durationSecs answers s
  | .unblock ip answers => UnblockMeets parse ip answers s
  | .restart answers => Runs.Along (reconcileEntry parse system answers)
      (fun s entry => entry.2 ≤ s.board.now →
        UnblockMeets parse entry.1 (answers.unblock entry.1) s)
      (forgetTimers s) (entriesOf (load answers.file s.board.ledger) answers.order)
  | .fire n answers => ∀ ip time, s.board.timers[n]? = some (ip, time) → time ≤ s.board.now →
      UnblockMeets parse ip answers s

end Runs

section Invariant
variable {parse : String → Option IpAddr} {system : System}

structure Sound (parse : String → Option IpAddr) (s : Agent) : Prop where
  kept : Kept (blockAddress parse) s.board
  tracked : Tracked parse s
  canonical : ∀ address, s.blocked address = true → canonical address = address

theorem lookup_cleared {ip name : String} {file : FileAnswers} {ledger : Map String Int}
    {time : Int} (found : (clearPendingBlock ip file ledger).lookup name = some time) :
    ledger.lookup name = some time := by
  rw [clearPendingBlock] at found
  split at found
  · exact lookup_erased found
  · exact found

theorem load_of_present {file : FileAnswers} {ledger : Map String Int} {ip : String}
    (present : ((load file ledger).lookup ip).isSome = true) : load file ledger = ledger := by
  rw [load] at present ⊢
  split
  · rename_i fails
    simp [fails] at present
  · rfl

/- Only the entry of the address goes, and only where the file is written. -/
theorem cleared_keeps {ip name : String} {file : FileAnswers} {ledger : Map String Int} {time : Int}
    (undamaged : ((load file ledger).lookup ip).isSome = true → file.stored ≠ .damaged)
    (found : ledger.lookup name = some time) :
    (clearPendingBlock ip file ledger).lookup name = some time ∨
      (name = ip ∧ ((load file ledger).lookup ip).isSome = true ∧ file.stored = .written) := by
  rw [clearPendingBlock]
  split
  · rename_i present
    rw [store]
    cases stored : file.stored with
    | written =>
      by_cases its : name = ip
      · exact Or.inr ⟨its, present, rfl⟩
      · left
        simp only [load_of_present present, lookup_erase_eq, if_neg its]
        exact found
    | failed => exact Or.inl found
    | damaged => exact absurd stored (undamaged present)
  · exact Or.inl found

theorem unblock_board (ip : String) (answers : UnblockAnswers) (s : Agent) :
    (unblockIp parse system ip answers s).1.board =
      { s.board with ledger := clearPendingBlock ip answers.file s.board.ledger } := by
  rw [unblockIp]
  split <;> rfl

theorem unblock_blocked {ip : String} {answers : UnblockAnswers} {s : Agent} {address : IpAddr}
    (still : (unblockIp parse system ip answers s).1.blocked address = true) :
    s.blocked address = true ∧ ¬ (parse ip = some address ∧ answers.lifts = true) := by
  rw [unblockIp] at still
  split at still
  · rename_i unread
    exact ⟨still, fun reads => by simp [unread] at reads⟩
  · rename_i other reads
    simp only at still
    split at still
    · by_cases its : address = other
      · subst its
        simp at still
      · rw [Function.update_of_ne its] at still
        refine ⟨still, fun lifted => its ?_⟩
        exact Option.some.inj (lifted.1.symm.trans reads)
    · rename_i fails
      exact ⟨still, fun lifted => fails lifted.2⟩

theorem unblock_sound {ip : String} {answers : UnblockAnswers} {s : Agent}
    (sound : Sound parse s) (meets : UnblockMeets parse ip answers s) :
    Sound parse (unblockIp parse system ip answers s).1 where
  kept := by
    rw [unblock_board]
    exact kept_entries sound.kept fun _ _ found => lookup_cleared found
  tracked := by
    intro address time still ends
    rw [unblock_board] at ends ⊢
    obtain ⟨blocked, not_lifted⟩ := unblock_blocked still
    obtain ⟨name, due, found, stands⟩ := sound.tracked address time blocked ends
    rcases cleared_keeps (fun present => (meets present).1) found with
      kept | ⟨rfl, present, written⟩
    · exact ⟨name, due, kept, stands⟩
    · exact absurd ((meets present).2 written address stands blocked) not_lifted
  canonical address still := sound.canonical address (unblock_blocked still).1

theorem check_reads {ip : String} {answers : BlockAnswers} {address : IpAddr}
    (checked : checkBlock parse ip answers = .ok address) : blockAddress parse ip = some address := by
  rw [checkBlock] at checked
  split at checked
  · cases checked
  · rename_i other reads
    split_ifs at checked
    split at checked
    · cases checked
    · cases checked
      exact reads

theorem lookup_written {ip name : String} {file : FileAnswers} {ledger : Map String Int}
    {time : Int} (written : file.stored = .written) (reads : file.readFails = true → ledger = ∅) :
    (recordPendingBlock ip time file ledger).lookup name =
      if name = ip then some time else ledger.lookup name := by
  have loaded : load file ledger = ledger := by
    rw [load]
    split
    · rename_i fails
      exact (reads fails).symm
    · rfl
  rw [recordPendingBlock, loaded, store, written]
  exact lookup_insert_eq _ _ _ _

theorem failed_sound {s : Agent} (sound : Sound parse s) (address : IpAddr) (still : Bool) :
    Sound parse { s with
      blocked := Function.update s.blocked address (s.blocked address && still) } := by
  have before : ∀ other, Function.update s.blocked address (s.blocked address && still) other =
      true → s.blocked other = true := by
    intro other blocked
    by_cases its : other = address
    · subst its
      simp only [Function.update_self, Bool.and_eq_true] at blocked
      exact blocked.1
    · rwa [Function.update_of_ne its] at blocked
  constructor
  · exact sound.kept
  · exact fun other time blocked ends => sound.tracked other time (before other blocked) ends
  · exact fun other blocked => sound.canonical other (before other blocked)

theorem blocked_canonical {s : Agent} {ip : String} {address : IpAddr} (sound : Sound parse s)
    (stands : blockAddress parse ip = some address) (other : IpAddr)
    (blocked : Function.update s.blocked address true other = true) :
    canonical other = other := by
  by_cases its : other = address
  · subst its
    obtain ⟨written, _, rfl⟩ := Option.map_eq_some_iff.mp stands
    exact canonical_canonical written
  · rw [Function.update_of_ne its] at blocked
    exact sound.canonical other blocked

/- A block for good: nothing is left that would end it. -/
theorem block_for_good {s : Agent} {ip : String} {address : IpAddr} (sound : Sound parse s)
    (stands : blockAddress parse ip = some address)
    (timers : ∀ timer ∈ s.board.timers, blockAddress parse timer.1 = some address →
      forGood ≤ endAt timer.2)
    (entries : ∀ name time, s.board.ledger.lookup name = some time →
      blockAddress parse name = some address → forGood ≤ endAt time) :
    Sound parse (s.block address forGood) where
  kept := kept_held sound.kept timers entries fun _ _ found _ => found
  tracked := by
    intro other time blocked ends
    by_cases its : other = address
    · subst its
      simp only [Agent.block, Function.update_self] at ends
      exact absurd (WithBot.coe_injective ends) (WithTop.coe_ne_top).symm
    · simp only [Agent.block, Function.update_of_ne its] at blocked ends
      exact sound.tracked other time blocked ends
  canonical := blocked_canonical sound stands

theorem block_timed {s : Agent} {ip : String} {address : IpAddr} {file : FileAnswers}
    {time due : Int} (sound : Sound parse s) (stands : blockAddress parse ip = some address)
    (timers : ∀ timer ∈ s.board.timers, blockAddress parse timer.1 = some address →
      endAt time ≤ endAt timer.2)
    (entries : ∀ name other, s.board.ledger.lookup name = some other → name ≠ ip →
      blockAddress parse name = some address → endAt time ≤ endAt other)
    (written : file.stored = .written) (reads : file.readFails = true → s.board.ledger = ∅)
    (later : time ≤ due) :
    Sound parse { s.block address (endAt time) with board := { s.board with
      ledger := recordPendingBlock ip time file s.board.ledger
      timers := s.board.timers ++ [(ip, due)]
      ends := Function.update s.board.ends address (endAt time) } } where
  kept := by
    have held : Kept (blockAddress parse) { s.board with
        ledger := recordPendingBlock ip time file s.board.ledger
        ends := Function.update s.board.ends address (endAt time) } := by
      apply kept_held sound.kept timers
      · intro name other found its
        rw [lookup_written written reads] at found
        split at found
        · rw [Option.some.inj found]
        · rename_i different
          exact entries name other found different its
      · intro name other found different
        rw [lookup_written written reads] at found
        split at found
        · rename_i its
          rw [its] at different
          exact absurd stands different
        · exact found
    apply kept_scheduled held
    intro k its
    rw [stands] at its
    cases its
    simp only [Function.update_self]
    exact endAt_le_iff.mpr later
  tracked := by
    intro other last blocked ends
    simp only [Agent.block] at blocked ends ⊢
    by_cases its : other = address
    · subst its
      refine ⟨ip, time, ?_, stands⟩
      rw [lookup_written written reads, if_pos rfl]
    · rw [Function.update_of_ne its] at blocked ends
      obtain ⟨name, entry, found, is_other⟩ := sound.tracked other last blocked ends
      refine ⟨name, entry, ?_, is_other⟩
      have different : name ≠ ip := by
        rintro rfl
        exact its (Option.some.inj (is_other.symm.trans stands))
      rw [lookup_written written reads, if_neg different]
      exact found
  canonical := blocked_canonical sound stands

theorem block_sound {ip : String} {durationSecs : Nat} {answers : BlockAnswers} {s : Agent}
    (sound : Sound parse s) (meets : BlockMeets parse ip durationSecs answers s) :
    Sound parse (blockIp parse ip durationSecs answers s).1 := by
  rw [blockIp]
  split
  · exact sound
  · rename_i address checked
    have stands := check_reads checked
    split
    · exact failed_sound sound address _
    · rename_i done
      obtain ⟨timers, entries, recorded⟩ := meets address checked done
      by_cases limited : 0 < durationSecs
      · obtain ⟨fits, written, reads⟩ := recorded limited
        simp only [promised, if_pos limited] at timers entries
        have now_same (ends : End) : (s.block address ends).board.now = s.board.now := rfl
        simp only [promised, if_pos limited, now_same, fits]
        apply block_timed sound stands timers ?_ written reads
        · omega
        · exact fun name other found different its =>
            entries name other found (Or.inl different) its
      · simp only [promised, if_neg limited] at timers entries ⊢
        have none : durationSecs = 0 := by omega
        exact block_for_good sound stands timers fun name time found its =>
          entries name time found (Or.inr none) its

theorem mem_entriesOf {ledger : Map String Int} {order : List String} {entry : String × Int}
    (member : entry ∈ entriesOf ledger order) : ledger.lookup entry.1 = some entry.2 := by
  obtain ⟨ip, _, made⟩ := List.mem_filterMap.mp member
  obtain ⟨time, found, rfl⟩ := Option.map_eq_some_iff.mp made
  exact found

theorem forgotten_sound {s : Agent} (sound : Sound parse s) : Sound parse (forgetTimers s) where
  kept := kept_timers sound.kept [] (by simp)
  tracked := sound.tracked
  canonical := sound.canonical

theorem scheduled_sound {s : Agent} {ip : String} {time due : Int} (sound : Sound parse s)
    (late : Late (blockAddress parse) s.board.ends (ip, time)) (later : time ≤ due) :
    Sound parse { s with board := { s.board with timers := s.board.timers ++ [(ip, due)] } } where
  kept := kept_scheduled sound.kept (late_mono late later)
  tracked := sound.tracked
  canonical := sound.canonical

/- Every entry of the ledger read first keeps its place in what was promised. -/
theorem restart_sound {answers : RestartAnswers} {s : Agent} (sound : Sound parse s)
    (meets : Meets parse system s (.restart answers)) :
    Sound parse (restart parse system answers s) := by
  have late : ∀ entry ∈ entriesOf (load answers.file s.board.ledger) answers.order,
      Late (blockAddress parse) s.board.ends entry := by
    intro entry member
    exact sound.kept.ledger entry.1 entry.2 (lookup_loaded (mem_entriesOf member))
  have kept := Runs.run_keeps (I := fun t => Sound parse t ∧ t.board.ends = s.board.ends) ?_
    ⟨forgotten_sound sound, rfl⟩ (Runs.along_and_mem meets late)
  · exact kept.1
  · rintro t ⟨ip, time⟩ ⟨t_sound, ends⟩ ⟨unblocks, entry_late⟩
    rw [reconcileEntry]
    split
    · rename_i is_over
      refine ⟨unblock_sound t_sound (unblocks is_over), ?_⟩
      rw [unblock_board]
      exact ends
    · rw [← ends] at entry_late
      refine ⟨scheduled_sound t_sound entry_late ?_, ends⟩
      simp only
      omega

theorem step_sound {s : Agent} {action : Action} (sound : Sound parse s)
    (meets : Meets parse system s action) : Sound parse (step parse system s action) := by
  cases action with
  | pass seconds => exact ⟨kept_later sound.kept, sound.tracked, sound.canonical⟩
  | block ip durationSecs answers => exact block_sound sound meets
  | unblock ip answers => exact unblock_sound sound meets
  | restart answers => exact restart_sound sound meets
  | fire n answers =>
    rw [step]
    split
    · exact sound
    · rename_i ip time found
      split
      · rename_i is_over
        have without : Sound parse { s with
            board := { s.board with timers := s.board.timers.eraseIdx n } } :=
          ⟨kept_timers sound.kept _ fun timer member =>
            sound.kept.timers timer (List.mem_of_mem_eraseIdx member), sound.tracked,
            sound.canonical⟩
        exact unblock_sound without (meets ip time found is_over)
      · exact sound

theorem reads_as_blocked {s : Agent} {ip : String} {address : IpAddr} (sound : Sound parse s)
    (reads : parse ip = some address) (blocked : s.blocked address = true) :
    blockAddress parse ip = some address := by
  rw [blockAddress, reads, Option.map_some, sound.canonical address blocked]

theorem sound_not_early {s : Agent} (sound : Sound parse s) (action : Action) :
    NotEarly parse s action := by
  cases action with
  | fire n answers =>
    intro ip time address found is_over reads blocked _
    exact late_over (sound.kept.timers _ (List.mem_of_getElem? found)) is_over
      (reads_as_blocked sound reads blocked)
  | restart answers =>
    intro ip time address member is_over reads blocked
    exact late_over (sound.kept.ledger ip time (lookup_loaded (mem_entriesOf member))) is_over
      (reads_as_blocked sound reads blocked)
  | pass seconds => trivial
  | block ip durationSecs answers => trivial
  | unblock ip answers => trivial

end Invariant

theorem on_time_along {parse : String → Option IpAddr} {system : System} {s : Agent}
    (sound : Sound parse s) (actions : List Action)
    (meets : Runs.Along (step parse system) (Meets parse system) s actions) :
    Runs.Along (step parse system) (OnTime parse system) s actions := by
  apply Runs.along_imp (I := Sound parse) ?_ (fun _ _ => step_sound) sound meets
  intro s action sound meets
  exact ⟨sound_not_early sound action, (step_sound sound meets).tracked⟩

def newAgent : Agent := ⟨⟨1000, ∅, [], fun _ => ⊥⟩, fun _ => false⟩

theorem newAgent_sound (parse : String → Option IpAddr) : Sound parse newAgent where
  kept := ⟨by simp [newAgent], by simp [newAgent]⟩
  tracked := by simp [Tracked, newAgent]
  canonical := by simp [newAgent]

/- One address is read. -/
def oneAddress (text : String) : Option IpAddr :=
  if text = "192.0.2.1" then some (.v4 3221225985) else none

def blocks : BlockAnswers := ⟨fun _ => false, [], [], .done, ⟨false, .written⟩, 0⟩

def unblocks (lifts : Bool) : UnblockAnswers := ⟨lifts, ⟨false, .written⟩⟩

theorem block_ends_on_time : Runs.Along (step oneAddress .linux) (OnTime oneAddress .linux) newAgent
    [.block "192.0.2.1" 60 blocks, .pass 60, .fire 0 (unblocks true)] := by
  apply on_time_along (newAgent_sound oneAddress)
  refine ⟨?_, trivial, ?_, trivial⟩
  · intro address _ _
    exact ⟨by simp [newAgent], by simp [newAgent], fun _ => ⟨by decide, rfl, by simp [blocks]⟩⟩
  · intro ip time _ _ _
    refine ⟨by decide, fun _ address stands _ => ⟨?_, rfl⟩⟩
    rw [blockAddress, oneAddress] at stands
    rw [oneAddress]
    split at stands
    · rw [if_pos (by assumption)]
      exact stands
    · cases stands

/- Blocked for a minute, then for good: the timer of the first block lifts the second
   one. -/
theorem stale_timer_unblocks : ¬ Runs.Along (step oneAddress .linux) (OnTime oneAddress .linux)
    newAgent [.block "192.0.2.1" 60 blocks, .block "192.0.2.1" 0 blocks, .pass 60,
      .fire 0 (unblocks true)] := by
  rintro ⟨_, _, _, ⟨early, _⟩, _⟩
  have late := early "192.0.2.1" 1060 (.v4 3221225985) rfl (by decide) rfl rfl rfl
  exact absurd late (by decide)

end SentinelAgent.AddressBlocks
