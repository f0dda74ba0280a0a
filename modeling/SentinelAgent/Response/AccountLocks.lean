import Mathlib.Data.Finset.Sort
import Mathlib.Data.String.Basic
import SentinelAgent.Library.Deadlines
import SentinelAgent.Library.Runs
import SentinelAgent.Response.Accounts

/- Locks of accounts that end: the file of pending locks, the timers in memory, and
   what a restart makes of the file. -/
namespace SentinelAgent.Accounts
open Deadlines Maps Text

abbrev Locks := Board String String

def maxI64 : Int := 2 ^ 63 - 1

def loadPending (file : FileAnswers) (pending : Map String Int) : Map String Int :=
  load file pending

def storePending (file : FileAnswers) (before entries : Map String Int) : Map String Int :=
  store file before entries

/- The locks that are over, and those still running with the seconds left. -/
def due (entries : Map String Int) (now : Int) : List String × List (String × Nat) :=
  (entries.keys.sort.filter fun user =>
      (entries.lookup user).any fun ends => ends ≠ maxI64 && ends ≤ now,
    entries.keys.sort.filterMap fun user =>
      (entries.lookup user).bind fun ends =>
        if ends ≠ maxI64 ∧ now < ends then some (user, (ends - now).toNat) else none)

/- The end a lock is recorded with. -/
def lockEnd (now : Int) (durationSecs : Nat) : Int :=
  if 0 < durationSecs then min (now + durationSecs) maxI64 else maxI64

/- `lag`: the seconds until the timer of the call starts. -/
structure DisableAnswers where
  lock : LockAnswers
  file : FileAnswers
  lag : Nat

def recordLock (user : String) (ends : Int) (file : FileAnswers) (pending : Map String Int) :
    Map String Int :=
  storePending file pending ((loadPending file pending).insert user ends)

def disableAccount (system : System) (user : String) (durationSecs : Nat)
    (answers : DisableAnswers) (b : Locks) : Locks × Except String Unit :=
  match lockAccount system user answers.lock with
  | .error e => (b, .error e)
  | .ok false => (b, .ok ())
  | .ok true =>
    let ends := lockEnd b.now durationSecs
    ({ b with
      ledger := recordLock user ends answers.file b.ledger
      ends := Function.update b.ends (account system user) (endAt ends)
      timers := if 0 < durationSecs then b.timers ++ [(user, b.now + answers.lag + durationSecs)]
        else b.timers }, .ok ())

structure EnableAnswers where
  unlock : Except String Unit
  file : FileAnswers

def enableAccount (system : System) (user : String) (answers : EnableAnswers) (b : Locks) :
    Locks × Except String Unit :=
  if !isAccountName user then (b, .error s!"'{user}' is not an account name")
  else
    let pending := loadPending answers.file b.ledger
    match pending.lookup user with
    | none => (b, .error s!"account '{user}' was not locked by the agent")
    | some _ =>
      match lockCommand system user false with
      | none => (b, .error "unlocking an account is not supported here")
      | some _ =>
        match answers.unlock with
        | .error e => (b, .error e)
        | .ok () =>
          ({ b with ledger := storePending answers.file b.ledger (pending.erase user) }, .ok ())

structure RestartAnswers where
  file : FileAnswers
  enable : String → EnableAnswers
  lag : Nat

/- `reconcile_pending_locks`. -/
def reconcilePendingLocks (system : System) (answers : RestartAnswers) (b : Locks) : Locks :=
  let lists := due (loadPending answers.file b.ledger) b.now
  let b := lists.1.foldl (fun b user => (enableAccount system user (answers.enable user) b).1) b
  { b with timers := b.timers ++ lists.2.map fun (user, seconds) =>
      (user, b.now + answers.lag + seconds) }

inductive LockAction where
  | pass (seconds : Nat)
  | disable (user : String) (durationSecs : Nat) (answers : DisableAnswers)
  | enable (user : String) (answers : EnableAnswers)
  | restart (answers : RestartAnswers)
  | fire (n : Nat) (answers : EnableAnswers)

/- A timer fires once it is due; its process may have ended before. -/
def lockStep (system : System) (b : Locks) : LockAction → Locks
  | .pass seconds => { b with now := b.now + seconds }
  | .disable user durationSecs answers => (disableAccount system user durationSecs answers b).1
  | .enable user answers => (enableAccount system user answers b).1
  | .restart answers => reconcilePendingLocks system answers { b with timers := [] }
  | .fire n answers =>
    match b.timers[n]? with
    | none => b
    | some (user, time) =>
      if time ≤ b.now then
        (enableAccount system user answers { b with timers := b.timers.eraseIdx n }).1
      else b

/- No account is unlocked by a timer, or by a restart in its place, before the end of
   its last lock. -/
def NotEarly (system : System) (b : Locks) : LockAction → Prop
  | .fire n answers => ∀ user time, b.timers[n]? = some (user, time) → time ≤ b.now →
      (enableAccount system user answers b).2 = .ok () →
        b.ends (account system user) ≤ endAt b.now
  | .restart answers => ∀ user ∈ (due (loadPending answers.file b.ledger) b.now).1,
      b.ends (account system user) ≤ endAt b.now
  | _ => True

/- An account is locked only when nothing that is left of its earlier locks is due
   before the new end. -/
def LockMeets (system : System) (b : Locks) : LockAction → Prop
  | .disable user durationSecs answers => lockAccount system user answers.lock = .ok true →
      (∀ timer ∈ b.timers, account system timer.1 = account system user →
        lockEnd b.now durationSecs ≤ timer.2) ∧
      ∀ name time, (recordLock user (lockEnd b.now durationSecs) answers.file b.ledger).lookup
          name = some time →
        account system name = account system user → lockEnd b.now durationSecs ≤ time
  | _ => True

theorem lookup_recorded {user : String} {ends : Int} {file : FileAnswers}
    {pending : Map String Int} {name : String} {time : Int}
    (found : (recordLock user ends file pending).lookup name = some time) :
    name = user ∨ pending.lookup name = some time := by
  rcases lookup_stored found with before | entry
  · exact Or.inr before
  · rw [lookup_insert_eq] at entry
    split at entry
    · rename_i its
      exact Or.inl its
    · exact Or.inr (lookup_loaded entry)

/- Unlocking an account does nothing but drop entries of the file. -/
theorem enable_drops (system : System) (user : String) (answers : EnableAnswers) (b : Locks) :
    ∃ ledger, (enableAccount system user answers b).1 = { b with ledger := ledger } ∧
      ∀ name time, ledger.lookup name = some time → b.ledger.lookup name = some time := by
  have unchanged : ∃ ledger, b = { b with ledger := ledger } ∧
      ∀ name time, ledger.lookup name = some time → b.ledger.lookup name = some time :=
    ⟨b.ledger, rfl, fun _ _ found => found⟩
  rw [enableAccount]
  split
  · exact unchanged
  · simp only
    split
    · exact unchanged
    · split
      · exact unchanged
      · split
        · exact unchanged
        · exact ⟨_, rfl, fun _ _ found => lookup_erased found⟩

theorem enableEach_drops (system : System) (answers : String → EnableAnswers)
    (users : List String) (b : Locks) :
    ∃ ledger, users.foldl (fun b user => (enableAccount system user (answers user) b).1) b =
        { b with ledger := ledger } ∧
      ∀ name time, ledger.lookup name = some time → b.ledger.lookup name = some time := by
  induction users generalizing b with
  | nil => exact ⟨b.ledger, rfl, fun _ _ found => found⟩
  | cons user users ih =>
    obtain ⟨first, result, among⟩ := enable_drops system user (answers user) b
    obtain ⟨last, rest, still⟩ := ih { b with ledger := first }
    refine ⟨last, ?_, fun name time found => among name time (still name time found)⟩
    rw [List.foldl_cons, result, rest]

theorem mem_over {entries : Map String Int} {now : Int} {user : String}
    (is_over : user ∈ (due entries now).1) : ∃ ends, entries.lookup user = some ends ∧ ends ≤ now := by
  obtain ⟨_, passed⟩ := List.mem_filter.mp is_over
  cases found : entries.lookup user with
  | none => simp [found] at passed
  | some ends =>
    simp only [found, Option.any_some, Bool.and_eq_true, decide_eq_true_eq] at passed
    exact ⟨ends, rfl, passed.2⟩

theorem mem_running {entries : Map String Int} {now : Int} {user : String} {seconds : Nat}
    (running : (user, seconds) ∈ (due entries now).2) :
    ∃ ends, entries.lookup user = some ends ∧ ends = now + seconds := by
  obtain ⟨name, _, made⟩ := List.mem_filterMap.mp running
  obtain ⟨ends, found, made⟩ := Option.bind_eq_some_iff.mp made
  split at made
  · rename_i still
    cases made
    exact ⟨ends, found, by omega⟩
  · cases made

/- Every name stands for an account. -/
def named (system : System) (name : String) : Option String := some (account system name)

theorem lockEnd_le (now : Int) {durationSecs lag : Nat} (limited : 0 < durationSecs) :
    lockEnd now durationSecs ≤ now + lag + durationSecs := by
  rw [lockEnd, if_pos limited]
  omega

theorem disable_kept {system : System} {user : String} {durationSecs : Nat}
    {answers : DisableAnswers} {b : Locks} (kept : Kept (named system) b)
    (meets : LockMeets system b (.disable user durationSecs answers)) :
    Kept (named system) (disableAccount system user durationSecs answers b).1 := by
  cases locked : lockAccount system user answers.lock with
  | error e => simpa only [disableAccount, locked] using kept
  | ok now_locked =>
    cases now_locked with
    | false => simpa only [disableAccount, locked] using kept
    | true =>
      obtain ⟨timers, entries⟩ := meets locked
      have held : Kept (named system) { b with
          ledger := recordLock user (lockEnd b.now durationSecs) answers.file b.ledger
          ends := Function.update b.ends (account system user)
            (endAt (lockEnd b.now durationSecs)) } := by
        apply kept_held kept
        · intro timer member stands
          exact endAt_le_iff.mpr (timers timer member (Option.some.inj stands))
        · intro name time found stands
          exact endAt_le_iff.mpr (entries name time found (Option.some.inj stands))
        · intro name time found other
          rcases lookup_recorded found with its | before
          · exact absurd (by rw [its]; rfl) other
          · exact before
      simp only [disableAccount, locked]
      by_cases limited : 0 < durationSecs
      · rw [if_pos limited]
        apply kept_scheduled held
        intro k stands
        have its : account system user = k := Option.some.inj stands
        subst its
        simp only [Function.update_self]
        exact endAt_le_iff.mpr (lockEnd_le b.now limited)
      · rw [if_neg limited]
        exact held

theorem enable_kept {system : System} {b : Locks} (kept : Kept (named system) b) (user : String)
    (answers : EnableAnswers) : Kept (named system) (enableAccount system user answers b).1 := by
  obtain ⟨ledger, result, among⟩ := enable_drops system user answers b
  rw [result]
  exact kept_entries kept among

theorem restart_kept {system : System} {b : Locks} (kept : Kept (named system) b)
    (answers : RestartAnswers) : Kept (named system)
      (reconcilePendingLocks system answers { b with timers := [] }) := by
  rw [reconcilePendingLocks]
  obtain ⟨ledger, result, among⟩ := enableEach_drops system answers.enable
    (due (loadPending answers.file b.ledger) b.now).1 { b with timers := [] }
  simp only [result]
  have dropped := kept_entries (kept_timers kept [] (by simp)) among
  apply kept_timers dropped
  intro timer member
  rw [List.nil_append] at member
  obtain ⟨⟨user, seconds⟩, running, rfl⟩ := List.mem_map.mp member
  obtain ⟨ends, found, left⟩ := mem_running running
  apply late_mono (kept.ledger user ends (lookup_loaded found))
  simp only
  omega

theorem lockStep_kept {system : System} {b : Locks} {action : LockAction}
    (kept : Kept (named system) b) (meets : LockMeets system b action) :
    Kept (named system) (lockStep system b action) := by
  cases action with
  | pass seconds => exact kept_later kept
  | disable user durationSecs answers => exact disable_kept kept meets
  | enable user answers => exact enable_kept kept user answers
  | restart answers => exact restart_kept kept answers
  | fire n answers =>
    rw [lockStep]
    split
    · exact kept
    · split
      · apply enable_kept
        apply kept_timers kept
        exact fun timer member => kept.timers timer (List.mem_of_mem_eraseIdx member)
      · exact kept

theorem kept_not_early {system : System} {b : Locks} (kept : Kept (named system) b)
    (action : LockAction) : NotEarly system b action := by
  cases action with
  | fire n answers =>
    intro user time found is_over _
    exact late_over (kept.timers _ (List.mem_of_getElem? found)) is_over rfl
  | restart answers =>
    intro user is_over
    obtain ⟨ends, found, passed⟩ := mem_over is_over
    exact late_over (kept.ledger user ends (lookup_loaded found)) passed rfl
  | pass seconds => trivial
  | disable user durationSecs answers => trivial
  | enable user answers => trivial

theorem not_early_along {system : System} {b : Locks} (kept : Kept (named system) b)
    (actions : List LockAction) (meets : Runs.Along (lockStep system) (LockMeets system) b actions) :
    Runs.Along (lockStep system) (NotEarly system) b actions := by
  apply Runs.along_imp (I := Kept (named system)) ?_ (fun _ _ => lockStep_kept) kept meets
  exact fun b action kept _ => kept_not_early kept action

/- A host with one account to lock, and tools that do what they are asked. -/
def aliceOnly : SystemInventory :=
  ⟨[⟨"root", "0", none, none, none, true⟩, ⟨"alice", "1000", none, none, none, true⟩], []⟩

def willing : DisableAnswers :=
  ⟨⟨aliceOnly, none, none, some "alice P", .ok ()⟩, ⟨false, .written⟩, 0⟩

def willingly : EnableAnswers := ⟨.ok (), ⟨false, .written⟩⟩

def newLocks : Locks := ⟨0, ∅, [], fun _ => ⊥⟩

theorem newLocks_kept (system : System) : Kept (named system) newLocks where
  timers := by simp [newLocks]
  ledger := by simp [newLocks]

theorem alice_locked : lockAccount .linux "alice" willing.lock = .ok true := by decide

theorem lock_ends_on_time : Runs.Along (lockStep .linux) (NotEarly .linux) newLocks
    [.disable "alice" 60 willing, .pass 60, .fire 0 willingly] := by
  apply not_early_along (newLocks_kept .linux)
  refine ⟨fun _ => ⟨by simp [newLocks], ?_⟩, trivial, trivial, trivial⟩
  intro name time found its
  rw [show name = "alice" from its] at found
  simp [recordLock, loadPending, storePending, load, store, willing] at found
  omega

theorem alice_disabled (durationSecs : Nat) (b : Locks) :
    lockStep .linux b (.disable "alice" durationSecs willing) = { b with
      ledger := b.ledger.insert "alice" (lockEnd b.now durationSecs)
      ends := Function.update b.ends "alice" (endAt (lockEnd b.now durationSecs))
      timers := if 0 < durationSecs then b.timers ++ [("alice", b.now + (0 : Nat) + durationSecs)]
        else b.timers } := by
  simp only [lockStep, disableAccount, alice_locked]
  rfl

theorem alice_enabled {b : Locks} {ends : Int} (found : b.ledger.lookup "alice" = some ends) :
    enableAccount .linux "alice" willingly b =
      ({ b with ledger := b.ledger.erase "alice" }, .ok ()) := by
  have name : isAccountName "alice" = true := by decide
  have read : loadPending willingly.file b.ledger = b.ledger := rfl
  rw [enableAccount, name, read]
  simp only [found]
  rfl

theorem alice_unlocked {b : Locks} {ends : Int} (found : b.ledger.lookup "alice" = some ends) :
    lockStep .linux b (.enable "alice" willingly) =
      { b with ledger := b.ledger.erase "alice" } := by
  rw [lockStep, alice_enabled found]

/- Locked for a minute, unlocked, locked for good: the timer of the first lock lifts the
   second one. -/
theorem stale_timer_unlocks : ¬ Runs.Along (lockStep .linux) (NotEarly .linux) newLocks
    [.disable "alice" 60 willing, .enable "alice" willingly, .disable "alice" 0 willing, .pass 60,
      .fire 0 willingly] := by
  rintro ⟨_, _, _, _, early, _⟩
  rw [alice_disabled 60 newLocks, alice_unlocked (Finmap.lookup_insert _), alice_disabled] at early
  have late := early "alice" 60 rfl (by decide)
    (by rw [alice_enabled (Finmap.lookup_insert _)])
  exact absurd late (by decide)

end SentinelAgent.Accounts
