import SentinelAgent.Response.AccountLocks

/- Calls that lock and unlock accounts while others do. Each loads the file of pending
   locks, changes what it loaded and stores it; the moves of several calls come in any
   order. A timer that fires is a call that unlocks. -/
namespace SentinelAgent.Accounts
open Deadlines Maps

/- What a call has loaded, and how many times the file had been stored by then. -/
structure Loaded where
  copy : Map String Int
  seen : Nat

/- Where a call is. `storing` keeps the new end of the account's lock, or none where the
   account was unlocked. -/
inductive Call where
  | idle
  | locking (user : String) (durationSecs : Nat)
  | unlocking (user : String) (loaded : Loaded)
  | storing (user : String) (ends : Option Int) (loaded : Loaded)

/- The file, and for each account the end of the agent's last lock, from the moment its
   call ends until the account is unlocked. -/
structure Shared where
  pending : Map String Int
  stores : Nat
  calls : Nat → Call
  locked : String → Option Int

inductive Move where
  | disable (user : String) (durationSecs : Nat) (answers : LockAnswers)
  | load (now : Int) (readFails : Bool)
  | enable (user : String) (readFails : Bool)
  | unlock (answer : Except String Unit)
  | store (stored : Stored)

def Shared.read (s : Shared) (readFails : Bool) : Loaded :=
  ⟨loadPending ⟨readFails, .written⟩ s.pending, s.stores⟩

def change (user : String) (ends : Option Int) (entries : Map String Int) : Map String Int :=
  match ends with
  | some ends => entries.insert user ends
  | none => entries.erase user

/- The account counts as locked once its end is stored. -/
def note (user : String) (ends : Option Int) (locked : String → Option Int) :
    String → Option Int :=
  match ends with
  | some ends => Function.update locked user (some ends)
  | none => locked

def Shared.put (s : Shared) (i : Nat) (call : Call) : Shared :=
  { s with calls := Function.update s.calls i call }

@[simp] theorem put_self (s : Shared) (i : Nat) (call : Call) : (s.put i call).calls i = call :=
  Function.update_self _ _ _

theorem put_other {i j : Nat} (other : j ≠ i) (s : Shared) (call : Call) :
    (s.put i call).calls j = s.calls j := Function.update_of_ne other _ _

/- One move of call number `i`. -/
def moveStep (system : System) (s : Shared) : Nat × Move → Shared
  | (i, .disable user durationSecs answers) =>
    match s.calls i, lockAccount system user answers with
    | .idle, .ok true => s.put i (.locking user durationSecs)
    | _, _ => s
  | (i, .load now readFails) =>
    match s.calls i with
    | .locking user durationSecs =>
      s.put i (.storing user (some (lockEnd now durationSecs)) (s.read readFails))
    | _ => s
  | (i, .enable user readFails) =>
    match s.calls i with
    | .idle =>
      if isAccountName user ∧ ((s.read readFails).copy.lookup user).isSome ∧
          (lockCommand system user false).isSome then
        s.put i (.unlocking user (s.read readFails))
      else s
    | _ => s
  | (i, .unlock answer) =>
    match s.calls i, answer with
    | .unlocking user loaded, .ok () =>
      { s.put i (.storing user none loaded) with locked := Function.update s.locked user none }
    | .unlocking _ _, .error _ => s.put i .idle
    | _, _ => s
  | (i, .store stored) =>
    match s.calls i with
    | .storing user ends loaded =>
      { s.put i .idle with
        pending := storePending ⟨false, stored⟩ s.pending (change user ends loaded.copy)
        stores := s.stores + 1
        locked := note user ends s.locked }
    | _ => s

/- Every lock that is not lifted is recorded with its end. -/
def Recorded (s : Shared) : Prop :=
  ∀ user ends, s.locked user = some ends → s.pending.lookup user = some ends

/- A call changes the entry of its own account only. -/
def OwnEntryOnly (system : System) (s : Shared) (move : Nat × Move) : Prop :=
  ∀ user, (moveStep system s move).pending.lookup user ≠ s.pending.lookup user →
    ∃ ends loaded, s.calls move.1 = .storing user ends loaded

def Survives (system : System) (s : Shared) (move : Nat × Move) : Prop :=
  Recorded (moveStep system s move) ∧ OwnEntryOnly system s move

/- No store of another call falls between a call's load and its store, and the file is
   read and written. -/
def Exclusive (s : Shared) : Nat × Move → Prop
  | (_, .load _ readFails) => readFails = true → s.pending = ∅
  | (i, .store stored) => ∀ user ends loaded, s.calls i = .storing user ends loaded →
      loaded.seen = s.stores ∧ stored = .written
  | _ => True

def Fresh (s : Shared) (loaded : Loaded) : Prop :=
  loaded.seen ≤ s.stores ∧ (loaded.seen = s.stores → loaded.copy = s.pending)

def CallFresh (s : Shared) : Call → Prop
  | .idle => True
  | .locking _ _ => True
  | .unlocking _ loaded => Fresh s loaded
  | .storing user ends loaded => Fresh s loaded ∧
      (ends = none → loaded.seen = s.stores → s.locked user = none)

structure Orderly (s : Shared) : Prop where
  recorded : Recorded s
  calls : ∀ i, CallFresh s (s.calls i)

theorem orderly_put {s : Shared} {i : Nat} {call : Call} (orderly : Orderly s)
    (fresh : CallFresh s call) : Orderly (s.put i call) where
  recorded := orderly.recorded
  calls j := by
    have same : CallFresh (s.put i call) = CallFresh s := by
      funext other
      cases other <;> rfl
    rw [same]
    by_cases its : j = i
    · subst its
      rw [put_self]
      exact fresh
    · rw [put_other its]
      exact orderly.calls j

theorem orderly_unlocked {s : Shared} (orderly : Orderly s) (user : String) :
    Orderly { s with locked := Function.update s.locked user none } where
  recorded other ends found := by
    by_cases its : other = user
    · subst its
      simp at found
    · exact orderly.recorded other ends (by simpa [Function.update_of_ne its] using found)
  calls j := by
    have fresh := orderly.calls j
    cases call : s.calls j with
    | idle => trivial
    | locking => trivial
    | unlocking =>
      rw [call] at fresh
      exact fresh
    | storing other ends loaded =>
      rw [call] at fresh
      refine ⟨fresh.1, ?_⟩
      intro gone seen
      by_cases its : other = user
      · subst its
        exact Function.update_self _ _ _
      · simpa only [Function.update_of_ne its] using fresh.2 gone seen

theorem lookup_change {user other : String} (ends : Option Int) (entries : Map String Int) :
    (change user ends entries).lookup other =
      if other = user then ends else entries.lookup other := by
  cases ends with
  | some ends => rw [change, lookup_insert_eq]
  | none => rw [change, lookup_erase_eq]

/- A store that no other store came before is made to the file as it is. -/
theorem orderly_stored {s : Shared} {user : String} {ends : Option Int} {i : Nat}
    (orderly : Orderly s) (lifted : ends = none → s.locked user = none) :
    Orderly { s.put i .idle with
      pending := change user ends s.pending
      stores := s.stores + 1
      locked := note user ends s.locked } where
  recorded other time found := by
    simp only [lookup_change]
    cases ends with
    | some ends =>
      by_cases its : other = user
      · subst its
        simpa [note] using found
      · rw [if_neg its]
        exact orderly.recorded other time (by simpa [note, Function.update_of_ne its] using found)
    | none =>
      by_cases its : other = user
      · subst its
        simp [note, lifted rfl] at found
      · rw [if_neg its]
        exact orderly.recorded other time found
  calls j := by
    by_cases its : j = i
    · subst its
      simp [CallFresh]
    · have fresh := orderly.calls j
      simp only [put_other its]
      cases call : s.calls j with
      | idle => trivial
      | locking => trivial
      | unlocking other loaded =>
        rw [call] at fresh
        have before := fresh.1
        constructor
        · simp only
          omega
        · intro seen
          simp only at seen
          omega
      | storing other ends' loaded =>
        rw [call] at fresh
        have before := fresh.1.1
        refine ⟨⟨by simp only; omega, ?_⟩, ?_⟩
        · intro seen
          simp only at seen
          omega
        · intro _ seen
          simp only at seen
          omega

theorem fresh_read {s : Shared} {readFails : Bool} (reads : readFails = true → s.pending = ∅) :
    Fresh s (s.read readFails) := by
  constructor
  · exact Nat.le_refl _
  · intro _
    cases readFails with
    | false => rfl
    | true => exact (reads rfl).symm

theorem moveStep_orderly {system : System} {s : Shared} {move : Nat × Move}
    (orderly : Orderly s) (exclusive : Exclusive s move) :
    Orderly (moveStep system s move) := by
  obtain ⟨i, move⟩ := move
  cases move with
  | disable user durationSecs answers =>
    simp only [moveStep]
    split
    · exact orderly_put orderly trivial
    · exact orderly
  | load now readFails =>
    simp only [moveStep]
    split
    · apply orderly_put orderly
      exact ⟨fresh_read exclusive, by simp⟩
    · exact orderly
  | enable user readFails =>
    simp only [moveStep]
    split
    · split
      · rename_i found
        apply orderly_put orderly
        apply fresh_read
        intro fails
        simp [Shared.read, loadPending, load, fails] at found
      · exact orderly
    · exact orderly
  | unlock answer =>
    simp only [moveStep]
    split
    · rename_i user loaded call
      have fresh := orderly.calls i
      rw [call] at fresh
      apply orderly_put (orderly_unlocked orderly user)
      exact ⟨fresh, fun _ _ => Function.update_self _ _ _⟩
    · exact orderly_put orderly trivial
    · exact orderly
  | store stored =>
    simp only [moveStep]
    split
    · rename_i user ends loaded call
      obtain ⟨seen, written⟩ := exclusive user ends loaded call
      have fresh := orderly.calls i
      rw [call] at fresh
      rw [written, fresh.1.2 seen]
      exact orderly_stored orderly fun none => fresh.2 none seen
    · exact orderly

theorem own_entry_only {system : System} {s : Shared} {move : Nat × Move} (orderly : Orderly s)
    (exclusive : Exclusive s move) : OwnEntryOnly system s move := by
  obtain ⟨i, move⟩ := move
  intro user changed
  cases move with
  | store stored =>
    simp only [moveStep] at changed
    split at changed
    · rename_i account ends loaded call
      obtain ⟨seen, written⟩ := exclusive account ends loaded call
      have fresh := orderly.calls i
      rw [call] at fresh
      simp only [written, fresh.1.2 seen, storePending, store, lookup_change] at changed
      by_cases its : user = account
      · subst its
        exact ⟨ends, loaded, call⟩
      · rw [if_neg its] at changed
        exact absurd rfl changed
    · exact absurd rfl changed
  | disable account durationSecs answers =>
    simp only [moveStep] at changed
    split at changed <;> exact absurd rfl changed
  | load now readFails =>
    simp only [moveStep] at changed
    split at changed <;> exact absurd rfl changed
  | enable account readFails =>
    simp only [moveStep] at changed
    split at changed
    · split at changed <;> exact absurd rfl changed
    · exact absurd rfl changed
  | unlock answer =>
    simp only [moveStep] at changed
    split at changed <;> exact absurd rfl changed

theorem survives_along {system : System} {s : Shared} (orderly : Orderly s)
    (moves : List (Nat × Move)) (exclusive : Runs.Along (moveStep system) Exclusive s moves) :
    Runs.Along (moveStep system) (Survives system) s moves := by
  apply Runs.along_imp (I := Orderly) ?_ (fun _ _ => moveStep_orderly) orderly exclusive
  intro s move orderly exclusive
  exact ⟨(moveStep_orderly orderly exclusive).recorded, own_entry_only orderly exclusive⟩

def noCalls : Shared := ⟨∅, 0, fun _ => .idle, fun _ => none⟩

theorem noCalls_orderly : Orderly noCalls where
  recorded _ _ found := by simp [noCalls] at found
  calls _ := trivial

def aliceAndBob : LockAnswers :=
  ⟨⟨[⟨"alice", "1000", none, none, none, true⟩, ⟨"bob", "1001", none, none, none, true⟩], []⟩,
    none, none, none, .ok ()⟩

theorem one_after_the_other_survives : Runs.Along (moveStep .linux) (Survives .linux) noCalls
    [(0, .disable "alice" 60 aliceAndBob), (1, .disable "bob" 60 aliceAndBob),
      (0, .load 0 false), (0, .store .written), (1, .load 0 false), (1, .store .written)] := by
  apply survives_along noCalls_orderly
  have alice : lockAccount .linux "alice" aliceAndBob = .ok true := by decide
  have bob : lockAccount .linux "bob" aliceAndBob = .ok true := by decide
  simp [Runs.Along, Exclusive, moveStep, alice, bob, noCalls, Shared.put, Shared.read]

/- Both loads before both stores: the entry of the first account is lost. -/
def loadedTogether : List (Nat × Move) :=
  [(0, .disable "alice" 60 aliceAndBob), (1, .disable "bob" 60 aliceAndBob),
    (0, .load 0 false), (1, .load 0 false), (0, .store .written), (1, .store .written)]

theorem loaded_together_loses :
    ¬ Runs.Along (moveStep .linux) (Survives .linux) noCalls loadedTogether := by
  rintro ⟨_, _, _, _, _, ⟨recorded, _⟩, _⟩
  have locked : (Runs.run (moveStep .linux) noCalls loadedTogether).locked "alice" = some 60 := by
    decide
  have lost : (Runs.run (moveStep .linux) noCalls loadedTogether).pending.lookup "alice" =
      none := by
    decide
  have found := recorded "alice" 60 locked
  exact absurd (lost.symm.trans found) (by decide)

end SentinelAgent.Accounts
