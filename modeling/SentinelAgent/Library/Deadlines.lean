import Mathlib.Data.Int.ConditionallyCompleteOrder
import Mathlib.Order.ConditionallyCompleteLattice.Basic
import Mathlib.Order.WithBot
import SentinelAgent.Library.Maps

/-!
Things held until an end. A ledger and timers in memory say, under names, when a thing is to be
let go; two names may stand for one thing. A restart forgets the timers and sets new ones from
the ledger. `ends` is what was promised of each thing when it was last held: `⊥` nothing, `⊤` for
good. What is scheduled is kept no earlier than what was promised.
-/
namespace Deadlines
open Maps

abbrev End := WithBot (WithTop Int)

def endAt (time : Int) : End := ((time : WithTop Int) : WithBot (WithTop Int))

def forGood : End := ((⊤ : WithTop Int) : WithBot (WithTop Int))

variable {N K : Type}

structure Board (N K : Type) where
  now : Int
  ledger : Map N Int
  timers : List (N × Int)
  ends : K → End

/-- What is due under the name is due no earlier than was promised. -/
def Late (thing : N → Option K) (ends : K → End) (due : N × Int) : Prop :=
  ∀ k, thing due.1 = some k → ends k ≤ endAt due.2

structure Kept [DecidableEq N] (thing : N → Option K) (b : Board N K) : Prop where
  timers : ∀ due ∈ b.timers, Late thing b.ends due
  ledger : ∀ n time, b.ledger.lookup n = some time → Late thing b.ends (n, time)

theorem endAt_le_iff {a b : Int} : endAt a ≤ endAt b ↔ a ≤ b := by
  rw [endAt, endAt, WithBot.coe_le_coe, WithTop.coe_le_coe]

theorem late_mono {thing : N → Option K} {ends : K → End} {n : N} {time later : Int}
    (late : Late thing ends (n, time)) (after : time ≤ later) : Late thing ends (n, later) :=
  fun k stands => (late k stands).trans (endAt_le_iff.mpr after)

/-- What is let go when it is due is let go no earlier than was promised. -/
theorem late_over {thing : N → Option K} {ends : K → End} {n : N} {time now : Int} {k : K}
    (late : Late thing ends (n, time)) (is_over : time ≤ now) (stands : thing n = some k) :
    ends k ≤ endAt now :=
  late_mono late is_over k stands

theorem late_promised [DecidableEq K] {thing : N → Option K} {ends : K → End} {due : N × Int}
    {k : K} {e : End} (late : Late thing ends due)
    (held : thing due.1 = some k → e ≤ endAt due.2) :
    Late thing (Function.update ends k e) due := by
  intro k' stands
  by_cases its : k' = k
  · subst its
    rw [Function.update_self]
    exact held stands
  · rw [Function.update_of_ne its]
    exact late k' stands

/-! The file of a ledger. One that is not read counts as empty; one that is not written is as it
was, or damaged and no longer read. -/

inductive Stored where
  | written | failed | damaged
  deriving DecidableEq

structure FileAnswers where
  readFails : Bool
  stored : Stored

section File
variable [DecidableEq N]

def load (file : FileAnswers) (ledger : Map N Int) : Map N Int :=
  if file.readFails then ∅ else ledger

def store (file : FileAnswers) (before entries : Map N Int) : Map N Int :=
  match file.stored with
  | .written => entries
  | .failed => before
  | .damaged => ∅

theorem lookup_loaded {file : FileAnswers} {ledger : Map N Int} {n : N} {time : Int}
    (found : (load file ledger).lookup n = some time) : ledger.lookup n = some time := by
  rw [load] at found
  split at found
  · simp at found
  · exact found

theorem lookup_stored {file : FileAnswers} {before entries : Map N Int} {n : N} {time : Int}
    (found : (store file before entries).lookup n = some time) :
    before.lookup n = some time ∨ entries.lookup n = some time := by
  rw [store] at found
  cases stored : file.stored <;> simp only [stored] at found
  · exact Or.inr found
  · exact Or.inl found
  · simp at found

/-- Taking an entry out of the file adds none, whatever becomes of the file. -/
theorem lookup_erased {file : FileAnswers} {ledger : Map N Int} {n gone : N} {time : Int}
    (found : (store file ledger ((load file ledger).erase gone)).lookup n = some time) :
    ledger.lookup n = some time := by
  rcases lookup_stored found with before | entry
  · exact before
  · rw [lookup_erase_eq] at entry
    split at entry
    · cases entry
    · exact lookup_loaded entry

end File

section Operations
variable [DecidableEq N] {thing : N → Option K} {b : Board N K}

/-- A thing is held until an end. No timer and no entry that stands for it may be earlier; the
    other entries are those that were there. -/
theorem kept_held [DecidableEq K] {ledger : Map N Int} {k : K} {e : End} (kept : Kept thing b)
    (timers : ∀ due ∈ b.timers, thing due.1 = some k → e ≤ endAt due.2)
    (its : ∀ n time, ledger.lookup n = some time → thing n = some k → e ≤ endAt time)
    (others : ∀ n time, ledger.lookup n = some time → thing n ≠ some k →
      b.ledger.lookup n = some time) :
    Kept thing { b with ledger := ledger, ends := Function.update b.ends k e } where
  timers due member := late_promised (kept.timers due member) (timers due member)
  ledger n time found := by
    by_cases stands : thing n = some k
    · intro k' stands'
      have same : k' = k := Option.some.inj (stands'.symm.trans stands)
      change Function.update b.ends k e k' ≤ endAt time
      rw [same, Function.update_self]
      exact its n time found stands
    · exact late_promised (kept.ledger n time (others n time found stands))
        fun stands' => absurd stands' stands

theorem kept_timers (kept : Kept thing b) (timers : List (N × Int))
    (each : ∀ due ∈ timers, Late thing b.ends due) : Kept thing { b with timers := timers } where
  timers := each
  ledger := kept.ledger

theorem kept_scheduled {due : N × Int} (kept : Kept thing b) (late : Late thing b.ends due) :
    Kept thing { b with timers := b.timers ++ [due] } := by
  apply kept_timers kept _
  intro other member
  rcases List.mem_append.mp member with before | new
  · exact kept.timers other before
  · rw [List.mem_singleton.mp new]
    exact late

theorem kept_entries {ledger : Map N Int} (kept : Kept thing b)
    (among : ∀ n time, ledger.lookup n = some time → b.ledger.lookup n = some time) :
    Kept thing { b with ledger := ledger } where
  timers := kept.timers
  ledger n time found := kept.ledger n time (among n time found)

theorem kept_later {now : Int} (kept : Kept thing b) : Kept thing { b with now := now } where
  timers := kept.timers
  ledger := kept.ledger

end Operations

end Deadlines
