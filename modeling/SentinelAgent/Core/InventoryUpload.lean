import Mathlib.Algebra.Order.Ring.Int
import SentinelAgent.Sync.SystemInventory

/-!
What the agent remembers of its uploads of the inventory, and when it sends what. The texts
written to the log are left out.
-/
namespace SentinelAgent.InventoryUpload
open SentinelAgent.SystemInventory

def minute : Int := 60000000000
def wholeEvery : Int := 24 * 60 * minute
def firstRetry : Int := 10 * minute
def longestRetry : Int := 6 * 60 * minute
def answerWithin : Int := 30 * minute
def inventoryJitter : Int := minute
def u32Max : Nat := 4294967295

structure PendingInventory (H : Type) where
  upload : SystemInventoryUpload
  prints : InventoryFingerprints H
  queuedAt : Int

structure InventoryUploads (H : Type) where
  accepted : InventoryFingerprints H
  wholeAt : Option Int
  inFlight : Option Int
  failures : Nat
  retryAt : Option Int

/- Of the answer only the request for the whole is read. -/
inductive Answer where
  | ok (fullSnapshotRequired : Bool)
  | error
  deriving DecidableEq, Repr

namespace InventoryUploads

variable {H : Type}

def default : InventoryUploads H where
  accepted _ := none
  wholeAt := none
  inFlight := none
  failures := 0
  retryAt := none

def answerAwaited (uploads : InventoryUploads H) (now : Int) : Bool :=
  match uploads.inFlight with
  | some time => decide (now - time < answerWithin)
  | none => false

def retryWaits (uploads : InventoryUploads H) (now : Int) : Bool :=
  match uploads.retryAt with
  | some time => decide (now + inventoryJitter < time)
  | none => false

def wholeDue (uploads : InventoryUploads H) (now : Int) : Bool :=
  match uploads.wholeAt with
  | some time => decide (wholeEvery ≤ now + inventoryJitter - time)
  | none => true

section Next

variable [DecidableEq H] (fingerprint : (s : InventorySection) → Payload s → H)

/- The fingerprints that are not those the platform last accepted. -/
def changed (uploads : InventoryUploads H) (snapshot : SystemInventoryUpload) :
    InventoryFingerprints H :=
  fun s =>
    if uploads.accepted s = snapshot.fingerprints fingerprint s then none
    else snapshot.fingerprints fingerprint s

def isEmpty (prints : InventoryFingerprints H) : Bool :=
  InventorySection.all.all fun s => (prints s).isNone

def toSend (uploads : InventoryUploads H) (snapshot : SystemInventoryUpload) (now : Int) :
    Option (SystemInventoryUpload × InventoryFingerprints H) :=
  if uploads.wholeDue now then some (snapshot, snapshot.fingerprints fingerprint)
  else if isEmpty (uploads.changed fingerprint snapshot) then none
  else
    some (snapshot.only fun s => (uploads.changed fingerprint snapshot s).isSome,
      uploads.changed fingerprint snapshot)

def next (uploads : InventoryUploads H) (snapshot : SystemInventoryUpload) (now : Int) :
    InventoryUploads H × Option (PendingInventory H) :=
  if uploads.answerAwaited now || uploads.retryWaits now then (uploads, none)
  else
    match uploads.toSend fingerprint snapshot now with
    | none => (uploads, none)
    | some (upload, prints) =>
      ({ uploads with inFlight := some now }, some { upload, prints, queuedAt := now })

end Next

def settled (uploads : InventoryUploads H) : InventoryUploads H :=
  { uploads with inFlight := none, failures := 0, retryAt := none }

def onAccepted (uploads : InventoryUploads H) (pending : PendingInventory H) :
    InventoryUploads H :=
  if pending.upload.full then
    { uploads.settled with accepted := pending.prints, wholeAt := some pending.queuedAt }
  else
    { uploads.settled with accepted := fun s => (pending.prints s).or (uploads.accepted s) }

def wholeRequested (uploads : InventoryUploads H) : InventoryUploads H :=
  { uploads.settled with accepted := fun _ => none, wholeAt := none }

/- The wait after so many failures in a row. -/
def waitAfter (failures : Nat) : Int := min (firstRetry * 2 ^ min (failures - 1) 16) longestRetry

def failed (uploads : InventoryUploads H) (pending : PendingInventory H) : InventoryUploads H :=
  { uploads with
    inFlight := none
    failures := min (uploads.failures + 1) u32Max
    retryAt := some (pending.queuedAt + waitAfter (min (uploads.failures + 1) u32Max)) }

/- What `upload_system_inventory` does with the answer. -/
def answered (uploads : InventoryUploads H) (pending : PendingInventory H) :
    Answer → InventoryUploads H
  | .ok fullSnapshotRequired =>
    if fullSnapshotRequired && !pending.upload.full then uploads.wholeRequested
    else uploads.onAccepted pending
  | .error => uploads.failed pending

theorem waitAfter_le (failures : Nat) : waitAfter failures ≤ longestRetry := min_le_right _ _

theorem isEmpty_iff {prints : InventoryFingerprints H} :
    isEmpty prints = true ↔ ∀ s, prints s = none := by
  simp [isEmpty, InventorySection.mem_all]

section Next

variable [DecidableEq H] {fingerprint : (s : InventorySection) → Payload s → H}
  {uploads : InventoryUploads H} {snapshot : SystemInventoryUpload} {now : Int}

/-- What a call may do. -/
theorem next_cases (fingerprint : (s : InventorySection) → Payload s → H)
    (uploads : InventoryUploads H) (snapshot : SystemInventoryUpload) (now : Int) :
    (uploads.next fingerprint snapshot now = (uploads, none) ∧
      (uploads.answerAwaited now = true ∨ uploads.retryWaits now = true ∨
        (uploads.wholeDue now = false ∧
          ∀ s, uploads.changed fingerprint snapshot s = none))) ∨
    ∃ upload prints, uploads.next fingerprint snapshot now =
        ({ uploads with inFlight := some now }, some { upload, prints, queuedAt := now }) ∧
      uploads.answerAwaited now = false ∧ uploads.toSend fingerprint snapshot now =
        some (upload, prints) := by
  unfold next
  split
  · rename_i waits
    rw [Bool.or_eq_true] at waits
    exact Or.inl ⟨rfl, waits.imp_right Or.inl⟩
  · rename_i free
    rw [Bool.or_eq_true, not_or, Bool.not_eq_true, Bool.not_eq_true] at free
    cases sent : uploads.toSend fingerprint snapshot now with
    | none =>
      left
      refine ⟨rfl, Or.inr (Or.inr ?_)⟩
      unfold toSend at sent
      split at sent
      · cases sent
      · rename_i not_due
        split at sent
        · rename_i nothing
          exact ⟨by simpa using not_due, isEmpty_iff.mp nothing⟩
        · cases sent
    | some both => exact Or.inr ⟨both.1, both.2, rfl, free.1, rfl⟩

theorem changed_eq_none {s : InventorySection} {part : H}
    (carried : snapshot.fingerprints fingerprint s = some part) :
    uploads.changed fingerprint snapshot s = none ↔ uploads.accepted s = some part := by
  unfold changed
  rw [carried]
  split
  · rename_i same
    exact ⟨fun _ => same, fun _ => rfl⟩
  · rename_i other
    constructor
    · intro nothing
      cases nothing
    · intro same
      exact absurd same other

/-- What is queued is the whole or what changed of it, with its own fingerprints. -/
theorem toSend_prints {upload : SystemInventoryUpload} {prints : InventoryFingerprints H}
    (sent : uploads.toSend fingerprint snapshot now = some (upload, prints)) :
    prints = upload.fingerprints fingerprint ∧ (upload = snapshot ∨ upload.full = false) := by
  unfold toSend at sent
  split at sent
  · cases sent
    exact ⟨rfl, Or.inl rfl⟩
  · split at sent
    · cases sent
    · cases sent
      refine ⟨?_, Or.inr rfl⟩
      funext s
      rw [fingerprints_only]
      unfold changed
      split
      · rename_i same
        simp
      · rename_i other
        cases snapshot.fingerprints fingerprint s <;> rfl

end Next

end InventoryUploads

end SentinelAgent.InventoryUpload
