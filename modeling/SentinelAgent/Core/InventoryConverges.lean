import SentinelAgent.Core.InventoryUpload
import SentinelAgent.Library.Runs

/-!
The agent and the platform together. Every upload is kept, the newest first, with what the
platform did of it once it arrived and with the answer once there is one. Uploads arrive in
their order and are answered in their order; any of them may never do either, and an error may
be reported before the upload arrives.
-/
namespace SentinelAgent.InventoryUpload
open Runs SentinelAgent.SystemInventory

structure Sent (H : Type) where
  pending : PendingInventory H
  /- Whether the platform applied it. -/
  arrived : Option Bool
  answer : Option Answer

structure World (H : Type) where
  uploads : InventoryUploads H
  sent : List (Sent H)
  platform : Parts

inductive Action where
  | inventory (content : Inventory) (collectedAt now : Int)
  | arrive (i : Nat) (applied : Bool)
  | answer (i : Nat) (answer : Answer)

variable {H : Type}

/- The agent took the answer for an acceptance. -/
def Sent.accepted (e : Sent H) : Bool :=
  match e.answer with
  | some (.ok fullSnapshotRequired) => !(fullSnapshotRequired && !e.pending.upload.full)
  | _ => false

def Sent.carries (e : Sent H) (s : InventorySection) : Bool := (e.pending.upload.parts s).isSome

/- The platform says yes to what it applied, or asks for the whole. -/
def Allowed (e : Sent H) : Answer → Prop
  | .ok fullSnapshotRequired => e.arrived = some true ∨
      (fullSnapshotRequired = true ∧ e.arrived = some false)
  | .error => True

instance (e : Sent H) (a : Answer) : Decidable (Allowed e a) := by
  cases a <;> simp only [Allowed] <;> infer_instance

/- Each section sent replaces what the platform holds of it. -/
def applied (upload : SystemInventoryUpload) (platform : Parts) : Parts :=
  fun s => (upload.parts s).or (platform s)

section Step

variable [DecidableEq H] (fingerprint : (s : InventorySection) → Payload s → H)

def takeInventory (w : World H) (content : Inventory) (collectedAt now : Int) : World H :=
  match w.uploads.next fingerprint (.whole collectedAt content) now with
  | (uploads, none) => { w with uploads }
  | (uploads, some pending) =>
    { w with uploads, sent := { pending, arrived := none, answer := none } :: w.sent }

def arriveAt (w : World H) (i : Nat) (applies : Bool) : World H :=
  match w.sent[i]? with
  | some e =>
    if (w.sent.take (i + 1)).all fun newer => newer.arrived.isNone then
      { w with
        sent := w.sent.set i { e with arrived := some applies }
        platform := if applies then applied e.pending.upload w.platform else w.platform }
    else w
  | none => w

def answerAt (w : World H) (i : Nat) (a : Answer) : World H :=
  match w.sent[i]? with
  | some e =>
    if ((w.sent.take (i + 1)).all fun newer => newer.answer.isNone) ∧ Allowed e a then
      { w with
        sent := w.sent.set i { e with answer := some a }
        uploads := w.uploads.answered e.pending a }
    else w
  | none => w

def step (w : World H) : Action → World H
  | .inventory content collectedAt now => takeInventory fingerprint w content collectedAt now
  | .arrive i applies => arriveAt w i applies
  | .answer i a => answerAt w i a

def start (platform : Parts) : World H := { uploads := .default, sent := [], platform }

/- The uploads whose answer can still come. -/
def awaiting (sent : List (Sent H)) : List (Sent H) := sent.takeWhile fun e => e.answer.isNone

/- The last upload the platform applied that carries a section. -/
def lastApplied (sent : List (Sent H)) (s : InventorySection) : Option (Sent H) :=
  sent.find? fun e => decide (e.arrived = some true) && e.carries s

/-- Nothing to send, no answer to wait for, no failure to wait after: the platform is right. -/
def Converges (w : World H) : Action → Prop
  | .inventory content collectedAt now =>
    (w.uploads.next fingerprint (.whole collectedAt content) now).2 = none →
    (∀ e ∈ awaiting w.sent, answerWithin ≤ now - e.pending.queuedAt) →
    w.uploads.retryWaits now = false →
      ∀ s part, w.platform s = some part → stable s part = stable s (content s)
  | _ => True

/-- At most one upload that awaits its answer is less than half an hour old. -/
def OneAwaiting (w : World H) : Prop :=
  ∀ now : Int, ((awaiting w.sent).filter fun e =>
    decide (e.pending.queuedAt ≤ now ∧ now - e.pending.queuedAt < answerWithin)).length ≤ 1

def WaitBounded (w : World H) : Prop :=
  ∀ time, w.uploads.retryAt = some time →
    ∃ e ∈ w.sent, time ≤ e.pending.queuedAt + longestRetry

/-- No inventory finds a section as the platform last accepted it after an upload of another
    content was applied without its acceptance being heard; no answer comes after a later
    upload was queued, and the whole is not asked for in answer to a whole that was not
    applied. -/
def Heard (w : World H) : Action → Prop
  | .inventory content _ _ => ∀ s e, lastApplied w.sent s = some e → e.accepted = false →
      w.uploads.accepted s = some (print fingerprint s (content s)) →
        e.pending.prints s = some (print fingerprint s (content s))
  | .arrive _ _ => True
  | .answer i a => i = 0 ∧ ∀ e, w.sent.head? = some e → a = .ok true →
      e.pending.upload.full = true → e.arrived = some true

end Step

/-! What a step changes. -/

theorem cut_here {sent : List (Sent H)} {i : Nat} {e : Sent H} (here : sent[i]? = some e) :
    sent = sent.take i ++ e :: sent.drop (i + 1) ∧
      ∀ e' : Sent H, sent.set i e' = sent.take i ++ e' :: sent.drop (i + 1) := by
  obtain ⟨bound, there⟩ := List.getElem?_eq_some_iff.mp here
  constructor
  · rw [← there, ← List.drop_eq_getElem_cons bound, List.take_append_drop]
  · intro e'
    rw [List.set_eq_take_append_cons_drop, if_pos bound]

theorem arriveAt_cases (w : World H) (i : Nat) (applies : Bool) :
    arriveAt w i applies = w ∨ ∃ newer e older, w.sent = newer ++ e :: older ∧
      (∀ other ∈ newer, other.arrived = none) ∧ e.arrived = none ∧
      arriveAt w i applies = { w with
        sent := newer ++ { e with arrived := some applies } :: older
        platform := if applies then applied e.pending.upload w.platform else w.platform } := by
  unfold arriveAt
  split
  · rename_i e here
    split
    · rename_i all_unarrived
      have unarrived : ∀ other ∈ w.sent.take (i + 1), other.arrived = none := by
        simpa using all_unarrived
      obtain ⟨cut, put⟩ := cut_here here
      refine Or.inr ⟨w.sent.take i, e, w.sent.drop (i + 1), cut, ?_, ?_, by rw [put]⟩
      · intro other member
        exact unarrived other (List.take_subset_take_left w.sent (Nat.le_succ i) member)
      · obtain ⟨bound, there⟩ := List.getElem?_eq_some_iff.mp here
        exact unarrived e (List.mem_take_iff_getElem.mpr ⟨i, by omega, there⟩)
    · exact Or.inl rfl
  · exact Or.inl rfl

theorem answerAt_cases (w : World H) (i : Nat) (a : Answer) :
    answerAt w i a = w ∨ ∃ newer e older, w.sent = newer ++ e :: older ∧ newer.length ≤ i ∧
      Allowed e a ∧ answerAt w i a = { w with
        sent := newer ++ { e with answer := some a } :: older
        uploads := w.uploads.answered e.pending a } := by
  unfold answerAt
  split
  · rename_i e here
    split
    · rename_i both
      obtain ⟨cut, put⟩ := cut_here here
      exact Or.inr ⟨w.sent.take i, e, w.sent.drop (i + 1), cut, List.length_take_le _ _, both.2,
        by rw [put]⟩
    · exact Or.inl rfl
  · exact Or.inl rfl

theorem takeInventory_cases [DecidableEq H] (fingerprint : (s : InventorySection) → Payload s → H)
    (w : World H) (content : Inventory) (collectedAt now : Int) :
    takeInventory fingerprint w content collectedAt now = w ∨
    ∃ pending : PendingInventory H, w.uploads.answerAwaited now = false ∧ pending.queuedAt = now ∧
      pending.prints = pending.upload.fingerprints fingerprint ∧
      (pending.upload = .whole collectedAt content ∨ pending.upload.full = false) ∧
      takeInventory fingerprint w content collectedAt now = { w with
        uploads := { w.uploads with inFlight := some now }
        sent := { pending, arrived := none, answer := none } :: w.sent } := by
  unfold takeInventory
  rcases InventoryUploads.next_cases fingerprint w.uploads
    (.whole collectedAt content) now with ⟨nothing, _⟩ | ⟨upload, prints, queued, free, sent⟩
  · rw [nothing]
    exact Or.inl rfl
  · rw [queued]
    obtain ⟨same, kind⟩ := InventoryUploads.toSend_prints sent
    exact Or.inr ⟨{ upload, prints, queuedAt := now }, free, rfl, same, kind, rfl⟩

/-! The uploads that can still be answered, and the last one applied. -/

section Lists

variable {e : Sent H} {newer older sent : List (Sent H)} {s : InventorySection}

/- When what can still be answered was queued. -/
def waitingTimes (sent : List (Sent H)) : List Int :=
  (awaiting sent).map fun e => e.pending.queuedAt

theorem waitingTimes_arrive (newer older : List (Sent H)) (e : Sent H) (arrived : Option Bool) :
    waitingTimes (newer ++ { e with arrived } :: older) = waitingTimes (newer ++ e :: older) := by
  induction newer with
  | nil =>
    unfold waitingTimes awaiting
    cases unanswered : e.answer.isNone <;> simp [unanswered]
  | cons other newer ih =>
    unfold waitingTimes awaiting at ih ⊢
    cases unanswered : other.answer.isNone
    · simp [unanswered]
    · simpa [List.takeWhile_cons, unanswered] using ih

theorem waitingTimes_queue (pending : PendingInventory H) (sent : List (Sent H)) :
    waitingTimes ({ pending, arrived := none, answer := none } :: sent) =
      pending.queuedAt :: waitingTimes sent := by
  simp [waitingTimes, awaiting]

theorem waitingTimes_answer (older : List (Sent H)) (e : Sent H) (a : Answer) :
    waitingTimes ({ e with answer := some a } :: older) = [] := by
  simp [waitingTimes, awaiting]

theorem lastApplied_unarrived (unarrived : ∀ other ∈ newer, other.arrived = none) :
    lastApplied (newer ++ older) s = lastApplied older s := by
  unfold lastApplied
  rw [List.find?_append]
  have none_found : newer.find? (fun e => decide (e.arrived = some true) && e.carries s) = none := by
    rw [List.find?_eq_none]
    intro other member
    simp [unarrived other member]
  rw [none_found, Option.none_or]

theorem lastApplied_cons : lastApplied (e :: older) s =
    if e.arrived = some true ∧ e.carries s = true then some e else lastApplied older s := by
  by_cases here : e.arrived = some true ∧ e.carries s = true
  · simp [lastApplied, here]
  · rw [if_neg here]
    unfold lastApplied
    rw [List.find?_cons_of_neg]
    simpa using here

theorem lastApplied_mem (last : lastApplied sent s = some e) :
    e ∈ sent ∧ e.arrived = some true ∧ e.carries s = true := by
  have found := List.find?_some last
  rw [Bool.and_eq_true, decide_eq_true_iff] at found
  exact ⟨List.mem_of_find?_eq_some last, found⟩

end Lists

/-! What is known of the platform. -/

structure Known (fingerprint : (s : InventorySection) → Payload s → H) (w : World H) : Prop where
  prints : ∀ e ∈ w.sent, e.pending.prints = e.pending.upload.fingerprints fingerprint
  whole : ∀ e ∈ w.sent, e.pending.upload.full = true → ∀ s, e.carries s = true
  answered : ∀ e ∈ w.sent, e.accepted = true → e.arrived ≠ none
  held : ∀ s e, lastApplied w.sent s = some e → w.platform s = e.pending.upload.parts s
  complete : w.uploads.wholeAt.isSome = true → ∀ s, (lastApplied w.sent s).isSome = true
  heard : ∀ s e, lastApplied w.sent s = some e → e.accepted = true →
    w.uploads.accepted s = none ∨ w.uploads.accepted s = e.pending.prints s

/-- The agent waits for the newest upload, and those before it are each half an hour older. -/
structure OneAtATime (w : World H) : Prop where
  inFlight : w.uploads.inFlight = (waitingTimes w.sent).head?
  spaced : (waitingTimes w.sent).Pairwise fun later earlier => earlier + answerWithin ≤ later

section Steps

variable {fingerprint : (s : InventorySection) → Payload s → H} {w : World H}

theorem known_start (platform : Parts) : Known fingerprint (start platform : World H) where
  prints := by simp [start]
  whole := by simp [start]
  answered := by simp [start]
  held := by simp [start, lastApplied]
  complete := by simp [start, InventoryUploads.default]
  heard := by simp [start, lastApplied]

theorem known_queue (known : Known fingerprint w) {pending : PendingInventory H}
    (prints : pending.prints = pending.upload.fingerprints fingerprint)
    (whole : pending.upload.full = true → ∀ s, (pending.upload.parts s).isSome = true)
    (now : Int) : Known fingerprint { w with
      uploads := { w.uploads with inFlight := some now }
      sent := { pending, arrived := none, answer := none } :: w.sent } := by
  have same : ∀ s, lastApplied ({ pending, arrived := none, answer := none } :: w.sent) s =
      lastApplied w.sent s := fun s => by
    rw [lastApplied_cons, if_neg]
    simp
  constructor
  · intro e member
    rcases List.mem_cons.mp member with rfl | old
    · exact prints
    · exact known.prints e old
  · intro e member full s
    rcases List.mem_cons.mp member with rfl | old
    · exact whole full s
    · exact known.whole e old full s
  · intro e member accepted
    rcases List.mem_cons.mp member with rfl | old
    · cases accepted
    · exact known.answered e old accepted
  · intro s e last
    rw [same] at last
    exact known.held s e last
  · intro complete s
    rw [same]
    exact known.complete complete s
  · intro s e last
    rw [same] at last
    exact known.heard s e last

/-- The upload that arrives is later than all that have. -/
theorem known_arrive (known : Known fingerprint w) (i : Nat) (applies : Bool) :
    Known fingerprint (arriveAt w i applies) := by
  rcases arriveAt_cases w i applies with idle | ⟨newer, e, older, sent, unarrived, waits, after⟩
  · rw [idle]
    exact known
  rw [after]
  have member : ∀ other, other ∈ newer ++ { e with arrived := some applies } :: older →
      other ∈ w.sent ∨ other = { e with arrived := some applies } := by
    intro other there
    rw [sent]
    simp only [List.mem_append, List.mem_cons] at there ⊢
    tauto
  have here : e ∈ w.sent := by simp [sent]
  have not_accepted : e.accepted = false := by
    by_contra accepted
    exact known.answered e here (by simpa using accepted) waits
  have before : ∀ s, lastApplied w.sent s = lastApplied older s := by
    intro s
    rw [sent, lastApplied_unarrived unarrived, lastApplied_cons, if_neg (by simp [waits])]
  have last_is : ∀ s, lastApplied (newer ++ { e with arrived := some applies } :: older) s =
      if applies = true ∧ e.carries s = true then some { e with arrived := some applies }
      else lastApplied w.sent s := by
    intro s
    rw [lastApplied_unarrived unarrived, lastApplied_cons, before]
    exact if_congr (by simp [Sent.carries]) rfl rfl
  constructor
  · intro other there
    rcases member other there with old | rfl
    · exact known.prints other old
    · exact known.prints e here
  · intro other there
    rcases member other there with old | rfl
    · exact known.whole other old
    · exact known.whole e here
  · intro other there accepted
    rcases member other there with old | rfl
    · exact known.answered other old accepted
    · exact Option.some_ne_none _
  · intro s other last
    rw [last_is] at last
    by_cases carried : applies = true ∧ e.carries s = true
    · rw [if_pos carried] at last
      cases last
      obtain ⟨part, some_part⟩ := Option.isSome_iff_exists.mp carried.2
      simp [carried.1, applied, some_part]
    · rw [if_neg carried] at last
      have held := known.held s other last
      cases applies with
      | false => exact held
      | true =>
        have absent : e.pending.upload.parts s = none := by
          simpa [Sent.carries] using carried
        simpa [applied, absent] using held
  · intro complete s
    rw [last_is]
    split
    · rfl
    · exact known.complete complete s
  · intro s other last accepted
    rw [last_is] at last
    split at last
    · cases last
      rw [show ({ e with arrived := some applies } : Sent H).accepted = e.accepted from rfl,
        not_accepted] at accepted
      cases accepted
    · exact known.heard s other last accepted

/-- What the agent makes of an answer to an upload that was applied where it takes the answer
    for an acceptance. -/
theorem answered_cases (uploads : InventoryUploads H) (pending : PendingInventory H) (a : Answer) :
    ((uploads.answered pending a).accepted = uploads.accepted ∧
      (uploads.answered pending a).wholeAt = uploads.wholeAt ∧ a = .error) ∨
    ((∀ s, (uploads.answered pending a).accepted s = none) ∧
      (uploads.answered pending a).wholeAt = none ∧ a = .ok true ∧ pending.upload.full = false) ∨
    ((∀ s, (uploads.answered pending a).accepted s =
        if pending.upload.full then pending.prints s
        else (pending.prints s).or (uploads.accepted s)) ∧
      ((uploads.answered pending a).wholeAt = uploads.wholeAt ∨ pending.upload.full = true) ∧
      ∃ flag, a = .ok flag ∧ (flag = true → pending.upload.full = true)) := by
  cases a with
  | error => exact Or.inl ⟨rfl, rfl, rfl⟩
  | ok flag =>
    right
    unfold InventoryUploads.answered
    cases full : pending.upload.full <;> cases flag
    · exact Or.inr ⟨fun s => by simp [InventoryUploads.onAccepted, full],
        Or.inl (by simp [InventoryUploads.onAccepted, full, InventoryUploads.settled]),
        false, rfl, by simp⟩
    · exact Or.inl ⟨fun s => rfl, rfl, rfl, rfl⟩
    · exact Or.inr ⟨fun s => by simp [InventoryUploads.onAccepted, full], Or.inr rfl, false, rfl,
        by simp⟩
    · exact Or.inr ⟨fun s => by simp [InventoryUploads.onAccepted, full], Or.inr rfl, true, rfl,
        by simp⟩

theorem inFlight_answered (uploads : InventoryUploads H) (pending : PendingInventory H)
    (a : Answer) : (uploads.answered pending a).inFlight = none := by
  cases a with
  | error => rfl
  | ok flag =>
    unfold InventoryUploads.answered
    cases full : pending.upload.full <;> cases flag <;>
      simp [InventoryUploads.onAccepted, InventoryUploads.wholeRequested,
        InventoryUploads.settled, full]

/-- The answer to the newest upload. -/
theorem known_answer (known : Known fingerprint w) {e : Sent H} {older : List (Sent H)} {a : Answer}
    (sent : w.sent = e :: older) (allowed : Allowed e a)
    (whole_applied : a = .ok true → e.pending.upload.full = true → e.arrived = some true) :
    Known fingerprint { w with
      sent := { e with answer := some a } :: older
      uploads := w.uploads.answered e.pending a } := by
  have here : e ∈ w.sent := by simp [sent]
  have member : ∀ other, other ∈ { e with answer := some a } :: older →
      other ∈ w.sent ∨ other = { e with answer := some a } := by
    intro other there
    rw [sent, List.mem_cons]
    rcases List.mem_cons.mp there with new | old
    · exact Or.inr new
    · exact Or.inl (Or.inr old)
  have last_is : ∀ s, lastApplied ({ e with answer := some a } :: older) s =
      if e.arrived = some true ∧ e.carries s = true then some { e with answer := some a }
      else lastApplied w.sent s := by
    intro s
    have shape : lastApplied ({ e with answer := some a } :: older) s =
        if e.arrived = some true ∧ e.carries s = true then some { e with answer := some a }
        else lastApplied older s := lastApplied_cons
    rw [shape, sent, lastApplied_cons]
    split
    · rfl
    · rfl
  have last_before : ∀ s, e.arrived = some true → e.carries s = true →
      lastApplied w.sent s = some e := by
    intro s applies carries
    rw [sent, lastApplied_cons, if_pos ⟨applies, carries⟩]
  -- An upload whose answer is taken for an acceptance was applied.
  have applied_if : ({ e with answer := some a } : Sent H).accepted = true →
      e.arrived = some true := by
    intro accepted
    cases a with
    | error => cases accepted
    | ok flag =>
      rcases allowed with applies | ⟨asked, _⟩
      · exact applies
      · subst asked
        exact whole_applied rfl (by simpa [Sent.accepted] using accepted)
  constructor
  · intro other there
    rcases member other there with old | rfl
    · exact known.prints other old
    · exact known.prints e here
  · intro other there
    rcases member other there with old | rfl
    · exact known.whole other old
    · exact known.whole e here
  · intro other there accepted
    rcases member other there with old | rfl
    · exact known.answered other old accepted
    · change e.arrived ≠ none
      rw [applied_if accepted]
      exact Option.some_ne_none _
  · intro s other last
    rw [last_is] at last
    split at last
    · rename_i carried
      cases last
      exact known.held s e (last_before s carried.1 carried.2)
    · exact known.held s other last
  · intro complete s
    rw [last_is]
    split
    · rfl
    · rename_i not_carried
      rcases answered_cases w.uploads e.pending a with
        ⟨_, same, _⟩ | ⟨_, cleared, _⟩ | ⟨_, same | full, flag, rfl, only_full⟩
      · exact known.complete (by rwa [← same]) s
      · rw [cleared] at complete
        cases complete
      · exact known.complete (by rwa [← same]) s
      · have applies : e.arrived = some true := by
          apply applied_if
          cases flag <;> simp [Sent.accepted, full]
        exact absurd ⟨applies, known.whole e here full s⟩ not_carried
  · intro s other last accepted
    have prints_some : e.carries s = true → (e.pending.prints s).isSome = true := by
      intro carries
      rw [known.prints e here]
      simpa [SystemInventoryUpload.fingerprints, Sent.carries] using carries
    rw [last_is] at last
    split at last
    · rename_i carried
      cases last
      rcases answered_cases w.uploads e.pending a with
        ⟨_, _, rfl⟩ | ⟨cleared, _⟩ | ⟨taken, _⟩
      · cases accepted
      · exact Or.inl (cleared s)
      · right
        change (w.uploads.answered e.pending a).accepted s = e.pending.prints s
        rw [taken s]
        split
        · rfl
        · obtain ⟨part, some_part⟩ := Option.isSome_iff_exists.mp (prints_some carried.2)
          rw [some_part]
          rfl
    · rename_i not_carried
      rcases answered_cases w.uploads e.pending a with
        ⟨same, _⟩ | ⟨cleared, _⟩ | ⟨taken, _, flag, rfl, only_full⟩
      · change (w.uploads.answered e.pending a).accepted s = none ∨
          (w.uploads.answered e.pending a).accepted s = other.pending.prints s
        rw [same]
        exact known.heard s other last accepted
      · exact Or.inl (cleared s)
      · have applies : e.arrived = some true := by
          apply applied_if
          cases flag with
          | false => rfl
          | true => simp [Sent.accepted, only_full rfl]
        have absent : e.carries s = false := by
          by_contra carries
          exact not_carried ⟨applies, by simpa using carries⟩
        have partly : ¬ e.pending.upload.full = true := by
          intro full
          rw [known.whole e here full s] at absent
          cases absent
        have none_printed : e.pending.prints s = none := by
          rw [known.prints e here]
          simpa [SystemInventoryUpload.fingerprints, Sent.carries] using absent
        change (w.uploads.answered e.pending (.ok flag)).accepted s = none ∨
          (w.uploads.answered e.pending (.ok flag)).accepted s = other.pending.prints s
        rw [taken s, if_neg partly, none_printed, Option.none_or]
        exact known.heard s other last accepted

theorem oneAtATime_queue (one : OneAtATime w) {now : Int} (free : w.uploads.answerAwaited now = false)
    {pending : PendingInventory H} (queued : pending.queuedAt = now) : OneAtATime { w with
      uploads := { w.uploads with inFlight := some now }
      sent := { pending, arrived := none, answer := none } :: w.sent } where
  inFlight := by rw [waitingTimes_queue, queued]; rfl
  spaced := by
    rw [waitingTimes_queue, List.pairwise_cons]
    refine ⟨?_, one.spaced⟩
    intro time member
    have newest := one.inFlight
    cases times : waitingTimes w.sent with
    | nil =>
      rw [times] at member
      cases member
    | cons latest earlier =>
      have spaced := one.spaced
      rw [times] at newest member spaced
      have old_enough : answerWithin ≤ now - latest := by
        unfold InventoryUploads.answerAwaited at free
        rw [newest] at free
        simpa using free
      have half_hour : (0 : Int) ≤ answerWithin := by decide
      rw [queued]
      rcases List.mem_cons.mp member with rfl | before
      · omega
      · have apart := (List.pairwise_cons.mp spaced).1 time before
        omega

/-- The promise kept by every step of the condition. -/
theorem known_step [DecidableEq H] (a : Action) (both : Known fingerprint w ∧ OneAtATime w)
    (condition : Heard fingerprint w a) :
    Known fingerprint (step fingerprint w a) ∧ OneAtATime (step fingerprint w a) := by
  obtain ⟨known, one⟩ := both
  cases a with
  | inventory content collectedAt now =>
    rcases takeInventory_cases fingerprint w content collectedAt now with
      idle | ⟨pending, free, queued, prints, kind, after⟩
    · rw [step, idle]
      exact ⟨known, one⟩
    · rw [step, after]
      refine ⟨known_queue known prints ?_ now, oneAtATime_queue one free queued⟩
      intro full s
      rcases kind with rfl_upload | partly
      · rw [rfl_upload]
        rfl
      · rw [partly] at full
        cases full
  | arrive i applies =>
    refine ⟨known_arrive known i applies, ?_⟩
    rcases arriveAt_cases w i applies with idle | ⟨newer, e, older, sent, _, _, after⟩
    · rw [step, idle]
      exact one
    · rw [step, after]
      have same := waitingTimes_arrive newer older e (some applies)
      rw [← sent] at same
      exact ⟨by rw [same]; exact one.inFlight, by rw [same]; exact one.spaced⟩
  | answer i a =>
    obtain ⟨rfl, whole_applied⟩ := condition
    rcases answerAt_cases w 0 a with idle | ⟨newer, e, older, sent, newest, allowed, after⟩
    · rw [step, idle]
      exact ⟨known, one⟩
    · rw [List.eq_nil_of_length_eq_zero (Nat.le_zero.mp newest), List.nil_append] at sent after
      rw [step, after]
      refine ⟨known_answer known sent allowed (whole_applied e (by rw [sent]; rfl)), ?_⟩
      have none_left := waitingTimes_answer older e a
      exact ⟨by rw [none_left]; exact inFlight_answered _ _ _,
        by rw [none_left]; exact List.Pairwise.nil⟩

theorem known_run [DecidableEq H] (platform : Parts) {actions : List Action}
    (along : Along (step fingerprint) (Heard fingerprint) (start platform : World H) actions) :
    Known fingerprint (run (step fingerprint) (start platform) actions) ∧
      OneAtATime (run (step fingerprint) (start platform) actions) :=
  run_keeps (I := fun w => Known fingerprint w ∧ OneAtATime w)
    (fun _ a both condition => known_step a both condition)
    ⟨known_start platform, ⟨rfl, List.Pairwise.nil⟩⟩ along

/-- Where nothing differs from what was accepted, the last upload applied of each section holds
    what the inventory finds. -/
theorem converges_known [DecidableEq H]
    (collision_free : ∀ s, Function.Injective (fingerprint s)) (known : Known fingerprint w)
    (one : OneAtATime w) (a : Action) (condition : Heard fingerprint w a) :
    Converges fingerprint w a := by
  cases a with
  | arrive i applies => trivial
  | answer i a => trivial
  | inventory content collectedAt now =>
    intro nothing none_awaited no_wait s part holds
    rcases InventoryUploads.next_cases fingerprint w.uploads (.whole collectedAt content) now with
      ⟨_, awaited | waits | ⟨not_due, unchanged⟩⟩ | ⟨upload, prints, queued, _⟩
    · unfold InventoryUploads.answerAwaited at awaited
      rw [one.inFlight] at awaited
      unfold waitingTimes at awaited
      cases waiting : awaiting w.sent with
      | nil =>
        rw [waiting] at awaited
        cases awaited
      | cons e rest =>
        have old_enough := none_awaited e (by rw [waiting]; exact List.mem_cons_self)
        rw [waiting] at awaited
        simp only [List.map_cons, List.head?_cons, decide_eq_true_eq] at awaited
        omega
    · rw [no_wait] at waits
      cases waits
    · have accepted : w.uploads.accepted s = some (print fingerprint s (content s)) :=
        (InventoryUploads.changed_eq_none (fingerprints_whole collectedAt content)).mp (unchanged s)
      have was_whole : w.uploads.wholeAt.isSome = true := by
        cases whole : w.uploads.wholeAt with
        | some time => rfl
        | none =>
          unfold InventoryUploads.wholeDue at not_due
          rw [whole] at not_due
          cases not_due
      obtain ⟨e, last⟩ := Option.isSome_iff_exists.mp (known.complete was_whole s)
      have sent_print : e.pending.prints s = some (print fingerprint s (content s)) := by
        cases heard : e.accepted with
        | false => exact condition s e last heard accepted
        | true =>
          rcases known.heard s e last heard with cleared | same
          · rw [cleared] at accepted
            cases accepted
          · rw [← same, accepted]
      rw [known.prints e (lastApplied_mem last).1] at sent_print
      unfold SystemInventoryUpload.fingerprints at sent_print
      rw [← known.held s e last, holds, Option.map_some, Option.some.injEq] at sent_print
      exact collision_free s sent_print
    · rw [queued] at nothing
      cases nothing

theorem oneAwaiting_of (one : OneAtATime w) : OneAwaiting w := by
  intro now
  have spaced : ((awaiting w.sent).filter fun e =>
      decide (e.pending.queuedAt ≤ now ∧ now - e.pending.queuedAt < answerWithin)).Pairwise
        fun later earlier => earlier.pending.queuedAt + answerWithin ≤ later.pending.queuedAt :=
    (List.pairwise_map.mp one.spaced).filter _
  cases young : (awaiting w.sent).filter fun e =>
      decide (e.pending.queuedAt ≤ now ∧ now - e.pending.queuedAt < answerWithin) with
  | nil => exact Nat.zero_le _
  | cons later rest =>
    cases rest with
    | nil => exact Nat.le_refl _
    | cons earlier others =>
      rw [young] at spaced
      have apart := (List.pairwise_cons.mp spaced).1 earlier List.mem_cons_self
      have here : later ∈ (awaiting w.sent).filter fun e =>
          decide (e.pending.queuedAt ≤ now ∧ now - e.pending.queuedAt < answerWithin) := by
        rw [young]
        exact List.mem_cons_self
      have there : earlier ∈ (awaiting w.sent).filter fun e =>
          decide (e.pending.queuedAt ≤ now ∧ now - e.pending.queuedAt < answerWithin) := by
        rw [young]
        exact List.mem_cons_of_mem _ List.mem_cons_self
      have late := of_decide_eq_true (List.mem_filter.mp here).2
      have early := of_decide_eq_true (List.mem_filter.mp there).2
      omega

/-- Whatever the answers, the wait counts from an upload and is six hours at most. -/
theorem waitBounded_step [DecidableEq H] (w : World H) (a : Action) (bounded : WaitBounded w) :
    WaitBounded (step fingerprint w a) := by
  cases a with
  | inventory content collectedAt now =>
    rcases takeInventory_cases fingerprint w content collectedAt now with
      idle | ⟨pending, _, _, _, _, after⟩
    · rw [step, idle]
      exact bounded
    · rw [step, after]
      intro time waits
      obtain ⟨e, member, soon⟩ := bounded time waits
      exact ⟨e, List.mem_cons_of_mem _ member, soon⟩
  | arrive i applies =>
    rcases arriveAt_cases w i applies with idle | ⟨newer, e, older, sent, _, _, after⟩
    · rw [step, idle]
      exact bounded
    · rw [step, after]
      intro time waits
      obtain ⟨other, member, soon⟩ := bounded time waits
      rw [sent, List.mem_append, List.mem_cons] at member
      rcases member with before | rfl | later
      · exact ⟨other, by simp [before], soon⟩
      · exact ⟨{ other with arrived := some applies }, by simp, soon⟩
      · exact ⟨other, by simp [later], soon⟩
  | answer i a =>
    rcases answerAt_cases w i a with idle | ⟨newer, e, older, sent, _, _, after⟩
    · rw [step, idle]
      exact bounded
    · rw [step, after]
      intro time waits
      cases a with
      | error =>
        cases waits
        refine ⟨{ e with answer := some .error }, by simp, ?_⟩
        have bound := InventoryUploads.waitAfter_le (min (w.uploads.failures + 1) u32Max)
        exact Int.add_le_add_left bound _
      | ok flag =>
        have no_wait : (w.uploads.answered e.pending (.ok flag)).retryAt = none := by
          unfold InventoryUploads.answered
          cases full : e.pending.upload.full <;> cases flag <;>
            simp [InventoryUploads.onAccepted, InventoryUploads.wholeRequested,
              InventoryUploads.settled, full]
        rw [no_wait] at waits
        cases waits

/-- In every run in which the condition is met at each step. -/
theorem platform_converges [DecidableEq H] (fingerprint : (s : InventorySection) → Payload s → H)
    (collision_free : ∀ s, Function.Injective (fingerprint s)) (platform : Parts)
    (actions : List Action)
    (along : Along (step fingerprint) (Heard fingerprint) (start platform) actions) :
    Along (step fingerprint) (Converges fingerprint) (start platform) actions ∧
      OneAwaiting (run (step fingerprint) (start platform) actions) ∧
      WaitBounded (run (step fingerprint) (start platform) actions) := by
  have initial : Known fingerprint (start platform : World H) ∧
      OneAtATime (start platform : World H) :=
    ⟨known_start platform, ⟨rfl, List.Pairwise.nil⟩⟩
  refine ⟨?_, oneAwaiting_of (known_run platform along).2, ?_⟩
  · exact along_imp (I := fun w => Known fingerprint w ∧ OneAtATime w)
      (fun _ a both condition => converges_known collision_free both.1 both.2 a condition)
      (fun _ a both condition => known_step a both condition) initial along
  · exact run_invariant waitBounded_step (by simp [WaitBounded, start, InventoryUploads.default]) _

end Steps

section TwoAccounts

/- Fingerprints that differ wherever the sections do. -/
def exact (s : InventorySection) (part : Payload s) : (s : InventorySection) × Payload s := ⟨s, part⟩

theorem exact_injective (s : InventorySection) : Function.Injective (exact s) :=
  fun _ _ same => eq_of_heq (Sigma.mk.inj same).2

def account (name id : String) : InventoryUserPayload where
  name := name
  id := id
  groupId := none
  home := none
  shell := some "/bin/bash"
  canLogIn := true
  privileged := false

def withUsers (users : List InventoryUserPayload) : Inventory
  | .system =>
    { hostname := some "web-01", osName := none, osVersion := none, kernel := none
      architecture := none, manufacturer := none, model := none, serialNumber := none
      processor := none, cores := none, threads := none, memoryBytes := none, bootedAt := none }
  | .users => { items := users, total := users.length }
  | .groups => { items := [], total := 0 }
  | .services => { items := [], total := 0 }
  | .listeningPorts => { items := [], total := 0 }
  | .hotfixes => { items := [], total := 0 }
  | .containers => { items := [], total := 0 }

def alone : Inventory := withUsers [account "alice" "1000"]

def together : Inventory := withUsers [account "alice" "1000", account "backup" "1002"]

def nothingHeld : Parts := fun _ => none

/- The whole is accepted; an account appears, its upload is applied and an error reported. -/
def errorReported : List Action :=
  [.inventory alone 0 0, .arrive 0 true, .answer 0 (.ok false),
    .inventory together (10 * minute) (10 * minute), .arrive 0 true, .answer 0 .error]

/- The first upload is answered after a second one was queued. -/
def answeredLate : List Action :=
  [.inventory alone 0 0, .inventory together (30 * minute) (30 * minute), .arrive 1 true,
    .answer 1 (.ok false), .inventory together (40 * minute) (40 * minute)]

theorem platform_converges_error :
    Along (step exact) (Converges exact) (start nothingHeld)
      (errorReported ++ [.inventory together (20 * minute) (20 * minute)]) :=
  (platform_converges exact exact_injective nothingHeld _ (by
    refine ⟨?_, trivial, ⟨rfl, ?_⟩, ?_, trivial, ⟨rfl, ?_⟩, ?_, trivial⟩
    · intro s e last
      cases last
    · intro e _ asked
      cases asked
    · intro s e last not_heard
      cases s <;> cases last <;> cases not_heard
    · intro e _ asked
      cases asked
    · intro s e last not_heard _
      cases s <;> cases last <;> first | (cases not_heard; done) | decide)).1

/-- The account goes again: nothing is sent though the platform holds two. And of two uploads
    less than half an hour old both await their answer. -/
theorem platform_not_converges :
    (¬ ∀ actions, Along (step exact) (Converges exact) (start nothingHeld) actions) ∧
    ¬ ∀ actions, OneAwaiting (run (step exact) (start nothingHeld) actions) := by
  constructor
  · intro always
    obtain ⟨_, _, _, _, _, _, last, _⟩ :=
      always (errorReported ++ [.inventory alone (20 * minute) (20 * minute)])
    have wrong : stable .users (together .users) = stable .users (alone .users) :=
      last (by decide) (by decide) (by decide) .users (together .users)
        (by decide)
    exact absurd wrong (by decide)
  · intro always
    have two := always answeredLate (40 * minute)
    exact absurd two (by decide)

end TwoAccounts

end SentinelAgent.InventoryUpload
