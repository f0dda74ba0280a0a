import SentinelAgent.Library.Runs
import SentinelAgent.Storage.SyncQueue

/-!
How the agent reports security incidents. The outbox sends an incident at once or, when the
platform does not answer, keeps it in the queue; a flush sends what is queued. A flush reads a
batch and posts one item after the other, and anything may happen between two posts. The
platform's answers, the clock and the answers of the database are arguments.
-/
namespace SentinelAgent.Core
open AutoTables Storage

inductive CommonError where
  | config (message : String)
  | io (message : String)
  | serialization (message : String)
  | validation (message : String)
  | network (message : String)
  | wrapped (context message : String)
  | system (message : String)
  | notSupported (message : String)
  | internal (message : String)
  | auth (message : String)
  deriving DecidableEq, Repr

def CommonError.display : CommonError → String
  | config message => s!"configuration error: {message}"
  | io message => s!"I/O error: {message}"
  | serialization message => s!"serialization error: {message}"
  | validation message => s!"validation error: {message}"
  | network message => s!"network error: {message}"
  | wrapped context message => s!"{context}: {message}"
  | system message => s!"system error: {message}"
  | notSupported message => s!"not supported: {message}"
  | internal message => s!"internal error: {message}"
  | auth message => s!"authentication error: {message}"

/-! The incident and the object the platform expects. -/

inductive IncidentType where
  | malware | suspiciousProcess | unauthorizedChange | dataExfiltration | cryptoMiner
  | reverseShell | credentialTheft | privilegeEscalation | firewallDisabled | antivirusDisabled
  deriving DecidableEq, Repr

def IncidentType.display : IncidentType → String
  | malware => "malware"
  | suspiciousProcess => "suspicious_process"
  | unauthorizedChange => "unauthorized_change"
  | dataExfiltration => "data_exfiltration"
  | cryptoMiner => "crypto_miner"
  | reverseShell => "reverse_shell"
  | credentialTheft => "credential_theft"
  | privilegeEscalation => "privilege_escalation"
  | firewallDisabled => "firewall_disabled"
  | antivirusDisabled => "antivirus_disabled"

inductive IncidentSeverity where
  | critical | high | medium | low
  deriving DecidableEq, Repr

def IncidentSeverity.display : IncidentSeverity → String
  | critical => "critical"
  | high => "high"
  | medium => "medium"
  | low => "low"

instance byte_neZero : NeZero (256 : Nat) := ⟨by decide⟩

structure SecurityIncident (J : Type) where
  incidentType : IncidentType
  severity : IncidentSeverity
  title : String
  description : String
  evidence : J
  confidence : Fin 256
  detectedAt : Int

/-- JSON values and the time format, which libraries provide. What is written can be read. -/
structure JsonFormat (J : Type) where
  string : String → J
  number : Nat → J
  object : List (String × J) → J
  toText : J → String
  fromText : String → Except String J
  toRfc3339 : Int → String
  reads : ∀ v, ∃ w, fromText (toText v) = .ok w

variable {J : Type}

def incidentPayload (f : JsonFormat J) (incident : SecurityIncident J) : J :=
  f.object
    [("incident_type", f.string incident.incidentType.display),
      ("severity", f.string incident.severity.display),
      ("title", f.string incident.title),
      ("description", f.string incident.description),
      ("evidence", incident.evidence),
      ("confidence", f.number incident.confidence),
      ("detected_at", f.string (f.toRfc3339 incident.detectedAt))]

/-! Reporting. -/

def incidentUploadTimeout : Nat := 5
def incidentUploadPauseSecs : Nat := 60
def incidentQueuePriority : Int := 10
def incidentFlushBatch : Nat := 20

/-- What comes of one post. -/
inductive PostAnswer where
  | noClient
  | notEnrolled
  | timedOut
  | refused (error : CommonError)
  | response (incidentId : Option String)
  deriving DecidableEq, Repr

def postIncident : PostAnswer → Except CommonError String
  | .noClient => .error (.config "API client not initialized")
  | .notEnrolled => .error (.config "Agent not enrolled")
  | .timedOut => .error (.network s!"no answer within {incidentUploadTimeout}s")
  | .refused error => .error error
  | .response incidentId => .ok (incidentId.getD "unknown")

/-- How an incident was handled. Callers see only that it was. -/
inductive Receipt where
  | standalone
  | direct (payload : String)
  | queued (row : Nat) (payload : String)
  deriving DecidableEq, Repr

def Receipt.of (item : SyncQueueItem) : Receipt := .queued item.id item.payload

/-- `accepted` lists what `uploadIncident` returned `Ok` for, `delivered` what the platform
    took. -/
structure State where
  standalone : Bool
  db : Option SyncQueue
  resumeAt : Nat
  flushing : List SyncQueueItem
  accepted : List Receipt
  delivered : List Receipt

def uploadsSuspended (s : State) (now : Nat) : Bool := decide (now < s.resumeAt)

def suspendUploads (s : State) (now : Nat) : State :=
  { s with resumeAt := now + incidentUploadPauseSecs }

def incidentEntry (uuid payload : String) : SyncQueueEntry :=
  (SyncQueueEntry.new .incident uuid payload).withPriority incidentQueuePriority

/-- `refusal` is the error of the database, if it refuses the statement. -/
def keepIncidentForRetry (s : State) (now : Nat) (uuid payload : String)
    (refusal : Option String) : State × Except CommonError Receipt :=
  match s.db with
  | none => (s, .error (.config "no local database"))
  | some q =>
    match refusal with
    | some error => (s, .error (.internal error))
    | none =>
      let stored := enqueue q now (incidentEntry uuid payload)
      ({ s with db := some stored.1 }, .ok (.queued stored.2 payload))

/-- The outcome when the incident was not delivered because of `failure`. -/
def keepOrFail (s : State) (now : Nat) (uuid payload : String) (refusal : Option String)
    (failure : CommonError) : State × Except CommonError Receipt :=
  match keepIncidentForRetry s now uuid payload refusal with
  | (s', .ok receipt) => (s', .ok receipt)
  | (s', .error _) => (s', .error failure)

structure Report (J : Type) where
  incident : SecurityIncident J
  uuid : String
  asked : Nat
  answered : Nat
  answer : PostAnswer
  refusal : Option String

def uploadIncident (f : JsonFormat J) (s : State) (r : Report J) :
    State × Except CommonError Receipt :=
  if s.standalone then (s, .ok .standalone)
  else
    let payload := f.toText (incidentPayload f r.incident)
    if uploadsSuspended s r.asked then
      keepOrFail s r.answered r.uuid payload r.refusal
        (.network "platform unreachable a moment ago")
    else
      match postIncident r.answer with
      | .ok _ =>
        ({ s with delivered := s.delivered ++ [.direct payload] }, .ok (.direct payload))
      | .error e =>
        keepOrFail (suspendUploads s r.answered) r.answered r.uuid payload r.refusal e

def report (f : JsonFormat J) (s : State) (r : Report J) : State :=
  match uploadIncident f s r with
  | (s', .ok receipt) => { s' with accepted := s'.accepted ++ [receipt] }
  | (s', .error _) => s'

/-! The flush. -/

def flushBegin (s : State) (now : Nat) (refusal : Option String) : State :=
  if s.standalone then s
  else
    match s.db, s.flushing, refusal with
    | some q, [], none =>
      { s with flushing := getPendingFor q now .incident incidentFlushBatch }
    | _, _, _ => s

def outcome (f : JsonFormat J) (item : SyncQueueItem) (answer : PostAnswer) :
    Except CommonError Unit :=
  match f.fromText item.payload with
  | .ok _ => (postIncident answer).map (fun _ => ())
  | .error e => .error (.internal s!"unreadable payload: {e}")

/-- A change of the queue whose refusal is only logged. -/
def orLog (s : State) (refusal : Option String) (change : SyncQueue → SyncQueue) : State :=
  match refusal with
  | none => { s with db := s.db.map change }
  | some _ => s

/-- One turn of the loop over the batch. The first failure ends it. -/
def flushPost (f : JsonFormat J) (s : State) (now : Nat) (answer : PostAnswer)
    (refusal : Option String) : State :=
  match s.flushing with
  | [] => s
  | item :: rest =>
    match outcome f item answer with
    | .ok _ =>
      { orLog s refusal (fun q => remove q [item.id]) with
        delivered := s.delivered ++ [.of item]
        flushing := rest }
    | .error e =>
      { orLog (suspendUploads s now) refusal
          (fun q => noteFailure q now item.id e.display) with
        flushing := [] }

/-! The system: reports, flushes, and what other tasks do to the queue. They enqueue, remove
    and postpone rows of their own types, and they enforce the limits. A deletion of a record
inserts its row whatever the size of the queue. -/

inductive Action (J : Type) where
  | report (r : Report J)
  | flushBegin (now : Nat) (refusal : Option String)
  | flushPost (now : Nat) (answer : PostAnswer) (refusal : Option String)
  | enqueueOther (now : Nat) (entry : SyncQueueEntry)
  | insertOther (now : Nat) (entry : SyncQueueEntry)
  | otherDelivered (row : Nat)
  | otherFailed (now row : Nat) (error : String)
  | enforceQueueLimit
  | purgeFailed
  | restart

def isOther (q : SyncQueue) (row : Nat) : Bool :=
  match q.find row with
  | none => false
  | some r => decide (r.entityType ≠ .incident)

def onQueue (s : State) (change : SyncQueue → SyncQueue) : State :=
  { s with db := s.db.map change }

def step (f : JsonFormat J) (s : State) : Action J → State
  | .report r => report f s r
  | .flushBegin now refusal => flushBegin s now refusal
  | .flushPost now answer refusal => flushPost f s now answer refusal
  | .enqueueOther now entry =>
    if entry.entityType = .incident then s else onQueue s (fun q => (enqueue q now entry).1)
  | .insertOther now entry =>
    if entry.entityType = .incident then s else onQueue s (·.insert (entryItem now entry))
  | .otherDelivered row => onQueue s (fun q => if isOther q row then remove q [row] else q)
  | .otherFailed now row error =>
    onQueue s (fun q => if isOther q row then noteFailure q now row error else q)
  | .enforceQueueLimit => onQueue s enforceQueueLimit
  | .purgeFailed => onQueue s purgeFailed
  | .restart => { s with flushing := [], resumeAt := 0 }

/-- A platform agent with a new database or with none. -/
def Initial (s : State) : Prop :=
  s.standalone = false ∧ (s.db = none ∨ s.db = some (AutoTable.empty _)) ∧
    s.flushing = [] ∧ s.accepted = [] ∧ s.delivered = []

/-! What one call does. -/

/-- The report goes to the queue: it is not sent, or it is refused. -/
def Queues (s : State) (r : Report J) : Prop :=
  s.standalone = false ∧ r.refusal = none ∧
    (uploadsSuspended s r.asked = true ∨ ∃ e, postIncident r.answer = .error e)

variable {f : JsonFormat J} {s : State}

theorem keepOrFail_cases (s : State) (now : Nat) (uuid payload : String)
    (refusal : Option String) (failure : CommonError) :
    (∃ q, s.db = some q ∧ refusal = none ∧
      keepOrFail s now uuid payload refusal failure =
        ({ s with db := some (enqueue q now (incidentEntry uuid payload)).1 },
          .ok (.queued q.next payload))) ∨
    keepOrFail s now uuid payload refusal failure = (s, .error failure) := by
  unfold keepOrFail keepIncidentForRetry
  cases s.db with
  | none => exact Or.inr rfl
  | some q =>
    cases refusal with
    | some error => exact Or.inr rfl
    | none =>
      refine Or.inl ⟨q, rfl, rfl, ?_⟩
      simp only [enqueue, next_makeRoom]

theorem report_cases (f : JsonFormat J) (r : Report J) (platform : s.standalone = false) :
    (∃ payload, report f s r =
      { s with
        accepted := s.accepted ++ [.direct payload]
        delivered := s.delivered ++ [.direct payload] }) ∨
    (∃ q resumeAt, s.db = some q ∧ Queues s r ∧ report f s r =
      { s with
        db := some (enqueue q r.answered
          (incidentEntry r.uuid (f.toText (incidentPayload f r.incident)))).1
        resumeAt := resumeAt
        accepted := s.accepted ++ [.queued q.next (f.toText (incidentPayload f r.incident))] }) ∨
    ∃ resumeAt, report f s r = { s with resumeAt := resumeAt } := by
  unfold report uploadIncident
  rw [if_neg (by simp [platform])]
  cases suspended : uploadsSuspended s r.asked with
  | true =>
    simp only [↓reduceIte]
    rcases keepOrFail_cases s r.answered r.uuid (f.toText (incidentPayload f r.incident))
      r.refusal (.network "platform unreachable a moment ago")
      with ⟨q, opened, taken, result⟩ | result
    · rw [result]
      exact Or.inr (Or.inl ⟨q, s.resumeAt, opened, ⟨platform, taken, Or.inl suspended⟩, rfl⟩)
    · rw [result]
      exact Or.inr (Or.inr ⟨s.resumeAt, rfl⟩)
  | false =>
    simp only [Bool.false_eq_true, ↓reduceIte]
    cases answered : postIncident r.answer with
    | ok id => exact Or.inl ⟨_, rfl⟩
    | error e =>
      simp only
      rcases keepOrFail_cases (suspendUploads s r.answered) r.answered r.uuid
        (f.toText (incidentPayload f r.incident)) r.refusal e
        with ⟨q, opened, taken, result⟩ | result
      · rw [result]
        exact Or.inr (Or.inl ⟨q, _, opened, ⟨platform, taken, Or.inr ⟨e, answered⟩⟩, rfl⟩)
      · rw [result]
        exact Or.inr (Or.inr ⟨_, rfl⟩)

/-- A turn of the flush: its item is delivered, or the flush ends with a failure noted. -/
theorem flushPost_cases (f : JsonFormat J) (s : State) (now : Nat) (answer : PostAnswer)
    (refusal : Option String) :
    (s.flushing = [] ∧ flushPost f s now answer refusal = s) ∨
    ∃ item rest, s.flushing = item :: rest ∧
      ((outcome f item answer = .ok () ∧ flushPost f s now answer refusal =
          { orLog s refusal (fun q => remove q [item.id]) with
            delivered := s.delivered ++ [.of item]
            flushing := rest }) ∨
        ∃ e, outcome f item answer = .error e ∧ flushPost f s now answer refusal =
          { orLog (suspendUploads s now) refusal
              (fun q => noteFailure q now item.id e.display) with
            flushing := [] }) := by
  unfold flushPost
  cases batch : s.flushing with
  | nil => exact Or.inl ⟨rfl, rfl⟩
  | cons item rest =>
    refine Or.inr ⟨item, rest, rfl, ?_⟩
    simp only
    cases posted : outcome f item answer with
    | ok _ => exact Or.inl ⟨rfl, rfl⟩
    | error e => exact Or.inr ⟨e, rfl, rfl⟩

/-! What the steps do to the queue: rows keep what they say, and a new row of an incident is
    one that a report wrote. -/

structure Written (f : JsonFormat J) (r : SyncQueueItem) : Prop where
  payload : ∃ v, r.payload = f.toText v
  priority : r.priority = incidentQueuePriority
  maxAttempts : r.maxAttempts = defaultMaxAttempts

theorem Written.same {a b : SyncQueueItem} (written : Written f b) (same : SameRequest a b) :
    Written f a :=
  ⟨by rw [same.payload]; exact written.payload, same.priority.trans written.priority,
    same.maxAttempts.trans written.maxAttempts⟩

structure Grows (f : JsonFormat J) (q q' : SyncQueue) : Prop where
  evolves : Evolves q q'
  written : ∀ r ∈ q', r.entityType = .incident →
    (∃ old ∈ q, SameRequest r old) ∨ Written f r

theorem grows_refl (f : JsonFormat J) (q : SyncQueue) : Grows f q q :=
  ⟨evolves_refl q, fun r mem _ => Or.inl ⟨r, mem, SameRequest.rfl⟩⟩

theorem grows_of_subset {q q' : SyncQueue} (next : q'.next = q.next)
    (subset : ∀ r ∈ q', r ∈ q) : Grows f q q' :=
  ⟨evolves_of_subset next subset, fun r mem _ => Or.inl ⟨r, subset r mem, SameRequest.rfl⟩⟩

theorem grows_remove (q : SyncQueue) (ids : List Nat) : Grows f q (remove q ids) :=
  grows_of_subset (next_remove q ids) (fun _ mem => (mem_remove.mp mem).1)

theorem grows_noteFailure (q : SyncQueue) (now id : Nat) (message : String) :
    Grows f q (noteFailure q now id message) := by
  refine ⟨evolves_noteFailure q now id message, fun r mem _ => ?_⟩
  obtain ⟨old, member, same, _⟩ := noteFailure_origin mem
  exact Or.inl ⟨old, member, same⟩

theorem grows_enqueue {q : SyncQueue} {now : Nat} {e : SyncQueueEntry}
    (entry : e.entityType = .incident → ∀ n, Written f ((entryItem now e).make n)) :
    Grows f q (enqueue q now e).1 := by
  refine ⟨evolves_enqueue q now e, fun r mem incident => ?_⟩
  rcases mem_enqueue.mp mem with old | rfl
  · exact Or.inl ⟨r, makeRoom_subset old, SameRequest.rfl⟩
  · exact Or.inr (entry incident _)

theorem written_incidentEntry (f : JsonFormat J) (v : J) (uuid : String) (now n : Nat) :
    Written f ((entryItem now (incidentEntry uuid (f.toText v))).make n) :=
  ⟨⟨v, rfl⟩, rfl, by
    change min defaultMaxAttempts i32Max = defaultMaxAttempts
    decide⟩

theorem onQueue_grows {change : SyncQueue → SyncQueue} (grows : ∀ q, Grows f q (change q))
    {q : SyncQueue} (opened : s.db = some q) :
    ∃ q', (onQueue s change).db = some q' ∧ Grows f q q' :=
  ⟨change q, by simp [onQueue, opened], grows q⟩

theorem orLog_grows {change : SyncQueue → SyncQueue} {refusal : Option String}
    (grows : ∀ q, Grows f q (change q)) {q : SyncQueue} (opened : s.db = some q) :
    ∃ q', (orLog s refusal change).db = some q' ∧ Grows f q q' := by
  cases refusal with
  | none => exact onQueue_grows grows opened
  | some error => exact ⟨q, opened, grows_refl f q⟩

theorem step_grows (f : JsonFormat J) (s : State) (a : Action J)
    (platform : s.standalone = false) {q : SyncQueue} (opened : s.db = some q) :
    ∃ q', (step f s a).db = some q' ∧ Grows f q q' := by
  cases a with
  | report r =>
    rcases report_cases f r platform with
      ⟨payload, result⟩ | ⟨q', resumeAt, same, _, result⟩ | ⟨resumeAt, result⟩
    · exact ⟨q, by rw [step, result, opened], grows_refl f q⟩
    · rw [opened] at same
      cases same
      refine ⟨_, by rw [step, result], grows_enqueue fun _ n => ?_⟩
      exact written_incidentEntry f _ r.uuid r.answered n
    · exact ⟨q, by rw [step, result, opened], grows_refl f q⟩
  | flushBegin now refusal =>
    have same : (flushBegin s now refusal).db = s.db := by
      unfold flushBegin
      split
      · rfl
      · split
        · rename_i _ _ _ open' _
          exact open'.symm ▸ rfl
        · rfl
    exact ⟨q, same.trans opened, grows_refl f q⟩
  | flushPost now answer refusal =>
    rcases flushPost_cases f s now answer refusal with
      ⟨_, result⟩ | ⟨item, rest, _, ⟨_, result⟩ | ⟨e, _, result⟩⟩
    · exact ⟨q, by rw [step, result, opened], grows_refl f q⟩
    · rw [step, result]
      exact orLog_grows (fun q => grows_remove q [item.id]) opened
    · rw [step, result]
      exact orLog_grows (s := suspendUploads s now)
        (fun q => grows_noteFailure q now item.id e.display) opened
  | enqueueOther now entry =>
    simp only [step]
    split
    · exact ⟨q, opened, grows_refl f q⟩
    · rename_i other
      exact onQueue_grows (fun q => grows_enqueue fun incident => absurd incident other) opened
  | insertOther now entry =>
    simp only [step]
    split
    · exact ⟨q, opened, grows_refl f q⟩
    · rename_i other
      refine onQueue_grows (fun q => ⟨evolves_insert q _, fun r mem incident => ?_⟩) opened
      rcases AutoTable.mem_insert.mp mem with old | rfl
      · exact Or.inl ⟨r, old, SameRequest.rfl⟩
      · exact absurd incident other
  | otherDelivered row =>
    refine onQueue_grows (fun q => ?_) opened
    split
    · exact grows_remove q [row]
    · exact grows_refl f q
  | otherFailed now row error =>
    refine onQueue_grows (fun q => ?_) opened
    split
    · exact grows_noteFailure q now row error
    · exact grows_refl f q
  | enforceQueueLimit =>
    exact onQueue_grows (fun q => grows_of_subset (next_enforceQueueLimit q)
      (fun _ mem => enforceQueueLimit_subset mem)) opened
  | purgeFailed =>
    exact onQueue_grows (fun q => grows_of_subset (next_purgeFailed q)
      (fun _ mem => (mem_purgeFailed.mp mem).1)) opened
  | restart => exact ⟨q, opened, grows_refl f q⟩

end SentinelAgent.Core
