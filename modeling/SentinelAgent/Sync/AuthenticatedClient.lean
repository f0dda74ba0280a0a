import SentinelAgent.Library.Tasks

/-!
The authenticated client: a client and the credentials it was built from, cached under one lock,
and the credentials stored in the database. Requests, renewals, invalidations and enrollments
run as tasks of their own. What a task does between two of its waits (a call of the database, an
answer of the network, the lock) is one step. Times are in nanoseconds.
-/
namespace SentinelAgent.AuthenticatedClient

def renewalThresholdDays : Int := 30

/- A certificate and its private key, as the platform issues them. -/
structure Issue where
  certificate : String
  privateKey : String
  deriving DecidableEq

structure StoredCredentials where
  agentId : String
  organizationId : String
  clientCertificate : String
  clientPrivateKey : String
  hmacSecret : Option String
  certificateExpiresAt : Int
  serverFingerprints : List String
  enrolledAt : Int
  deriving DecidableEq

structure CertificateRenewalResponse where
  clientCertificate : String
  clientPrivateKey : String
  certificateExpiresAt : Int
  serverFingerprints : List String
  deriving DecidableEq

def StoredCredentials.issue (c : StoredCredentials) : Issue :=
  { certificate := c.clientCertificate, privateKey := c.clientPrivateKey }

def CertificateRenewalResponse.issue (r : CertificateRenewalResponse) : Issue :=
  { certificate := r.clientCertificate, privateKey := r.clientPrivateKey }

def StoredCredentials.isCertificateExpired (c : StoredCredentials) (now : Int) : Bool :=
  decide (c.certificateExpiresAt ≤ now)

def StoredCredentials.certificateExpiresWithin (c : StoredCredentials) (now days : Int) : Bool :=
  decide (c.certificateExpiresAt ≤ now + days * 86400000000000)

/-! The repository. Its rows are all there or all absent: they are written in one transaction
and deleted by one statement. A secret that is absent is stored as the empty text. -/

def StoredCredentials.stored (c : StoredCredentials) : StoredCredentials :=
  { c with hmacSecret := c.hmacSecret.filter (· ≠ "") }

/- The three rows of the certificate, or an error where there is none. -/
def updateCertificate (r : CertificateRenewalResponse) (db : Option StoredCredentials) :
    Option StoredCredentials :=
  db.map fun c =>
    { c with
      clientCertificate := r.clientCertificate
      clientPrivateKey := r.clientPrivateKey
      certificateExpiresAt := r.certificateExpiresAt }

def updateServerFingerprints (fingerprints : List String) (db : Option StoredCredentials) :
    Option StoredCredentials :=
  db.map fun c => { c with serverFingerprints := fingerprints }

/-! The client a task speaks with. -/

structure HttpClient where
  identity : Option Issue
  authCertificate : Option String
  organizationId : Option String
  mtlsEnabled : Bool
  signingSecret : Option String
  deriving DecidableEq

def HttpClient.withMtls (organizationId certificate privateKey : String) : HttpClient where
  identity := some { certificate := certificate, privateKey := privateKey }
  authCertificate := none
  organizationId := some organizationId
  mtlsEnabled := true
  signingSecret := none

def HttpClient.withHeaderAuth (organizationId certificate : String) : HttpClient where
  identity := none
  authCertificate := some certificate
  organizationId := some organizationId
  mtlsEnabled := false
  signingSecret := none

def HttpClient.setSigningSecret (client : HttpClient) (secret : Option String) : HttpClient :=
  { client with signingSecret := secret }

/- `mtls` is whether the certificate and the key are taken for an identity. -/
def StoredCredentials.client (c : StoredCredentials) (mtls : Bool) : HttpClient :=
  let client :=
    if mtls then
      HttpClient.withMtls c.organizationId c.clientCertificate c.clientPrivateKey
    else HttpClient.withHeaderAuth c.organizationId c.clientCertificate
  client.setSigningSecret c.hmacSecret

/-! The tasks. -/

/- What the credentials or the client are asked for: to read a field, for a request, for
   `needs_renewal` and `certificate_expires_at` of `check_and_renew_if_needed`, for a renewal. -/
inductive Purpose where
  | read | request | check | expiry | renewal
  deriving DecidableEq

/- What a task does next. -/
inductive Call where
  -- `ensure_credentials`: the cache, then the database
  | ensure (purpose : Purpose)
  | load (purpose : Purpose)
  -- `get_client`: the cache; `refresh_client`: the database, then the cache
  | getClient (purpose : Purpose)
  | refresh (purpose : Purpose)
  | keep (purpose : Purpose) (client : HttpClient) (credentials : StoredCredentials)
  -- the request itself; for a renewal, its answer and what is done with it
  | send (purpose : Purpose) (client : HttpClient)
  | update (answer : CertificateRenewalResponse)
  | fingerprints (answer : List String)
  | invalidate
  -- an enrollment; `again` is whether it clears first and invalidates last
  | ensureEnrolled
  | clear (again : Bool)
  | enroll (again : Bool)
  | store (again : Bool) (credentials : StoredCredentials)
  deriving DecidableEq

/- What happens at a step: it is done, it fails (the task then ends), or the platform answers.
   An answer that is lost is one whose task fails at its next step. -/
inductive Event where
  | done (now : Int) (mtls : Bool)
  | fails
  | issues (answer : CertificateRenewalResponse)
  | enrolls (credentials : StoredCredentials)
  deriving DecidableEq

/- `issued` is what the platform has issued, the last first. -/
structure Shared where
  db : Option StoredCredentials
  client : Option HttpClient
  credentials : Option StoredCredentials
  lastRefresh : Option Int
  issued : List Issue
  deriving DecidableEq

/- What a task does with the credentials it asked for. -/
def Purpose.then (now : Int) (c : StoredCredentials) : Purpose → Option Call
  | .read => none
  | .request => some (.getClient .request)
  | .check =>
    if c.certificateExpiresWithin now renewalThresholdDays then some (.ensure .expiry) else none
  | .expiry => some (.ensure .renewal)
  | .renewal => some (.getClient .renewal)

def Shared.getClient (s : Shared) (now : Int) (purpose : Purpose) : Call :=
  match s.client, s.credentials with
  | some client, some c =>
    if c.isCertificateExpired now then .refresh purpose else .send purpose client
  | _, _ => .refresh purpose

def Shared.refresh (s : Shared) (now : Int) (mtls : Bool) (purpose : Purpose) : Option Call :=
  match s.db with
  | some c => if c.isCertificateExpired now then none else some (.keep purpose (c.client mtls) c)
  | none => none

def Shared.invalidated (s : Shared) : Shared :=
  { s with client := none, credentials := none, lastRefresh := none }

/- What follows the update of the certificate. -/
def CertificateRenewalResponse.updated (r : CertificateRenewalResponse) : Call :=
  if r.serverFingerprints.isEmpty then .invalidate else .fingerprints r.serverFingerprints

/- A step that is done. -/
def Call.done (s : Shared) (now : Int) (mtls : Bool) : Call → Shared × Option Call
  | .ensure purpose =>
    match s.credentials with
    | some c => (s, purpose.then now c)
    | none => (s, some (.load purpose))
  | .load purpose =>
    match s.db with
    | some c => (s, purpose.then now c)
    | none => (s, none)
  | .getClient purpose => (s, some (s.getClient now purpose))
  | .refresh purpose => (s, s.refresh now mtls purpose)
  | .keep purpose client c =>
    ({ s with client := some client, credentials := some c, lastRefresh := some now },
      some (.send purpose client))
  -- a renewal waits for its answer
  | .send purpose client =>
    (s, if purpose = .renewal then some (.send purpose client) else none)
  | .update r =>
    match updateCertificate r s.db with
    | some c => ({ s with db := some c }, some r.updated)
    | none => (s, none)
  | .fingerprints answer =>
    match updateServerFingerprints answer s.db with
    | some c => ({ s with db := some c }, some .invalidate)
    | none => (s, none)
  | .invalidate => (s.invalidated, none)
  | .ensureEnrolled =>
    match s.db with
    | some _ => (s, none)
    | none => (s, some (.enroll false))
  | .clear again => ({ s with db := none }, if again then some (.enroll true) else none)
  | .enroll again => (s, some (.enroll again))
  | .store again c => ({ s with db := some c.stored }, if again then some .invalidate else none)

def Call.step (s : Shared) (call : Call) : Event → Shared × Option Call
  | .done now mtls => call.done s now mtls
  | .fails => (s, none)
  | .issues r =>
    match call with
    | .send .renewal _ => ({ s with issued := r.issue :: s.issued }, some (.update r))
    | _ => (s, some call)
  | .enrolls c =>
    match call with
    | .enroll again => ({ s with issued := c.issue :: s.issued }, some (.store again c))
    | _ => (s, some call)

/- The calls a task begins with. -/
def Call.begins : Call → Bool
  | .ensure _ | .getClient .request | .invalidate | .ensureEnrolled | .clear _ => true
  | _ => false

abbrev State := Tasks.State Shared Call

abbrev Act := Tasks.Act Call Event

def State.step : State → Act → State := Tasks.next Call.begins Call.step

/- A start of the agent. -/
def State.start (db : Option StoredCredentials) (issued : List Issue) : State where
  shared :=
    { db := db, client := none, credentials := none, lastRefresh := none, issued := issued }
  calls := []

end SentinelAgent.AuthenticatedClient
