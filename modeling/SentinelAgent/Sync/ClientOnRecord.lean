import SentinelAgent.Sync.AuthenticatedClient

/-!
Whether the client speaks with the credentials on record once all calls have ended. It does in
the runs in which whoever leaves an outdated client in the cache has someone after it who still
clears the cache, and whoever leaves an earlier certificate in the database has someone after it
who still stores the last.
-/
namespace SentinelAgent.AuthenticatedClient

open Runs

/-- What is cached, if anything, is what is stored, and the certificate and the key stored were
    issued together, and last. -/
structure OnRecord (s : Shared) : Prop where
  client : ∀ client, s.client = some client → ∃ c mtls, s.db = some c ∧ client = c.client mtls
  credentials : ∀ c, s.credentials = some c → s.db = some c
  together : ∀ c, s.db = some c → c.issue ∈ s.issued
  last : ∀ c, s.db = some c → s.issued.head? = some c.issue

/-! What is looked at. -/

def StoredCredentials.speaks (c : StoredCredentials) (client : HttpClient) : Bool :=
  client == c.client true || client == c.client false

/- Whether the cache holds nothing else than what `db` has. -/
def Shared.fresh (s : Shared) (db : Option StoredCredentials) : Bool :=
  s.client.all (fun client => db.any (·.speaks client)) &&
    s.credentials.all fun c => decide (db = some c)

/- Whether what is stored was issued last. -/
def Shared.latest (s : Shared) : Bool :=
  s.db.all fun c => decide (s.issued.head? = some c.issue)

/- A call that ends, where it does not fail, with a cache that is cleared. -/
def Call.clears : Call → Bool
  | .update _ | .fingerprints _ | .invalidate => true
  | .clear again | .enroll again | .store again _ => again
  | _ => false

/- What a call is to store. -/
def Call.answer : Call → Option Issue
  | .update r => some r.issue
  | .store _ c => some c.issue
  | _ => none

def cleared (calls : List Call) : Bool := calls.any Call.clears

/- Whether what was issued last is still to be stored. -/
def Shared.unsaved (s : Shared) (calls : List Call) : Bool :=
  calls.any fun call => call.answer.isSome && decide (call.answer = s.issued.head?)

/- What a call may do beside the others: cache what is stored or what another clears; end
   without clearing the cache where it is fresh or another clears it; store what was issued
   last or what another stores after it, and drop no answer but such. -/
def Call.Keeps (s : Shared) (others : List Call) (call : Call) : Event → Prop
  | .fails =>
    (call.clears → s.fresh s.db ∨ cleared others) ∧
      (call.answer.isSome → s.latest ∨ s.unsaved others)
  | .done _ _ =>
    match call with
    | .keep _ _ c => s.db = some c ∨ cleared others
    | .update r =>
      if s.db.isSome then s.issued.head? = some r.issue ∨ s.unsaved others
      else s.fresh none ∨ cleared others
    | .fingerprints _ => s.db.isSome ∨ s.fresh none ∨ cleared others
    | .clear again => again ∨ s.fresh none ∨ cleared others
    | .store again c =>
      (again ∨ s.fresh (some c.stored) ∨ cleared others) ∧
        (s.issued.head? = some c.issue ∨ s.unsaved others)
    | _ => True
  | _ => True

def State.Keeps : State → Act → Prop := Tasks.Meets Call.Keeps

instance (s : Shared) (others : List Call) (call : Call) (event : Event) :
    Decidable (call.Keeps s others event) :=
  match event with
  | .fails => inferInstanceAs (Decidable ((_ → _ ∨ _) ∧ (_ → _ ∨ _)))
  | .done _ _ =>
    match call with
    | .keep _ _ c => inferInstanceAs (Decidable (s.db = some c ∨ _))
    | .update r =>
      inferInstanceAs (Decidable (if s.db.isSome then
        s.issued.head? = some r.issue ∨ s.unsaved others else s.fresh none ∨ cleared others))
    | .fingerprints _ => inferInstanceAs (Decidable (_ ∨ _ ∨ _))
    | .clear _ => inferInstanceAs (Decidable (_ ∨ _ ∨ _))
    | .store again c =>
      inferInstanceAs (Decidable ((again ∨ s.fresh (some c.stored) ∨ cleared others) ∧
        (s.issued.head? = some c.issue ∨ s.unsaved others)))
    | .ensure _ | .load _ | .getClient _ | .refresh _ | .send _ _ | .invalidate
    | .ensureEnrolled | .enroll _ => isTrue trivial
  | .issues _ | .enrolls _ => isTrue trivial

instance (s : State) (act : Act) : Decidable (s.Keeps act) :=
  inferInstanceAs (Decidable (Tasks.Meets Call.Keeps s act))

/-! One step. -/

theorem fresh_none {s : Shared} (empty : s.fresh none) (db : Option StoredCredentials) :
    s.fresh db := by
  unfold Shared.fresh at empty ⊢
  cases client : s.client with
  | some client => simp [client] at empty
  | none =>
    cases credentials : s.credentials with
    | some c => simp [credentials] at empty
    | none => rfl

theorem speaks_client (c : StoredCredentials) (mtls : Bool) : c.speaks (c.client mtls) := by
  cases mtls <;> simp [StoredCredentials.speaks]

theorem speaks_updated {c : StoredCredentials} {client : HttpClient} (speaks : c.speaks client) :
    ∃ mtls, client = c.client mtls := by
  simp only [StoredCredentials.speaks, Bool.or_eq_true, beq_iff_eq] at speaks
  exact speaks.elim (fun same => ⟨true, same⟩) fun same => ⟨false, same⟩

theorem updated_clears (r : CertificateRenewalResponse) : r.updated.clears := by
  unfold CertificateRenewalResponse.updated
  split <;> rfl

/- What a step can do. -/
inductive Does (s : Shared) : Call → Event → Shared → Option Call → Prop
  | looks {call : Call} {next : Option Call} (now : Int) (mtls : Bool)
      (plain : call.clears = false) (nothing : call.answer = none)
      (built : ∀ purpose client c, next = some (.keep purpose client c) → c.speaks client) :
      Does s call (.done now mtls) s next
  | stays (call : Call) (event : Event) : Does s call event s (some call)
  | fails (call : Call) : Does s call .fails s none
  | keeps (purpose : Purpose) (client : HttpClient) (c : StoredCredentials) (now : Int)
      (mtls : Bool) : Does s (.keep purpose client c) (.done now mtls)
        { s with client := some client, credentials := some c, lastRefresh := some now }
        (some (.send purpose client))
  | updates {c : StoredCredentials} (db : s.db = some c) (r : CertificateRenewalResponse)
      (now : Int) (mtls : Bool) : Does s (.update r) (.done now mtls)
        { s with db := updateCertificate r (some c) } (some r.updated)
  | notUpdated (db : s.db = none) (r : CertificateRenewalResponse) (now : Int) (mtls : Bool) :
      Does s (.update r) (.done now mtls) s none
  | pins {c : StoredCredentials} (db : s.db = some c) (answer : List String) (now : Int)
      (mtls : Bool) : Does s (.fingerprints answer) (.done now mtls)
        { s with db := updateServerFingerprints answer (some c) } (some .invalidate)
  | notPinned (db : s.db = none) (answer : List String) (now : Int) (mtls : Bool) :
      Does s (.fingerprints answer) (.done now mtls) s none
  | invalidates (now : Int) (mtls : Bool) : Does s .invalidate (.done now mtls) s.invalidated none
  | clears (again : Bool) (now : Int) (mtls : Bool) : Does s (.clear again) (.done now mtls)
      { s with db := none } (if again then some (.enroll true) else none)
  | stores (again : Bool) (c : StoredCredentials) (now : Int) (mtls : Bool) :
      Does s (.store again c) (.done now mtls) { s with db := some c.stored }
        (if again then some .invalidate else none)
  | renews (client : HttpClient) (r : CertificateRenewalResponse) :
      Does s (.send .renewal client) (.issues r)
        { s with issued := r.issue :: s.issued } (some (.update r))
  | enrolls (again : Bool) (c : StoredCredentials) : Does s (.enroll again) (.enrolls c)
      { s with issued := c.issue :: s.issued } (some (.store again c))

theorem then_not_keep (now : Int) (c : StoredCredentials) (asked : Purpose) :
    ∀ purpose client kept, asked.then now c ≠ some (.keep purpose client kept) := by
  intro purpose client kept
  cases asked with
  | check =>
    unfold Purpose.then
    split <;> simp
  | read | request | expiry | renewal => simp [Purpose.then]

theorem getClient_not_keep (s : Shared) (now : Int) (asked : Purpose) :
    ∀ purpose client kept, s.getClient now asked ≠ .keep purpose client kept := by
  intro purpose client kept
  unfold Shared.getClient
  split
  · split <;> simp
  · simp

theorem refresh_built (s : Shared) (now : Int) (mtls : Bool) (asked : Purpose)
    (purpose : Purpose) (client : HttpClient) (c : StoredCredentials)
    (kept : s.refresh now mtls asked = some (.keep purpose client c)) : c.speaks client := by
  unfold Shared.refresh at kept
  split at kept
  · split at kept
    · cases kept
    · simp only [Option.some.injEq, Call.keep.injEq] at kept
      obtain ⟨-, rfl, rfl⟩ := kept
      exact speaks_client _ mtls
  · cases kept

theorem done_does (s : Shared) (now : Int) (mtls : Bool) (call : Call) :
    Does s call (.done now mtls) (call.done s now mtls).1 (call.done s now mtls).2 := by
  cases call with
  | ensure purpose =>
    unfold Call.done
    cases s.credentials with
    | some c => exact .looks now mtls rfl rfl fun p k c' h => absurd h (then_not_keep now c _ p k c')
    | none => exact .looks now mtls rfl rfl fun p k c' h => by cases h
  | load purpose =>
    unfold Call.done
    cases s.db with
    | some c => exact .looks now mtls rfl rfl fun p k c' h => absurd h (then_not_keep now c _ p k c')
    | none => exact .looks now mtls rfl rfl fun p k c' h => by cases h
  | getClient purpose =>
    change Does s (.getClient purpose) (.done now mtls) s (some (s.getClient now purpose))
    exact .looks now mtls rfl rfl fun p k c h =>
      absurd (Option.some.inj h) (getClient_not_keep s now purpose p k c)
  | refresh purpose =>
    change Does s (.refresh purpose) (.done now mtls) s (s.refresh now mtls purpose)
    exact .looks now mtls rfl rfl (refresh_built s now mtls purpose)
  | keep purpose client c => exact .keeps purpose client c now mtls
  | send purpose client =>
    change Does s (.send purpose client) (.done now mtls) s
      (if purpose = .renewal then some (.send purpose client) else none)
    refine .looks now mtls rfl rfl fun p k c h => ?_
    split at h <;> cases h
  | update r =>
    unfold Call.done
    cases db : s.db with
    | some c => exact .updates db r now mtls
    | none => exact .notUpdated db r now mtls
  | fingerprints answer =>
    unfold Call.done
    cases db : s.db with
    | some c => exact .pins db answer now mtls
    | none => exact .notPinned db answer now mtls
  | invalidate => exact .invalidates now mtls
  | ensureEnrolled =>
    unfold Call.done
    cases s.db with
    | some c => exact .looks now mtls rfl rfl fun p k c' h => by cases h
    | none => exact .looks now mtls rfl rfl fun p k c' h => by cases h
  | clear again => exact .clears again now mtls
  | enroll again => exact .stays _ _
  | store again c => exact .stores again c now mtls

theorem step_does (s : Shared) (call : Call) (event : Event) :
    Does s call event (call.step s event).1 (call.step s event).2 := by
  cases event with
  | done now mtls => exact done_does s now mtls call
  | fails => exact .fails call
  | issues r =>
    cases call with
    | send purpose client =>
      cases purpose with
      | renewal => exact .renews client r
      | read | request | check | expiry => exact .stays _ _
    | _ => exact .stays _ _
  | enrolls c =>
    cases call with
    | enroll again => exact .enrolls again c
    | _ => exact .stays _ _

/-! What it keeps. -/

/-- The cache is fresh after a step, or a call is left that clears it. -/
theorem does_fresh {s after : Shared} {others : List Call} {call : Call} {event : Event}
    {next : Option Call} (does : Does s call event after next)
    (keeps : call.Keeps s others event)
    (built : ∀ purpose client c, call = .keep purpose client c → c.speaks client)
    (before : s.fresh s.db ∨ call.clears ∨ cleared others) :
    after.fresh after.db ∨ next.any Call.clears ∨ cleared others := by
  cases does with
  | looks now mtls plain nothing => 
    refine before.imp_right fun other => Or.inr (other.resolve_left fun clears => ?_)
    rw [plain] at clears
    cases clears
  | stays => exact before
  | fails =>
    rcases before with fresh | clears | other
    · exact Or.inl fresh
    · exact (keeps.1 clears).imp_right Or.inr
    · exact Or.inr (Or.inr other)
  | keeps purpose client c now mtls =>
    refine keeps.imp (fun stored => ?_) Or.inr
    simp [Shared.fresh, stored, built purpose client c rfl]
  | updates db r => exact Or.inr (Or.inl (updated_clears r))
  | notUpdated db r =>
    simp only [Call.Keeps, db, Option.isSome_none, Bool.false_eq_true, if_false] at keeps
    exact keeps.imp (fun empty => fresh_none empty _) Or.inr
  | pins db answer => exact Or.inr (Or.inl rfl)
  | notPinned db answer =>
    simp only [Call.Keeps, db, Option.isSome_none, Bool.false_eq_true, false_or] at keeps
    exact keeps.imp (fun empty => fresh_none empty _) Or.inr
  | invalidates => exact Or.inl rfl
  | clears again =>
    rcases keeps with first | empty | other
    · exact Or.inr (Or.inl (by rw [if_pos first]; rfl))
    · exact Or.inl empty
    · exact Or.inr (Or.inr other)
  | stores again c =>
    rcases keeps.1 with first | same | other
    · exact Or.inr (Or.inl (by rw [if_pos first]; rfl))
    · exact Or.inl same
    · exact Or.inr (Or.inr other)
  | renews => exact Or.inr (Or.inl rfl)
  | enrolls again c => exact before

/-- What is stored was issued last after a step, or a call is left that stores what was. -/
theorem does_latest {s after : Shared} {others : List Call} {call : Call} {event : Event}
    {next : Option Call} (does : Does s call event after next)
    (keeps : call.Keeps s others event)
    (before : s.latest ∨ s.unsaved [call] ∨ s.unsaved others) :
    after.latest ∨ after.unsaved next.toList ∨ after.unsaved others := by
  cases does with
  | looks now mtls plain nothing =>
    refine before.imp_right fun other => Or.inr (other.resolve_left ?_)
    simp [Shared.unsaved, nothing]
  | stays => exact before
  | fails =>
    rcases before with latest | held | other
    · exact Or.inl latest
    · refine (keeps.2 ?_).imp_right Or.inr
      simp only [Shared.unsaved, List.any_cons, List.any_nil, Bool.or_false, Bool.and_eq_true]
        at held
      exact held.1
    · exact Or.inr (Or.inr other)
  | keeps purpose client c now mtls => exact before.imp_right (Or.imp_left nofun)
  | updates db r =>
    simp only [Call.Keeps, db, Option.isSome_some, if_true] at keeps
    refine keeps.imp (fun last => ?_) Or.inr
    exact decide_eq_true last
  | notUpdated db r => exact Or.inl (by simp [Shared.latest, db])
  | pins db answer =>
    refine before.imp (fun latest => ?_) (Or.imp_left nofun)
    rw [Shared.latest, db] at latest
    exact latest
  | notPinned db answer => exact Or.inl (by simp [Shared.latest, db])
  | invalidates => exact before.imp_right (Or.imp_left nofun)
  | clears again => exact Or.inl rfl
  | stores again c =>
    refine keeps.2.imp (fun last => ?_) Or.inr
    exact decide_eq_true last
  | renews client r => exact Or.inr (Or.inl (by simp [Shared.unsaved, Call.answer]))
  | enrolls again c => exact Or.inr (Or.inl (by simp [Shared.unsaved, Call.answer]))

theorem updated_not_keep (r : CertificateRenewalResponse) (purpose : Purpose)
    (client : HttpClient) (c : StoredCredentials) : r.updated ≠ .keep purpose client c := by
  intro same
  have clears := updated_clears r
  rw [same] at clears
  cases clears

/-- A client that is to be cached was built from the credentials cached with it. -/
theorem does_built {s after : Shared} {call : Call} {event : Event} {next : Option Call}
    (does : Does s call event after next)
    (before : ∀ purpose client c, call = .keep purpose client c → c.speaks client) :
    ∀ purpose client c, next = some (.keep purpose client c) → c.speaks client := by
  intro purpose client c kept
  cases does with
  | looks now mtls plain nothing built => exact built purpose client c kept
  | stays => exact before purpose client c (Option.some.inj kept)
  | updates db r => exact absurd (Option.some.inj kept) (updated_not_keep r purpose client c)
  | clears again => split at kept <;> cases kept
  | stores again c => split at kept <;> cases kept
  | fails | keeps | notUpdated | pins | notPinned | invalidates | renews | enrolls => cases kept

/- The cache is fresh, or a call is left that clears it; what is stored was issued last, or a
   call is left that stores what was. -/
structure Accounted (s : Shared) (calls : List Call) : Prop where
  fresh : s.fresh s.db ∨ cleared calls
  latest : s.latest ∨ s.unsaved calls
  built : ∀ purpose client c, .keep purpose client c ∈ calls → c.speaks client

theorem accounted_reorder {s : Shared} {calls calls' : List Call} (same : calls.Perm calls')
    (accounted : Accounted s calls) : Accounted s calls' where
  fresh := by
    have fresh := accounted.fresh
    rwa [cleared, same.any_eq] at fresh
  latest := by
    have latest := accounted.latest
    rwa [Shared.unsaved, same.any_eq] at latest
  built purpose client c listed := accounted.built purpose client c (same.mem_iff.mpr listed)

theorem accounted_begin {s : Shared} {calls : List Call} {call : Call} (begins : call.begins)
    (accounted : Accounted s calls) : Accounted s (call :: calls) where
  fresh := accounted.fresh.imp_right fun left => (Bool.or_eq_true _ _).mpr (Or.inr left)
  latest := accounted.latest.imp_right fun left => (Bool.or_eq_true _ _).mpr (Or.inr left)
  built := by
    intro purpose client c listed
    rcases List.mem_cons.mp listed with rfl | listed
    · cases begins
    · exact accounted.built purpose client c listed

theorem accounted_made {s : Shared} {others : List Call} {call : Call} {event : Event}
    (keeps : call.Keeps s others event) (accounted : Accounted s (call :: others)) :
    Accounted (call.step s event).1 ((call.step s event).2.toList ++ others) := by
  have does := step_does s call event
  have built : ∀ purpose client c, call = .keep purpose client c → c.speaks client :=
    fun purpose client c same =>
      accounted.built purpose client c (List.mem_cons.mpr (Or.inl same.symm))
  have next_any (p : Call → Bool) (next : Option Call) : next.toList.any p = next.any p := by
    cases next <;> simp
  refine ⟨?_, ?_, ?_⟩
  · have before := accounted.fresh
    rw [cleared, List.any_cons, Bool.or_eq_true] at before
    have after := does_fresh does keeps built before
    refine after.imp_right fun left => ?_
    rw [cleared, List.any_append, next_any, Bool.or_eq_true]
    exact left
  · have before := accounted.latest
    rw [Shared.unsaved, List.any_cons, Bool.or_eq_true] at before
    have after := does_latest does keeps (before.imp_right (Or.imp_left fun held => ?_))
    · refine after.imp_right fun left => ?_
      rw [Shared.unsaved, List.any_append, Bool.or_eq_true]
      exact left
    · rw [Shared.unsaved, List.any_cons, List.any_nil, Bool.or_false]
      exact held
  · intro purpose client c listed
    rcases List.mem_append.mp listed with here | other
    · exact does_built does built purpose client c (Option.mem_toList.mp here)
    · exact accounted.built purpose client c (List.mem_cons_of_mem _ other)

theorem accounted_start {db : Option StoredCredentials} {issued : List Issue}
    (begun : ∀ c, db = some c → issued.head? = some c.issue) :
    Accounted (State.start db issued).shared (State.start db issued).calls := by
  refine ⟨Or.inl rfl, Or.inl ?_, nofun⟩
  cases db with
  | none => rfl
  | some c => exact decide_eq_true (begun c rfl)

theorem accounted_run {db : Option StoredCredentials} {issued : List Issue}
    (begun : ∀ c, db = some c → issued.head? = some c.issue) {acts : List Act}
    (along : Along State.step State.Keeps (.start db issued) acts) :
    Accounted (run State.step (.start db issued) acts).shared
      (run State.step (.start db issued) acts).calls := by
  refine Tasks.run_keeps Call.begins Call.step (I := Accounted) ?_ ?_ ?_ (accounted_start begun) along
  · exact fun s calls calls' same => accounted_reorder same
  · exact fun s calls call begins => accounted_begin begins
  · exact fun s others call event keeps => accounted_made keeps

theorem onRecord_of {s : Shared} (fresh : s.fresh s.db) (latest : s.latest) : OnRecord s := by
  rw [Shared.fresh, Bool.and_eq_true] at fresh
  have last : ∀ c, s.db = some c → s.issued.head? = some c.issue := by
    intro c db
    rw [Shared.latest, db] at latest
    exact of_decide_eq_true latest
  refine ⟨fun client cached => ?_, fun c cached => ?_, fun c db => ?_, last⟩
  · have built := fresh.1
    rw [cached, Option.all_some, Option.any_eq_true] at built
    obtain ⟨c, db, speaks⟩ := built
    obtain ⟨mtls, same⟩ := speaks_updated speaks
    exact ⟨c, mtls, db, same⟩
  · have same := fresh.2
    rw [cached, Option.all_some] at same
    exact of_decide_eq_true same
  · exact List.mem_of_mem_head? (last c db)

/-- In every run in which no step leaves an outdated client in the cache, or an earlier
    certificate in the database, for good, the client speaks with the credentials on record once
    all calls have ended. -/
theorem speaks_on_record {db : Option StoredCredentials} {issued : List Issue}
    (begun : ∀ c, db = some c → issued.head? = some c.issue) {acts : List Act}
    (along : Along State.step State.Keeps (.start db issued) acts)
    (ended : (run State.step (.start db issued) acts).calls = []) :
    OnRecord (run State.step (.start db issued) acts).shared := by
  have accounted := accounted_run begun along
  have fresh := accounted.fresh
  have latest := accounted.latest
  rw [ended] at fresh latest
  exact onRecord_of (fresh.resolve_right nofun) (latest.resolve_right nofun)

def enrolledAgent : StoredCredentials where
  agentId := "a1"
  organizationId := "o1"
  clientCertificate := "cert 1"
  clientPrivateKey := "key 1"
  hmacSecret := some "secret"
  certificateExpiresAt := 100
  serverFingerprints := ["sha256:1"]
  enrolledAt := 0

def renewedCertificate : CertificateRenewalResponse where
  clientCertificate := "cert 2"
  clientPrivateKey := "key 2"
  certificateExpiresAt := 200
  serverFingerprints := []

/- A request that has built its client from the first credentials, and beside it a renewal that
   has stored the second and is still to clear the cache. -/
def overlapping : List Act :=
  [.begin (.getClient .request), .step 0 (.done 10 true), .step 0 (.done 10 true),
    .begin (.ensure .renewal)] ++
    List.replicate 5 (.step 0 (.done 11 true)) ++
    [.step 0 (.issues renewedCertificate), .step 0 (.done 12 true)]

theorem speaks_on_record_overlapping :
    OnRecord (run State.step (.start (some enrolledAgent) [enrolledAgent.issue])
      (overlapping ++ [.step 1 (.done 13 true), .step 0 (.done 13 true),
        .step 0 (.done 14 true)])).shared :=
  speaks_on_record (by simp) (by decide) (by decide)

/-- The client is cached after the cache was cleared. -/
theorem not_on_record : ¬ ∀ (db : Option StoredCredentials) (issued : List Issue) (acts : List Act),
    (∀ c, db = some c → issued.head? = some c.issue) →
    (run State.step (.start db issued) acts).calls = [] →
    OnRecord (run State.step (.start db issued) acts).shared := by
  intro always
  have onRecord := always (some enrolledAgent) [enrolledAgent.issue]
    (overlapping ++ [.step 0 (.done 13 true), .step 0 (.done 14 true), .step 0 (.done 15 true)])
    (by simp) (by decide)
  exact absurd (onRecord.credentials enrolledAgent (by decide)) (by decide)

end SentinelAgent.AuthenticatedClient
