import Mathlib.Data.List.Forall2
import SentinelAgent.Library.Runs
import SentinelAgent.Response.EdrActions

/-!
A playbook's actions, run or simulated: each target is checked and the destructive actions
are counted, then the action is done, or only said to be.
-/
namespace SentinelAgent.Response
open Files Text

def maxDestructiveActionsPerRun : Nat := 10

def isDestructive : ResolvedAction → Bool
  | .killProcess .. | .quarantineFile .. | .blockIp .. | .isolateHost .. | .disableAccount ..
  | .runCommand .. => true
  | .alert .. | .notify .. => false

def validateTarget (setup : Setup) : ResolvedAction → Except String Unit
  | .killProcess name pid =>
    if pid = 0 ∨ pid = 1 then .error s!"refusing reserved PID {pid} (target '{name}')" else .ok ()
  | .quarantineFile path =>
    if trim path = "" then .error "refusing empty quarantine path"
    else if (setup.readPath path).absolute then .ok ()
    else
      .error (s!"refusing relative quarantine path '{path}': target is ambiguous and depends " ++
        "on the agent's working directory")
  | .blockIp ip _ =>
    if (parseIpAddr ip).isNone then .error s!"refusing malformed IP '{ip}'" else .ok ()
  | .disableAccount user _ =>
    if Accounts.isAccountName user then .ok () else .error s!"refusing '{user}': not an account name"
  | .runCommand name _ =>
    if isCommandName name then .ok ()
    else
      .error s!"refusing '{name}': a playbook names a response command, it does not carry one"
  | _ => .ok ()

def ResolvedAction.describe : ResolvedAction → String
  | .killProcess name pid => s!"Kill process {name} (PID {pid})"
  | .quarantineFile path => s!"Quarantine {path}"
  | .blockIp ip _ => s!"Block IP {ip}"
  | .isolateHost 0 => "Isolate host until released"
  | .isolateHost durationSecs => s!"Isolate host for {durationSecs}s"
  | .disableAccount user 0 => s!"Lock account {user} until unlocked"
  | .disableAccount user durationSecs => s!"Lock account {user} for {durationSecs}s"
  | .runCommand name _ => s!"Run response command '{name}'"
  | .alert title _ _ => s!"Alert: {title}"
  | .notify message => s!"Notify: {message}"

def simulationMark : String := "[Simulation] "

/- Where alerts and notifications go, and what sending one answers. -/
structure Delivery where
  notifications : Option (Option String)
  siem : Option (Option String)

structure ActionResult where
  action : String
  success : Bool
  error : Option String
  deriving DecidableEq

/- What is kept of one action: its result, why it was turned away if it was, and the
   action itself where it was carried out. -/
structure Entry where
  result : ActionResult
  refusal : Option Refusal
  executed : Option ResolvedAction

section Run
variable (setup : Setup) (debugText : ResolvedAction → String) (playbookName : String)
  (delivery : Delivery)

def sendAlert (title severity description : String) (host : Host) : Host × Outcome :=
  match delivery.siem with
  | none => (host, .failed "No SIEM delivery destination configured")
  | some (some text) => (host, .failed text)
  | some none =>
    let record := ⟨(severityRank severity).getD 2 * 2 + 1, title, description⟩
    ({ host with sent := host.sent ++ [record] }, .done)

/- Without an interface the notification goes to the SIEM's records. -/
def sendNotification (message : String) (host : Host) : Host × Outcome :=
  match delivery.notifications, delivery.siem with
  | some none, _ => ({ host with notified := host.notified ++ [(playbookName, message)] }, .done)
  | some (some text), _ => (host, .failed text)
  | none, some _ =>
    let record := ⟨5, "Playbook notification: " ++ playbookName, message⟩
    ({ host with sent := host.sent ++ [record] }, .done)
  | none, none => (host, .failed "No notification delivery destination configured")

def perform (answers : HostAnswers) (action : ResolvedAction) (host : Host) : Host × Outcome :=
  match action with
  | .killProcess name pid => killProcess setup answers name pid host
  | .quarantineFile path => quarantineFile setup answers path host
  | .blockIp ip durationSecs => blockIp answers ip durationSecs host
  | .isolateHost durationSecs =>
    isolateHost setup answers s!"Playbook '{playbookName}'" durationSecs host
  | .disableAccount user durationSecs => disableAccount setup answers user durationSecs host
  | .runCommand name _ => runResponseCommand setup answers name host
  | .alert title severity description => sendAlert delivery title severity description host
  | .notify message => sendNotification playbookName delivery message host

/- One pass of the loop: what is kept of the action, the destructive actions counted so
   far and the host. A panic ends the run without a result. -/
def runAction (simulate : Bool) (answers : HostAnswers) (action : ResolvedAction) (count : Nat)
    (host : Host) : Option (Entry × Nat × Host) :=
  match validateTarget setup action with
  | .error reason =>
    let error := s!"Rejected by target validation: {reason}"
    some (⟨⟨debugText action, false, some error⟩, some (.invalidTarget reason), none⟩, count, host)
  | .ok () =>
    let count := if isDestructive action then count + 1 else count
    if isDestructive action && decide (maxDestructiveActionsPerRun < count) then
      let error := s!"Refused: playbook exceeded the {maxDestructiveActionsPerRun} " ++
        "destructive-action limit for a single run"
      some (⟨⟨debugText action, false, some error⟩, some .limit, none⟩, count, host)
    else if simulate then
      some (⟨⟨simulationMark ++ action.describe, true, none⟩, none, none⟩, count, host)
    else
      match perform setup playbookName delivery answers action host with
      | (_, .panicked) => none
      | (after, .done) =>
        some (⟨⟨action.describe, true, none⟩, none, some action⟩, count, after)
      | (after, .failed text) =>
        some (⟨⟨action.describe, false, some text⟩, edrRefusal setup answers action host,
          some action⟩, count, after)

def runFrom (simulate : Bool) : List (ResolvedAction × HostAnswers) → Nat → Host →
    Option (List Entry × Host)
  | [], _, host => some ([], host)
  | (action, answers) :: rest, count, host =>
    match runAction setup debugText playbookName delivery simulate answers action count host with
    | none => none
    | some (entry, count, host) =>
      (runFrom simulate rest count host).map fun (entries, host) => (entry :: entries, host)

def runPlaybookActions (simulate : Bool) (actions : List (ResolvedAction × HostAnswers))
    (host : Host) : Option (List Entry × Host) :=
  runFrom setup debugText playbookName delivery simulate actions 0 host

end Run

/-! When a simulated run shows what a real one would refuse. -/

/- The result of an action names it. -/
def About (debugText : ResolvedAction → String) (entry : Entry) (action : ResolvedAction) : Prop :=
  entry.result.action = debugText action ∨ entry.result.action = action.describe ∨
    entry.result.action = simulationMark ++ action.describe

def executedDestructive (entries : List Entry) : Nat :=
  (entries.filterMap Entry.executed).countP isDestructive

/- An action whose target is one and that is within the limit, after so many others. -/
def Admitted (setup : Setup) (count : Nat) (action : ResolvedAction) : Prop :=
  validateTarget setup action = .ok () ∧
    ¬ (isDestructive action = true ∧ maxDestructiveActionsPerRun ≤ count)

def counted (count : Nat) (action : ResolvedAction) : Nat :=
  if isDestructive action then count + 1 else count

section Steps
variable {setup : Setup} (debugText : ResolvedAction → String) (playbookName : String)
  (delivery : Delivery) {answers : HostAnswers} {action : ResolvedAction} {host : Host}
  {count : Nat}

theorem perform_refused {r : Refusal} (refused : edrRefusal setup answers action host = some r) :
    Fails (perform setup playbookName delivery answers action host) host := by
  cases action with
  | killProcess name pid => exact kill_fails refused
  | quarantineFile path => exact quarantine_fails refused
  | blockIp ip durationSecs =>
    rw [edrRefusal] at refused
    split at refused
    · rename_i acts
      exact block_fails acts refused
    · cases refused
  | isolateHost durationSecs =>
    rw [edrRefusal] at refused
    split at refused
    · rename_i acts
      exact isolate_fails acts refused
    · cases refused
  | disableAccount user durationSecs =>
    rw [edrRefusal] at refused
    split at refused
    · rename_i acts
      exact lock_fails acts refused
    · cases refused
  | runCommand name context => exact command_fails refused
  | alert title severity description => cases refused
  | notify message => cases refused

theorem perform_panics (setup : Setup) :
    (perform setup playbookName delivery answers action host).2 = .panicked ↔
      Overflows answers action host := by
  cases action with
  | blockIp ip durationSecs => exact block_panics
  | killProcess name pid =>
    simp only [perform, Overflows, iff_false, killProcess]
    split
    · simp
    · split <;> simp
  | quarantineFile path =>
    simp only [perform, Overflows, iff_false, quarantineFile]
    split <;> simp
  | isolateHost durationSecs =>
    simp only [perform, Overflows, iff_false, isolateHost, delegate_panics, not_and]
    intro _
    split <;> simp
  | disableAccount user durationSecs =>
    simp only [perform, Overflows, iff_false, disableAccount, delegate_panics, not_and]
    intro _
    split <;> simp
  | runCommand name context =>
    simp only [perform, Overflows, iff_false, runResponseCommand]
    split
    · simp
    · split <;> simp
  | alert title severity description =>
    simp only [perform, Overflows, iff_false, sendAlert]
    split <;> simp
  | notify message =>
    simp only [perform, Overflows, iff_false, sendNotification]
    split <;> simp

/- An action that is not admitted is turned away in the same way in both kinds of run. -/
theorem turned_away (away : ¬ Admitted setup count action) :
    ∃ entry after, count ≤ after ∧ entry.executed = none ∧ About debugText entry action ∧
      ∀ simulate answers host, runAction setup debugText playbookName delivery simulate answers
        action count host = some (entry, after, host) := by
  unfold runAction
  cases valid : validateTarget setup action with
  | error reason => exact ⟨_, count, le_rfl, rfl, Or.inl rfl, fun _ _ _ => rfl⟩
  | ok =>
    have destructive : isDestructive action = true ∧ maxDestructiveActionsPerRun ≤ count := by
      by_contra within
      exact away ⟨valid, within⟩
    have past : (isDestructive action && decide (maxDestructiveActionsPerRun <
        if isDestructive action then count + 1 else count)) = true := by
      simp [destructive.1, Nat.lt_succ_of_le destructive.2]
    exact ⟨_, _, by simp [destructive.1], rfl, Or.inl rfl, fun _ _ _ => if_pos past⟩

section Admission
variable (admitted : Admitted setup count action)
include admitted

theorem not_past : ¬ (isDestructive action && decide (maxDestructiveActionsPerRun <
    if isDestructive action then count + 1 else count)) = true := by
  intro past
  rw [Bool.and_eq_true, decide_eq_true_eq] at past
  have more := past.2
  rw [if_pos past.1] at more
  exact admitted.2 ⟨past.1, Nat.lt_succ_iff.mp more⟩

theorem admitted_simulated (answers : HostAnswers) (host : Host) : ∃ entry, entry.refusal = none ∧ entry.executed = none ∧
    About debugText entry action ∧
    runAction setup debugText playbookName delivery true answers action count host =
      some (entry, counted count action, host) := by
  unfold runAction
  rw [admitted.1]
  exact ⟨_, rfl, rfl, Or.inr (Or.inr rfl), if_neg (not_past admitted)⟩

theorem admitted_real (counts : ¬ Overflows answers action host) : ∃ entry after,
    entry.refusal = edrRefusal setup answers action host ∧ entry.executed = some action ∧
    About debugText entry action ∧
    runAction setup debugText playbookName delivery false answers action count host =
      some (entry, counted count action, after) := by
  have alive := mt (perform_panics playbookName delivery setup).mp counts
  unfold runAction
  simp only [admitted.1, if_neg (not_past admitted), Bool.false_eq_true, if_false]
  cases ended : perform setup playbookName delivery answers action host with
  | mk after outcome =>
    rw [ended] at alive
    cases outcome with
    | panicked => exact absurd rfl alive
    | failed text => exact ⟨_, after, rfl, rfl, Or.inr (Or.inl rfl), rfl⟩
    | done =>
      refine ⟨⟨⟨action.describe, true, none⟩, none, some action⟩, after, ?_, rfl,
        Or.inr (Or.inl rfl), rfl⟩
      cases refused : edrRefusal setup answers action host with
      | none => rfl
      | some r =>
        obtain ⟨text, failed⟩ := perform_refused playbookName delivery refused
        rw [ended] at failed
        cases failed

theorem admitted_panics (overflows : Overflows answers action host) :
    runAction setup debugText playbookName delivery false answers action count host = none := by
  have panics := (perform_panics playbookName delivery setup).mpr overflows
  unfold runAction
  simp only [admitted.1, if_neg (not_past admitted), Bool.false_eq_true, if_false]
  split
  · rfl
  · rename_i ended
    rw [ended] at panics
    cases panics
  · rename_i ended
    rw [ended] at panics
    cases panics

end Admission

end Steps

/- The counter and the host, one action of the real run after another. -/
def realStep (setup : Setup) (debugText : ResolvedAction → String) (playbookName : String)
    (delivery : Delivery) (s : Nat × Host) (item : ResolvedAction × HostAnswers) : Nat × Host :=
  match runAction setup debugText playbookName delivery false item.2 item.1 s.1 s.2 with
  | some (_, s) => s
  | none => s

/- The host itself does not turn an admitted action away, nor does its block panic. -/
def Unopposed (setup : Setup) (s : Nat × Host) (item : ResolvedAction × HostAnswers) : Prop :=
  Admitted setup s.1 item.1 →
    edrRefusal setup item.2 item.1 s.2 = none ∧ ¬ Overflows item.2 item.1 s.2

section Runs
variable {setup : Setup} {debugText : ResolvedAction → String} {playbookName : String}
  {delivery : Delivery}

/-- One result for each action, in order, and no more destructive actions than the limit
    leaves. -/
theorem run_answered {simulate : Bool} {items : List (ResolvedAction × HostAnswers)}
    {count : Nat} {host after : Host} {entries : List Entry}
    (ran : runFrom setup debugText playbookName delivery simulate items count host =
      some (entries, after)) :
    List.Forall₂ (About debugText) entries (items.map Prod.fst) ∧
      executedDestructive entries + min count maxDestructiveActionsPerRun ≤
        maxDestructiveActionsPerRun := by
  induction items generalizing count host after entries with
  | nil =>
    rw [runFrom, Option.some.injEq, Prod.mk.injEq] at ran
    obtain ⟨rfl, rfl⟩ := ran
    exact ⟨List.Forall₂.nil, by simp [executedDestructive]⟩
  | cons item rest ih =>
    obtain ⟨action, answers⟩ := item
    rw [runFrom] at ran
    cases first : runAction setup debugText playbookName delivery simulate answers action count
        host with
    | none => simp [first] at ran
    | some result =>
      obtain ⟨entry, next, reached⟩ := result
      simp only [first, Option.map_eq_some_iff, Prod.exists, Prod.mk.injEq] at ran
      obtain ⟨more, last, later, rfl, rfl⟩ := ran
      obtain ⟨each, limit⟩ := ih later
      by_cases admitted : Admitted setup count action
      · have one : About debugText entry action ∧ next = counted count action ∧
            (entry.executed = none ∨ entry.executed = some action) := by
          cases simulate with
          | true =>
            obtain ⟨_, _, none_done, about, same⟩ :=
              admitted_simulated debugText playbookName delivery admitted answers host
            rw [same, Option.some.injEq, Prod.mk.injEq, Prod.mk.injEq] at first
            obtain ⟨rfl, rfl, _⟩ := first
            exact ⟨about, rfl, Or.inl none_done⟩
          | false =>
            by_cases overflows : Overflows answers action host
            · rw [admitted_panics debugText playbookName delivery admitted overflows] at first
              cases first
            · obtain ⟨_, _, _, done, about, same⟩ :=
                admitted_real debugText playbookName delivery admitted overflows
              rw [same, Option.some.injEq, Prod.mk.injEq, Prod.mk.injEq] at first
              obtain ⟨rfl, rfl, _⟩ := first
              exact ⟨about, rfl, Or.inr done⟩
        obtain ⟨about, rfl, executed⟩ := one
        refine ⟨List.Forall₂.cons about each, ?_⟩
        have within := admitted.2
        rw [executedDestructive] at limit ⊢
        rw [counted] at limit
        rcases executed with nothing | done
        · rw [List.filterMap_cons_none nothing]
          split at limit
          · omega
          · exact limit
        · rw [List.filterMap_cons_some done, List.countP_cons]
          by_cases destructive : isDestructive action = true
          · simp only [destructive, if_true, true_and] at limit within ⊢
            omega
          · simp only [destructive, Bool.false_eq_true, if_false] at limit ⊢
            omega
      · obtain ⟨_, _, more_counted, none_done, about, same⟩ := turned_away debugText playbookName delivery admitted
        rw [same, Option.some.injEq, Prod.mk.injEq, Prod.mk.injEq] at first
        obtain ⟨rfl, rfl, _⟩ := first
        refine ⟨List.Forall₂.cons about each, ?_⟩
        rw [executedDestructive] at limit ⊢
        rw [List.filterMap_cons_none none_done]
        omega

/- Both runs are there, and refuse the same actions for the same reasons. -/
def SameRefusals (setup : Setup) (debugText : ResolvedAction → String) (playbookName : String)
    (delivery : Delivery) (items : List (ResolvedAction × HostAnswers)) (count : Nat)
    (host start : Host) : Prop :=
  ∃ simulated real before after,
    runFrom setup debugText playbookName delivery true items count host =
      some (simulated, before) ∧
    runFrom setup debugText playbookName delivery false items count start = some (real, after) ∧
    simulated.map Entry.refusal = real.map Entry.refusal

/- The two runs after a first action that both kept an entry of. -/
theorem same_after {rest : List (ResolvedAction × HostAnswers)} {answers : HostAnswers}
    {action : ResolvedAction} {count next : Nat} {host start reached : Host}
    {simulated real : Entry}
    (one : runAction setup debugText playbookName delivery true answers action count host =
      some (simulated, next, host))
    (other : runAction setup debugText playbookName delivery false answers action count start =
      some (real, next, reached)) :
    SameRefusals setup debugText playbookName delivery ((action, answers) :: rest) count host
        start ↔
      simulated.refusal = real.refusal ∧
        SameRefusals setup debugText playbookName delivery rest next host reached := by
  rw [SameRefusals, runFrom, runFrom, one, other]
  simp only [Option.map_eq_some_iff, Prod.exists, Prod.mk.injEq]
  constructor
  · rintro ⟨_, _, _, _, ⟨entries, _, ran, rfl, rfl⟩, ⟨more, _, ran', rfl, rfl⟩, same⟩
    rw [List.map_cons, List.map_cons, List.cons.injEq] at same
    exact ⟨same.1, _, _, _, _, ran, ran', same.2⟩
  · rintro ⟨first, entries, more, _, _, ran, ran', same⟩
    refine ⟨_, _, _, _, ⟨entries, _, ran, rfl, rfl⟩, ⟨more, _, ran', rfl, rfl⟩, ?_⟩
    rw [List.map_cons, List.map_cons, first, same]

theorem same_refusals_iff (items : List (ResolvedAction × HostAnswers)) (count : Nat)
    (host start : Host) :
    SameRefusals setup debugText playbookName delivery items count host start ↔
      Runs.Along (realStep setup debugText playbookName delivery) (Unopposed setup)
        (count, start) items := by
  induction items generalizing count start with
  | nil => exact iff_of_true ⟨[], [], host, start, rfl, rfl, rfl⟩ trivial
  | cons item rest ih =>
    obtain ⟨action, answers⟩ := item
    by_cases admitted : Admitted setup count action
    · obtain ⟨simulated, allowed, _, _, one⟩ :=
        admitted_simulated debugText playbookName delivery admitted answers host
      by_cases overflows : Overflows answers action start
      · refine iff_of_false ?_ ?_
        · rintro ⟨_, _, _, _, _, ran, _⟩
          rw [runFrom, admitted_panics debugText playbookName delivery admitted overflows] at ran
          cases ran
        · intro along
          exact (along.1 admitted).2 overflows
      · obtain ⟨real, reached, refusal, _, _, other⟩ :=
          admitted_real debugText playbookName delivery admitted overflows
        have next : realStep setup debugText playbookName delivery (count, start)
            (action, answers) = (counted count action, reached) := by
          rw [realStep, other]
        rw [same_after one other, ih, Runs.Along, next, allowed, refusal]
        refine and_congr_left fun _ => ?_
        constructor
        · intro none_left _
          exact ⟨none_left.symm, overflows⟩
        · intro unopposed
          exact (unopposed admitted).1.symm
    · obtain ⟨entry, after, _, _, _, same⟩ := turned_away debugText
        playbookName delivery admitted
      have next : realStep setup debugText playbookName delivery (count, start)
          (action, answers) = (after, start) := by
        rw [realStep, same]
      rw [same_after (same true answers host) (same false answers start), ih, Runs.Along, next]
      exact ⟨fun along => ⟨fun wrong => absurd wrong admitted, along.2⟩,
        fun along => ⟨rfl, along.2⟩⟩

end Runs

/- What a simulated run is to show of the real one: each has one result for each action,
   in order, executes no more destructive actions than the limit, and refuses the same. -/
def Predicts (setup : Setup) (debugText : ResolvedAction → String) (playbookName : String)
    (delivery : Delivery) (actions : List (ResolvedAction × HostAnswers)) (host : Host) : Prop :=
  ∃ simulated real before after,
    runPlaybookActions setup debugText playbookName delivery true actions host =
      some (simulated, before) ∧
    runPlaybookActions setup debugText playbookName delivery false actions host =
      some (real, after) ∧
    simulated.map Entry.refusal = real.map Entry.refusal ∧
    (List.Forall₂ (About debugText) simulated (actions.map Prod.fst) ∧
      List.Forall₂ (About debugText) real (actions.map Prod.fst)) ∧
    executedDestructive simulated ≤ maxDestructiveActionsPerRun ∧
    executedDestructive real ≤ maxDestructiveActionsPerRun

/-- The simulated run predicts the real one exactly where the host itself turns none of the
    admitted actions away, and none of their blocks panics. -/
theorem simulation_predicts_iff (setup : Setup) (debugText : ResolvedAction → String)
    (playbookName : String) (delivery : Delivery)
    (actions : List (ResolvedAction × HostAnswers)) (host : Host) :
    Predicts setup debugText playbookName delivery actions host ↔
      Runs.Along (realStep setup debugText playbookName delivery) (Unopposed setup) (0, host)
        actions := by
  rw [← same_refusals_iff actions 0 host host]
  constructor
  · rintro ⟨simulated, real, before, after, ran, ran', same, _⟩
    exact ⟨simulated, real, before, after, ran, ran', same⟩
  · rintro ⟨simulated, real, before, after, ran, ran', same⟩
    obtain ⟨each, limit⟩ := run_answered ran
    obtain ⟨each', limit'⟩ := run_answered ran'
    exact ⟨simulated, real, before, after, ran, ran', same, ⟨each, each'⟩,
      by simpa using limit, by simpa using limit'⟩

/- A Linux host on which nothing has happened yet, and answers without a failure. -/
def quietHost : Host where
  blocks := ⟨⟨1000, ∅, [], fun _ => ⊥⟩, fun _ => false⟩
  locks := ⟨1000, ∅, [], fun _ => ⊥⟩
  isolation := ⟨⟨[], [], [], fun _ => .notIsolated fun _ _ => true⟩, none, false⟩
  files := ⟨fun _ => none, fun _ => 0⟩
  killed := []
  ran := []
  sent := []
  notified := []

def quietAnswers : HostAnswers where
  isAdmin := true
  unreachable := none
  ownPid := 4242
  names := some ["sentinel-agent"]
  kill := none
  quarantine := ⟨"5f0c", [], false, false, .done, false⟩
  block := ⟨fun _ => false, [], [], .done, ⟨false, .written⟩, 0⟩
  ipv6 := true
  isolate := ⟨.ok [], [], 1000, false, false, false, none, none, fun _ _ => false, .written⟩
  lock := ⟨⟨⟨[], []⟩, none, none, none, .ok ()⟩, ⟨false, .written⟩, 0⟩
  untrusted := fun _ => none
  command := none

def linuxSetup : Setup where
  system := .linux
  toLowercase := Text.toAsciiLowercase
  readPath path := ⟨Text.startsWith path '/',
    ((Text.split '/' path).filter fun part => part != "" && part != ".").map fun part =>
      if part = ".." then .parent else .name part⟩
  format := ⟨fun _ => [], fun _ => .error ""⟩
  store := ["var", "store"]
  cwd := []
  commands := []

/- Simulated, the agent's own process is killed; in a real run that is refused. -/
theorem own_process_not_shown :
    let killOwn := [(ResolvedAction.killProcess "sentinel-agent" 4242, quietAnswers)]
    let results (simulate : Bool) := (runPlaybookActions linuxSetup ResolvedAction.describe "P"
      ⟨none, none⟩ simulate killOwn quietHost).map fun run => run.1.map Entry.result
    results true =
      some [⟨"[Simulation] Kill process sentinel-agent (PID 4242)", true, none⟩] ∧
    results false = some [⟨"Kill process sentinel-agent (PID 4242)", false,
      some ("internal error: Anti-Draper protection: Cannot terminate the Sentinel Agent " ++
        "process")⟩] ∧
    ¬ Predicts linuxSetup ResolvedAction.describe "P" ⟨none, none⟩ killOwn quietHost := by
  have refusals (simulate : Bool) : (runPlaybookActions linuxSetup ResolvedAction.describe "P"
      ⟨none, none⟩ simulate [(ResolvedAction.killProcess "sentinel-agent" 4242, quietAnswers)]
      quietHost).map (fun run => run.1.map fun entry => entry.refusal.isSome) =
        some [!simulate] := by
    cases simulate <;> decide
  refine ⟨by decide, by decide, ?_⟩
  rintro ⟨simulated, real, _, _, ran, ran', same, _⟩
  have shown := refusals true
  have refused := refusals false
  rw [ran] at shown
  rw [ran'] at refused
  have both := congrArg (List.map Option.isSome) same
  simp only [Option.map_some, Option.some.injEq] at shown refused
  simp only [List.map_map, Function.comp_def, shown, refused] at both
  exact absurd both (by decide)

end SentinelAgent.Response
