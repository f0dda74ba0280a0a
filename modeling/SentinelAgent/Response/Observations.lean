import SentinelAgent.Library.Lines
import SentinelAgent.Response.HitMemory

/- The processes and the peers that the conditions of the rules match in a pass, and which of
   them the matches report: what is due, under its key, by the first condition that matches it. -/
namespace SentinelAgent.Response

/- A process or a peer, as the memory of a rule tells them apart. -/
inductive Observation where
  | process (pid : UInt32) (name : String)
  | connection (remoteIp : String) (port : UInt16)
  deriving DecidableEq

def Observation.key (ruleId : String) : Observation → String
  | .process pid name => s!"{ruleId}\u001fprocess\u001f{pid}\u001f{name}"
  | .connection remoteIp port => connectionKey ruleId remoteIp port

/- A finding about the same process or the same peer. -/
def RuleTarget.about : RuleTarget → Observation → Bool
  | .process _ pid, .process pid' _ => pid == pid'
  | .connection remoteIp _, .connection remoteIp' _ => remoteIp == remoteIp'
  | _, _ => false

/- The conditions that are evaluated, in order. -/
def conditionsOf (rules : List DetectionRule) : List (DetectionRule × DetectionCondition) :=
  rules.flatMap fun rule => rule.live.map fun condition => (rule, condition)

section Reports
variable (toLowercase : String → String)

def RuleTarget.observation : RuleTarget → Option Observation
  | .process name pid => some (.process pid (toLowercase name))
  | .connection remoteIp port => some (.connection remoteIp port)
  | .file _ _ => none

def matchedBy (observed : ObservedActivity) (rule : DetectionRule)
    (condition : DetectionCondition) : List Observation :=
  (observedHits toLowercase rule.id condition observed).filterMap fun hit =>
    hit.target.observation toLowercase

end Reports

/-! The keys. -/

theorem separator_notMem_repr (n : Nat) : '\u001f' ∉ n.repr.toList := by
  intro member
  have digit := Text.repr_digits n _ member
  revert digit
  decide

theorem process_key (ruleId : String) (pid : UInt32) (name : String) :
    ((Observation.process pid name).key ruleId).toList =
      ruleId.toList ++ ("\u001fprocess\u001f".toList ++
        (pid.toNat.repr.toList ++ '\u001f' :: name.toList)) := by
  simp [Observation.key, ToString.toString]

theorem connection_key (ruleId : String) (remoteIp : String) (port : UInt16) :
    ((Observation.connection remoteIp port).key ruleId).toList =
      ruleId.toList ++ ("\u001fconnection\u001f".toList ++
        (remoteIp.toList ++ '\u001f' :: port.toNat.repr.toList)) := by
  simp [Observation.key, connectionKey, ToString.toString]

theorem process_not_connection {a b : List Char}
    (same : "\u001fprocess\u001f".toList ++ a = "\u001fconnection\u001f".toList ++ b) : False := by
  have second := congrArg (fun chars => chars[1]?) same
  revert second
  simp

/-- Within a rule a key tells the process or the peer. -/
theorem key_injective {ruleId : String} {o o' : Observation}
    (same : o.key ruleId = o'.key ruleId) : o = o' := by
  have chars := congrArg String.toList same
  cases o with
  | process pid name =>
    cases o' with
    | process pid' name' =>
      rw [process_key, process_key, List.append_cancel_left_eq, List.append_cancel_left_eq] at chars
      obtain ⟨pids, names⟩ :=
        Lines.cut_first (separator_notMem_repr _) (separator_notMem_repr _) chars
      have pids := UInt32.toNat_inj.mp (Text.repr_injective (String.toList_injective pids))
      rw [pids, String.toList_injective names]
    | connection remoteIp port =>
      rw [process_key, connection_key, List.append_cancel_left_eq] at chars
      exact (process_not_connection chars).elim
  | connection remoteIp port =>
    cases o' with
    | process pid' name' =>
      rw [process_key, connection_key, List.append_cancel_left_eq] at chars
      exact (process_not_connection chars.symm).elim
    | connection remoteIp' port' =>
      rw [connection_key, connection_key, List.append_cancel_left_eq,
        List.append_cancel_left_eq] at chars
      obtain ⟨peers, ports⟩ :=
        Lines.cut_last (separator_notMem_repr _) (separator_notMem_repr _) chars
      have ports := UInt16.toNat_inj.mp (Text.repr_injective (String.toList_injective ports))
      rw [ports, String.toList_injective peers]

section Evaluation
variable {toLowercase : String → String}

/-- What a condition matches is a process or a peer, and its key is under that. -/
theorem hit_observation {ruleId : String} {condition : DetectionCondition}
    {observed : ObservedActivity} {hit : Hit}
    (member : hit ∈ observedHits toLowercase ruleId condition observed) :
    ∃ o, hit.target.observation toLowercase = some o ∧ hit.key = o.key ruleId := by
  unfold observedHits at member
  cases kind : condition.conditionType with
  | processNameContains =>
    rw [kind] at member
    obtain ⟨process, _, rfl⟩ := List.mem_map.mp member
    exact ⟨_, rfl, rfl⟩
  | commandLineContains =>
    rw [kind] at member
    obtain ⟨process, _, rfl⟩ := List.mem_map.mp member
    exact ⟨_, rfl, rfl⟩
  | networkPort =>
    rw [kind] at member
    cases wanted : portOf condition with
    | none =>
      rw [wanted] at member
      cases member
    | some port =>
      rw [wanted] at member
      obtain ⟨connection, _, rfl⟩ := List.mem_map.mp member
      exact ⟨_, rfl, rfl⟩
  | fimPathMatch =>
    rw [kind] at member
    cases member
  | severityLevel =>
    rw [kind] at member
    cases member

/-- The keys of the hits are those of what the condition matches. -/
theorem key_matched {observed : ObservedActivity} {p : DetectionRule × DetectionCondition}
    {key : String} :
    key ∈ (observedHits toLowercase p.1.id p.2 observed).map Hit.key ↔
      ∃ o ∈ matchedBy toLowercase observed p.1 p.2, o.key p.1.id = key := by
  constructor
  · intro member
    obtain ⟨hit, among, rfl⟩ := List.mem_map.mp member
    obtain ⟨o, names, its⟩ := hit_observation among
    exact ⟨o, List.mem_filterMap.mpr ⟨hit, among, names⟩, its.symm⟩
  · intro found
    obtain ⟨o, matched, rfl⟩ := found
    obtain ⟨hit, among, names⟩ := List.mem_filterMap.mp matched
    obtain ⟨o', names', its⟩ := hit_observation among
    rw [names] at names'
    rw [Option.some.inj names']
    exact List.mem_map.mpr ⟨hit, among, its⟩

/- What one condition of a rule adds to what is found. -/
def foundBy (toLowercase : String → String) (context : ThreatContext)
    (p : DetectionRule × DetectionCondition) (observedHit : Option (String × List RuleTarget)) :
    List RuleMatch :=
  (((flaggedMatch toLowercase p.2 context).or observedHit).map fun said =>
    RuleMatch.mk p.1.id p.1.name p.1.severity.asStr said.1 said.2).toList

/- What is found by some of the conditions, and the memory after them. -/
def passFrom (toLowercase : String → String) (context : ThreatContext) (observed : ObservedActivity)
    (now : Nat) : List (DetectionRule × DetectionCondition) → RuleHitMemory →
    List RuleMatch × RuleHitMemory
  | [], memory => ([], memory)
  | p :: ps, memory =>
    let observedHit := observedMatch toLowercase p.1.id p.2 observed memory now
    let rest := passFrom toLowercase context observed now ps observedHit.2
    (foundBy toLowercase context p observedHit.1 ++ rest.1, rest.2)

theorem evaluateCondition_eq (context : ThreatContext) (observed : ObservedActivity) (now : Nat)
    (found : List RuleMatch) (memory : RuleHitMemory) (p : DetectionRule × DetectionCondition) :
    evaluateCondition toLowercase context observed now (found, memory) p.1 p.2 =
      (found ++ foundBy toLowercase context p
          (observedMatch toLowercase p.1.id p.2 observed memory now).1,
        (observedMatch toLowercase p.1.id p.2 observed memory now).2) := by
  cases said : (flaggedMatch toLowercase p.2 context).or
      (observedMatch toLowercase p.1.id p.2 observed memory now).1 with
  | none => simp [evaluateCondition, foundBy, said]
  | some said => simp [evaluateCondition, foundBy, said]

theorem foldl_passFrom (context : ThreatContext) (observed : ObservedActivity) (now : Nat)
    (ps : List (DetectionRule × DetectionCondition)) (found : List RuleMatch)
    (memory : RuleHitMemory) :
    ps.foldl (fun found p => evaluateCondition toLowercase context observed now found p.1 p.2)
        (found, memory) =
      (found ++ (passFrom toLowercase context observed now ps memory).1,
        (passFrom toLowercase context observed now ps memory).2) := by
  induction ps generalizing found memory with
  | nil => simp [passFrom]
  | cons p ps ih => rw [List.foldl_cons, evaluateCondition_eq, ih, passFrom, List.append_assoc]

theorem evaluateDetectionRules_eq (rules : List DetectionRule) (context : ThreatContext)
    (observed : ObservedActivity) (memory : RuleHitMemory) (now : Nat) :
    evaluateDetectionRules toLowercase rules context observed memory now =
      passFrom toLowercase context observed now (conditionsOf rules) memory := by
  have folded : _ = passFrom toLowercase context observed now (conditionsOf rules) memory :=
    foldl_passFrom context observed now (conditionsOf rules) [] memory
  rw [conditionsOf, List.foldl_flatMap] at folded
  simp only [List.foldl_map] at folded
  rw [evaluateDetectionRules, folded]
  rfl

/- The keys of what some of the conditions match. -/
def keysOf (toLowercase : String → String) (observed : ObservedActivity)
    (ps : List (DetectionRule × DetectionCondition)) : List String :=
  ps.flatMap fun p => (observedHits toLowercase p.1.id p.2 observed).map Hit.key

section Conditions
variable {context : ThreatContext} {observed : ObservedActivity} {now : Nat}
  {all : Finset String} {memory : RuleHitMemory}
  {p : DetectionRule × DetectionCondition} {ps : List (DetectionRule × DetectionCondition)}

theorem keysOf_cons : keysOf toLowercase observed (p :: ps) =
    (observedHits toLowercase p.1.id p.2 observed).map Hit.key ++
      keysOf toLowercase observed ps := List.flatMap_cons

theorem known_head (known : ∀ key ∈ keysOf toLowercase observed (p :: ps), key ∈ all) :
    ∀ hit ∈ observedHits toLowercase p.1.id p.2 observed, hit.key ∈ all := by
  intro hit member
  apply known
  rw [keysOf_cons]
  exact List.mem_append_left _ (List.mem_map_of_mem member)

theorem observedMatch_remembers (few : all.card < capacity) (within : Within all memory)
    (known : ∀ key ∈ keysOf toLowercase observed (p :: ps), key ∈ all) :
    Remembers now ((observedHits toLowercase p.1.id p.2 observed).map Hit.key) memory
      (observedMatch toLowercase p.1.id p.2 observed memory now).2 :=
  (reportHits_spec few within (known_head known)).1

theorem observedMatch_within (few : all.card < capacity) (within : Within all memory)
    (known : ∀ key ∈ keysOf toLowercase observed (p :: ps), key ∈ all) :
    Within all (observedMatch toLowercase p.1.id p.2 observed memory now).2 := by
  apply within_remembers within _ (observedMatch_remembers few within known)
  intro key member
  apply known
  rw [keysOf_cons]
  exact List.mem_append_left _ member

theorem known_tail (known : ∀ key ∈ keysOf toLowercase observed (p :: ps), key ∈ all) :
    ∀ key ∈ keysOf toLowercase observed ps, key ∈ all := by
  intro key member
  apply known
  rw [keysOf_cons]
  exact List.mem_append_right _ member

/-- The memory after the conditions. -/
theorem passFrom_remembers (few : all.card < capacity) (within : Within all memory)
    (known : ∀ key ∈ keysOf toLowercase observed ps, key ∈ all) :
    Remembers now (keysOf toLowercase observed ps) memory
      (passFrom toLowercase context observed now ps memory).2 := by
  induction ps generalizing memory with
  | nil => exact remembers_nil memory
  | cons p ps ih =>
    rw [keysOf_cons, passFrom]
    exact remembers_append (observedMatch_remembers few within known)
      (ih (observedMatch_within few within known) (known_tail known))

/-- What an engine flagged is reported. -/
theorem flagged_found {said : String × List RuleTarget} (member : p ∈ ps)
    (flagged : flaggedMatch toLowercase p.2 context = some said) :
    ∃ m ∈ (passFrom toLowercase context observed now ps memory).1,
      m.ruleId = p.1.id ∧ (m.matchedValue, m.targets) = said := by
  induction ps generalizing memory with
  | nil => cases member
  | cons q ps ih =>
    rw [passFrom]
    rcases List.mem_cons.mp member with here | later
    · subst here
      refine ⟨⟨p.1.id, p.1.name, p.1.severity.asStr, said.1, said.2⟩,
        List.mem_append_left _ ?_, rfl, rfl⟩
      rw [foundBy, flagged]
      exact List.mem_singleton.mpr rfl
    · obtain ⟨m, found, its⟩ := ih later
      exact ⟨m, List.mem_append_right _ found, its⟩

theorem targets_of_describe {found : List Hit} {said : String × List RuleTarget}
    (described : describe found = some said) : said.2 = found.map Hit.target := by
  cases found with
  | nil => cases described
  | cons first others =>
    rw [describe] at described
    rw [← Option.some.inj described]

theorem described {found : List Hit} {hit : Hit} (member : hit ∈ found) :
    ∃ said, describe found = some said := by
  cases found with
  | nil => cases member
  | cons first others => exact ⟨_, rfl⟩

/-- What is due is reported by the first condition that matches it, unless that one reports what
    an engine flagged. -/
theorem first_found (few : all.card < capacity) (within : Within all memory)
    (known : ∀ key ∈ keysOf toLowercase observed ps, key ∈ all) {key : String}
    (due : memory.due now key = true)
    (first : ps.find? (fun p =>
      ((observedHits toLowercase p.1.id p.2 observed).map Hit.key).contains key) = some p)
    (plain : flaggedMatch toLowercase p.2 context = none) :
    ∃ m ∈ (passFrom toLowercase context observed now ps memory).1, m.ruleId = p.1.id ∧
      ∃ hit ∈ observedHits toLowercase p.1.id p.2 observed,
        hit.key = key ∧ hit.target ∈ m.targets := by
  induction ps generalizing memory with
  | nil => cases first
  | cons q ps ih =>
    rw [passFrom]
    rw [List.find?_cons] at first
    split at first
    · rename_i matched
      have same : q = p := Option.some.inj first
      subst same
      obtain ⟨hit, among, its⟩ := List.mem_map.mp (List.contains_iff_mem.mp matched)
      subst its
      obtain ⟨_, reported_due, reported_all, _⟩ := reportHits_spec few within (known_head known)
      obtain ⟨reported, member, same⟩ := reported_all hit among due
      obtain ⟨said, describes⟩ := described member
      refine ⟨⟨q.1.id, q.1.name, q.1.severity.asStr, said.1, said.2⟩,
        List.mem_append_left _ ?_, rfl, reported, (reported_due reported member).1, same, ?_⟩
      · rw [foundBy, plain, observedMatch, describes]
        exact List.mem_singleton.mpr rfl
      · rw [targets_of_describe describes]
        exact List.mem_map_of_mem member
    · rename_i unmatched
      have other : key ∉ (observedHits toLowercase q.1.id q.2 observed).map Hit.key := by
        intro member
        rw [List.contains_iff_mem.mpr member] at unmatched
        cases unmatched
      have taken : Remembers now _ memory
          (observedMatch toLowercase q.1.id q.2 observed memory now).2 :=
        observedMatch_remembers few within known
      have still := due_other taken other
      obtain ⟨m, found, its⟩ :=
        ih (observedMatch_within few within known) (known_tail known) (still.trans due) first
      exact ⟨m, List.mem_append_right _ found, its⟩

/- The keys of what some of the matches report. -/
def reportKeys (toLowercase : String → String) (some_of : RuleMatch → Bool)
    (found : List RuleMatch) : List String :=
  (found.filter some_of).flatMap fun m =>
    (m.targets.filterMap fun t => t.observation toLowercase).map fun o => o.key m.ruleId

theorem reportKeys_append (some_of : RuleMatch → Bool) (found more : List RuleMatch) :
    reportKeys toLowercase some_of (found ++ more) =
      reportKeys toLowercase some_of found ++ reportKeys toLowercase some_of more := by
  rw [reportKeys, List.filter_append, List.flatMap_append, reportKeys, reportKeys]

theorem hit_keys {ruleId : String} {condition : DetectionCondition} {found : List Hit}
    (among : ∀ hit ∈ found, hit ∈ observedHits toLowercase ruleId condition observed) :
    ((found.map Hit.target).filterMap fun t => t.observation toLowercase).map
      (fun o => o.key ruleId) = found.map Hit.key := by
  induction found with
  | nil => rfl
  | cons hit found ih =>
    obtain ⟨o, names, its⟩ := hit_observation (among hit List.mem_cons_self)
    rw [List.map_cons, List.filterMap_cons_some names, List.map_cons, List.map_cons,
      ih fun other member => among other (List.mem_cons_of_mem hit member), its]

/-- The keys one condition's match reports: none, or those of the hits it describes. -/
theorem foundBy_keys {some_of : RuleMatch → Bool} {found : List Hit}
    (plain : ∀ m, some_of m = true → m.ruleId = p.1.id →
      flaggedMatch toLowercase p.2 context ≠ some (m.matchedValue, m.targets))
    (among : ∀ hit ∈ found, hit ∈ observedHits toLowercase p.1.id p.2 observed) :
    reportKeys toLowercase some_of (foundBy toLowercase context p (describe found)) = [] ∨
      reportKeys toLowercase some_of (foundBy toLowercase context p (describe found)) =
        found.map Hit.key := by
  cases flagged : flaggedMatch toLowercase p.2 context with
  | some said =>
    left
    rw [foundBy, flagged]
    cases taken : some_of ⟨p.1.id, p.1.name, p.1.severity.asStr, said.1, said.2⟩ with
    | false => simp [reportKeys, taken]
    | true => exact absurd flagged (plain _ taken rfl)
  | none =>
    cases described : describe found with
    | none =>
      left
      rw [foundBy, flagged]
      rfl
    | some said =>
      rw [foundBy, flagged]
      cases taken : some_of ⟨p.1.id, p.1.name, p.1.severity.asStr, said.1, said.2⟩ with
      | false =>
        left
        simp [reportKeys, taken]
      | true =>
        right
        have keys := hit_keys among
        rw [← targets_of_describe described] at keys
        simpa [reportKeys, taken] using keys

/-- What is reported as observations: each key once, and only what was due. -/
theorem plain_found (few : all.card < capacity) (within : Within all memory)
    (known : ∀ key ∈ keysOf toLowercase observed ps, key ∈ all) {some_of : RuleMatch → Bool}
    (plain : ∀ p ∈ ps, ∀ m, some_of m = true → m.ruleId = p.1.id →
      flaggedMatch toLowercase p.2 context ≠ some (m.matchedValue, m.targets)) :
    let keys := reportKeys toLowercase some_of
      (passFrom toLowercase context observed now ps memory).1
    keys.Nodup ∧ ∀ key ∈ keys, key ∈ keysOf toLowercase observed ps ∧ memory.due now key = true := by
  induction ps generalizing memory with
  | nil => simp [passFrom, reportKeys]
  | cons p ps ih =>
    have taken : Remembers now _ memory
        (observedMatch toLowercase p.1.id p.2 observed memory now).2 :=
      observedMatch_remembers few within known
    obtain ⟨later_once, later_due⟩ :=
      ih (observedMatch_within few within known) (known_tail known)
        fun q member => plain q (List.mem_cons_of_mem p member)
    obtain ⟨_, reported_due, _, once⟩ := reportHits_spec few within (known_head known)
    have here := foundBy_keys (plain p List.mem_cons_self)
      fun hit member => (reported_due hit member).1
    have here_once : (reportKeys toLowercase some_of (foundBy toLowercase context p
        (observedMatch toLowercase p.1.id p.2 observed memory now).1)).Nodup := by
      rcases here with none | those
      · rw [observedMatch, none]
        exact List.nodup_nil
      · rw [observedMatch, those]
        exact once
    have here_due : ∀ key ∈ reportKeys toLowercase some_of (foundBy toLowercase context p
        (observedMatch toLowercase p.1.id p.2 observed memory now).1),
        key ∈ (observedHits toLowercase p.1.id p.2 observed).map Hit.key ∧
          memory.due now key = true := by
      intro key member
      rcases here with none | those
      · rw [observedMatch, none] at member
        cases member
      · rw [observedMatch, those] at member
        obtain ⟨hit, among, rfl⟩ := List.mem_map.mp member
        obtain ⟨its, due⟩ := reported_due hit among
        exact ⟨List.mem_map_of_mem its, due⟩
    simp only [passFrom, reportKeys_append, keysOf_cons]
    refine ⟨List.nodup_append.mpr ⟨here_once, later_once, ?_⟩, ?_⟩
    · intro a first b second same
      subst same
      exact (due_before taken (later_due a second).2).1 (here_due a first).1
    · intro key member
      rcases List.mem_append.mp member with first | second
      · exact ⟨List.mem_append_left _ (here_due key first).1, (here_due key first).2⟩
      · obtain ⟨its, due⟩ := later_due key second
        exact ⟨List.mem_append_right _ its, (due_before taken due).2⟩

end Conditions

/-! What the matches are about. -/

section Targets
variable {context : ThreatContext} {observed : ObservedActivity} {now : Nat}

theorem reportHits_mem {found : List Hit} {memory : RuleHitMemory} {hit : Hit}
    (member : hit ∈ (reportHits now found memory).1) : hit ∈ found := by
  induction found generalizing memory with
  | nil => cases member
  | cons first later ih =>
    rw [reportHits] at member
    simp only at member
    split at member
    · rcases List.mem_cons.mp member with here | rest
      · exact List.mem_cons.mpr (Or.inl here)
      · exact List.mem_cons_of_mem first (ih rest)
    · exact List.mem_cons_of_mem first (ih member)

/-- A match is about what an engine flagged or about what was observed. -/
theorem match_origin {ps : List (DetectionRule × DetectionCondition)} {memory : RuleHitMemory}
    {m : RuleMatch} (member : m ∈ (passFrom toLowercase context observed now ps memory).1)
    {t : RuleTarget} (target : t ∈ m.targets) :
    (∃ condition said, flaggedMatch toLowercase condition context = some said ∧ t ∈ said.2) ∨
      ∃ ruleId condition, ∃ hit ∈ observedHits toLowercase ruleId condition observed,
        t = hit.target := by
  induction ps generalizing memory with
  | nil => cases member
  | cons p ps ih =>
    rw [passFrom] at member
    rcases List.mem_append.mp member with here | later
    · rw [foundBy] at here
      cases flagged : flaggedMatch toLowercase p.2 context with
      | some said =>
        rw [flagged] at here
        have same := List.mem_singleton.mp here
        subst same
        exact Or.inl ⟨p.2, said, flagged, target⟩
      | none =>
        rw [flagged, Option.none_or, observedMatch] at here
        cases described : describe
            (reportHits now (observedHits toLowercase p.1.id p.2 observed) memory).1 with
        | none =>
          rw [described] at here
          cases here
        | some said =>
          rw [described] at here
          have same := List.mem_singleton.mp here
          subst same
          simp only [targets_of_describe described] at target
          obtain ⟨hit, reported, rfl⟩ := List.mem_map.mp target
          exact Or.inr ⟨p.1.id, p.2, hit, reportHits_mem reported, rfl⟩
    · exact ih later

/-- What is observed names a process or a peer of the observed activity. -/
theorem hit_origin {ruleId : String} {condition : DetectionCondition} {hit : Hit}
    (member : hit ∈ observedHits toLowercase ruleId condition observed) :
    (∃ p ∈ observed.processes, hit.target = .process p.name p.pid) ∨
      ∃ c ∈ observed.connections, ∃ port, hit.target = .connection c.remoteIp port := by
  unfold observedHits at member
  cases kind : condition.conditionType with
  | processNameContains =>
    rw [kind] at member
    obtain ⟨p, among, rfl⟩ := List.mem_map.mp member
    exact Or.inl ⟨p, (List.mem_filter.mp among).1, rfl⟩
  | commandLineContains =>
    rw [kind] at member
    obtain ⟨p, among, rfl⟩ := List.mem_map.mp member
    exact Or.inl ⟨p, (List.mem_filter.mp among).1, rfl⟩
  | networkPort =>
    rw [kind] at member
    cases wanted : portOf condition with
    | none =>
      rw [wanted] at member
      cases member
    | some port =>
      rw [wanted] at member
      obtain ⟨c, among, rfl⟩ := List.mem_map.mp member
      exact Or.inr ⟨c, (List.mem_filter.mp among).1, port, rfl⟩
  | fimPathMatch =>
    rw [kind] at member
    cases member
  | severityLevel =>
    rw [kind] at member
    cases member

end Targets

end Evaluation

end SentinelAgent.Response
