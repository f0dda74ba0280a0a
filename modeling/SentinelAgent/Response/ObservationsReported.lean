import Mathlib.Data.Finset.Dedup
import Mathlib.Data.List.Find
import SentinelAgent.Library.Runs
import SentinelAgent.Response.Observations

/- That each observation a rule matches is reported when it is first seen, and as such only once
   in the reminder delay: where no engine's finding about something else takes its place. -/
namespace SentinelAgent.Response
open Runs

/- A pass of the main loop, so much time after the last one. -/
structure Pass where
  elapsed : Nat
  rules : List DetectionRule
  context : ThreatContext
  observed : ObservedActivity

/- The memory, and when each rule's observations were first seen or reported as such. -/
structure Watch where
  memory : RuleHitMemory
  clock : Nat
  known : List ((String × Observation) × Nat)

def Watch.start (now : Nat) : Watch := ⟨∅, now, []⟩

def Watch.seen (watch : Watch) : List (String × Observation) := watch.known.map Prod.fst

section Passes
variable (toLowercase : String → String)

/- Each rule's observations in a pass. -/
def observations (pass : Pass) : List (String × Observation) :=
  (conditionsOf pass.rules).flatMap fun p =>
    (matchedBy toLowercase pass.observed p.1 p.2).map fun o => (p.1.id, o)

/- A match that reports what an engine flagged. -/
def fromEngine (pass : Pass) (found : RuleMatch) : Bool :=
  (conditionsOf pass.rules).any fun p => p.1.id == found.ruleId &&
    flaggedMatch toLowercase p.2 pass.context == some (found.matchedValue, found.targets)

def plainReports (pass : Pass) (found : List RuleMatch) : List (String × Observation) :=
  (found.filter fun m => !fromEngine toLowercase pass m).flatMap fun m =>
    (m.targets.filterMap fun t => t.observation toLowercase).map fun o => (m.ruleId, o)

def watchPass (watch : Watch) (pass : Pass) : List RuleMatch × RuleHitMemory :=
  evaluateDetectionRules toLowercase pass.rules pass.context pass.observed watch.memory
    (watch.clock + pass.elapsed)

/- What is seen for the first time in a pass, or reported as an observation. -/
def told (watch : Watch) (pass : Pass) : List (String × Observation) :=
  (observations toLowercase pass).filter fun o => !watch.seen.contains o ||
    (plainReports toLowercase pass (watchPass toLowercase watch pass).1).contains o

def step (watch : Watch) (pass : Pass) : Watch :=
  let now := watch.clock + pass.elapsed
  ⟨(watchPass toLowercase watch pass).2, now,
    watch.known ++ (told toLowercase watch pass).map fun o => (o, now)⟩

/- An observation is among the targets of a match of the rule, or an engine's finding about it
   is what a match of the rule reports. -/
def Reports (pass : Pass) (found : List RuleMatch) (o : String × Observation) : Prop :=
  ∃ m ∈ found, m.ruleId = o.1 ∧
    (some o.2 ∈ m.targets.map (fun t => t.observation toLowercase) ∨
      fromEngine toLowercase pass m = true ∧ ∃ t ∈ m.targets, t.about o.2 = true)

/- Nothing new goes unreported, and nothing is reported as an observation too soon. -/
def Faithful (watch : Watch) (pass : Pass) : Prop :=
  let found := (watchPass toLowercase watch pass).1
  (∀ o ∈ observations toLowercase pass, o ∉ watch.seen → Reports toLowercase pass found o) ∧
    (∀ o ∈ plainReports toLowercase pass found, ∀ time, (o, time) ∈ watch.known →
      reminder ≤ watch.clock + pass.elapsed - time) ∧
    (plainReports toLowercase pass found).Nodup

/- The first condition of a rule that matches an observation: it is what takes it into the
   memory. -/
def firstMatch (pass : Pass) (o : String × Observation) :
    Option (DetectionRule × DetectionCondition) :=
  (conditionsOf pass.rules).find? fun p =>
    p.1.id == o.1 && (matchedBy toLowercase pass.observed p.1 p.2).contains o.2

def flaggedAbout (pass : Pass) (o : String × Observation) : Bool :=
  (conditionsOf pass.rules).any fun p => p.1.id == o.1 &&
    (flaggedMatch toLowercase p.2 pass.context).any fun said => said.2.any (·.about o.2)

/- What the condition reports is an engine's finding, and none is about the observation. -/
def masked (pass : Pass) (o : String × Observation) : Bool :=
  ((firstMatch toLowercase pass o).any fun p =>
    (flaggedMatch toLowercase p.2 pass.context).isSome) && !flaggedAbout toLowercase pass o

/- Nothing new is masked, the rules share no key and the memory has room. -/
def Unmasked (watch : Watch) (pass : Pass) : Prop :=
  (∀ o ∈ observations toLowercase pass, o ∉ watch.seen → masked toLowercase pass o = false) ∧
    (∀ o ∈ watch.seen ++ observations toLowercase pass,
      ∀ o' ∈ watch.seen ++ observations toLowercase pass,
        o.2.key o.1 = o'.2.key o'.1 → o.1 = o'.1) ∧
    (watch.seen ++ observations toLowercase pass).toFinset.card < capacity

end Passes

/- The memory holds what is known, and each of it since it was last reported. -/
structure Sound (watch : Watch) : Prop where
  remembered : ∀ key time, watch.memory.lookup key = some time →
    ∃ o ∈ watch.seen, o.2.key o.1 = key
  known : ∀ o time, (o, time) ∈ watch.known → time ≤ watch.clock ∧
    ∃ last, time ≤ last ∧ watch.memory.lookup (o.2.key o.1) = some last

theorem sound_start (now : Nat) : Sound (Watch.start now) := by
  refine ⟨?_, ?_⟩
  · intro key time found
    cases found
  · intro o time member
    cases member

section Steps
variable {toLowercase : String → String} {watch : Watch} {pass : Pass}

theorem mem_observations {o : String × Observation} : o ∈ observations toLowercase pass ↔
    ∃ p ∈ conditionsOf pass.rules, p.1.id = o.1 ∧
      o.2 ∈ matchedBy toLowercase pass.observed p.1 p.2 := by
  constructor
  · intro member
    obtain ⟨p, among, its⟩ := List.mem_flatMap.mp member
    obtain ⟨which, matched, rfl⟩ := List.mem_map.mp its
    exact ⟨p, among, rfl, matched⟩
  · intro found
    obtain ⟨p, among, its, matched⟩ := found
    refine List.mem_flatMap.mpr ⟨p, among, List.mem_map.mpr ⟨o.2, matched, ?_⟩⟩
    rw [its]

theorem mem_keysOf {key : String} :
    key ∈ keysOf toLowercase pass.observed (conditionsOf pass.rules) ↔
      ∃ o ∈ observations toLowercase pass, o.2.key o.1 = key := by
  constructor
  · intro member
    obtain ⟨p, among, its⟩ := List.mem_flatMap.mp member
    obtain ⟨o, matched, rfl⟩ := key_matched.mp its
    exact ⟨(p.1.id, o), mem_observations.mpr ⟨p, among, rfl, matched⟩, rfl⟩
  · intro found
    obtain ⟨o, member, rfl⟩ := found
    obtain ⟨p, among, its, matched⟩ := mem_observations.mp member
    refine List.mem_flatMap.mpr ⟨p, among, key_matched.mpr ⟨o.2, matched, ?_⟩⟩
    rw [its]

/-- The memory has room for a pass. -/
theorem room (sound : Sound watch) (unmasked : Unmasked toLowercase watch pass) :
    ∃ all : Finset String, all.card < capacity ∧ Within all watch.memory ∧
      ∀ key ∈ keysOf toLowercase pass.observed (conditionsOf pass.rules), key ∈ all := by
  refine ⟨(watch.seen ++ observations toLowercase pass).toFinset.image fun o => o.2.key o.1,
    Nat.lt_of_le_of_lt Finset.card_image_le unmasked.2.2, ?_, ?_⟩
  · intro key time found
    obtain ⟨o, member, its⟩ := sound.remembered key time found
    exact Finset.mem_image.mpr ⟨o, List.mem_toFinset.mpr (List.mem_append_left _ member), its⟩
  · intro key member
    obtain ⟨o, matched, its⟩ := mem_keysOf.mp member
    exact Finset.mem_image.mpr ⟨o, List.mem_toFinset.mpr (List.mem_append_right _ matched), its⟩

/-- What is new is due. -/
theorem new_due (sound : Sound watch) (unmasked : Unmasked toLowercase watch pass)
    {o : String × Observation} (member : o ∈ observations toLowercase pass)
    (unseen : o ∉ watch.seen) (now : Nat) : watch.memory.due now (o.2.key o.1) = true := by
  apply due_unknown
  cases found : watch.memory.lookup (o.2.key o.1) with
  | none => rfl
  | some time =>
    obtain ⟨o', seen, same⟩ := sound.remembered _ time found
    have rule := unmasked.2.1 o' (List.mem_append_left _ seen) o (List.mem_append_right _ member) same
    rw [rule] at same
    have its : o' = o := Prod.ext rule (key_injective same)
    rw [its] at seen
    exact absurd seen unseen

/-- The first condition that matches an observation is the first with its key. -/
theorem firstMatch_eq (unmasked : Unmasked toLowercase watch pass) {o : String × Observation}
    (member : o ∈ observations toLowercase pass) :
    firstMatch toLowercase pass o = (conditionsOf pass.rules).find? fun p =>
      ((observedHits toLowercase p.1.id p.2 pass.observed).map Hit.key).contains (o.2.key o.1) := by
  apply List.find?_congr
  intro p among
  rw [Bool.eq_iff_iff, Bool.and_eq_true, beq_iff_eq, List.contains_iff_mem, List.contains_iff_mem,
    key_matched]
  constructor
  · intro both
    exact ⟨o.2, both.2, by rw [both.1]⟩
  · intro found
    obtain ⟨o', matched, same⟩ := found
    have here : (p.1.id, o') ∈ observations toLowercase pass :=
      mem_observations.mpr ⟨p, among, rfl, matched⟩
    have rule := unmasked.2.1 _ (List.mem_append_right _ here) o (List.mem_append_right _ member) same
    simp only at rule same
    rw [rule] at same
    rw [← key_injective same]
    exact ⟨rule, matched⟩

theorem flagged_not_plain {p : DetectionRule × DetectionCondition}
    (among : p ∈ conditionsOf pass.rules) (m : RuleMatch)
    (plain : (!fromEngine toLowercase pass m) = true) (rule : m.ruleId = p.1.id) :
    flaggedMatch toLowercase p.2 pass.context ≠ some (m.matchedValue, m.targets) := by
  intro flagged
  have engine : fromEngine toLowercase pass m = true := by
    rw [fromEngine, List.any_eq_true]
    exact ⟨p, among, by simp [rule, flagged]⟩
  rw [engine] at plain
  cases plain

theorem plainReports_keys (found : List RuleMatch) :
    (plainReports toLowercase pass found).map (fun o => o.2.key o.1) =
      reportKeys toLowercase (fun m => !fromEngine toLowercase pass m) found := by
  rw [plainReports, reportKeys, List.map_flatMap]
  simp only [List.map_map]
  rfl

/-- What a pass reports as observations was due, and is reported once. -/
theorem plainReports_spec (sound : Sound watch) (unmasked : Unmasked toLowercase watch pass) :
    let plain := plainReports toLowercase pass (watchPass toLowercase watch pass).1
    plain.Nodup ∧ ∀ o ∈ plain,
      o.2.key o.1 ∈ keysOf toLowercase pass.observed (conditionsOf pass.rules) ∧
        watch.memory.due (watch.clock + pass.elapsed) (o.2.key o.1) = true := by
  obtain ⟨all, few, within, known⟩ := room sound unmasked
  have unflagged : ∀ p ∈ conditionsOf pass.rules, ∀ m,
      (!fromEngine toLowercase pass m) = true → m.ruleId = p.1.id →
        flaggedMatch toLowercase p.2 pass.context ≠ some (m.matchedValue, m.targets) :=
    fun p among m => flagged_not_plain among m
  obtain ⟨once, due⟩ := plain_found few within known unflagged
  rw [← evaluateDetectionRules_eq, ← plainReports_keys] at once due
  refine ⟨once.of_map, ?_⟩
  intro o member
  exact due _ (List.mem_map.mpr ⟨o, member, rfl⟩)

/-- What an engine flagged about an observation is reported. -/
theorem about_reported {o : String × Observation} (flagged : flaggedAbout toLowercase pass o = true) :
    Reports toLowercase pass (watchPass toLowercase watch pass).1 o := by
  obtain ⟨p, among, both⟩ := List.any_eq_true.mp flagged
  rw [Bool.and_eq_true, beq_iff_eq] at both
  obtain ⟨rule, about⟩ := both
  cases found : flaggedMatch toLowercase p.2 pass.context with
  | none =>
    rw [found] at about
    cases about
  | some said =>
    rw [found, Option.any_some] at about
    obtain ⟨t, target, same⟩ := List.any_eq_true.mp about
    have reports : ∃ m ∈ (watchPass toLowercase watch pass).1,
        m.ruleId = p.1.id ∧ (m.matchedValue, m.targets) = said := by
      rw [watchPass, evaluateDetectionRules_eq]
      exact flagged_found among found
    obtain ⟨m, reported, of_rule, is_said⟩ := reports
    subst is_said
    refine ⟨m, reported, of_rule.trans rule, Or.inr ⟨?_, t, target, same⟩⟩
    rw [fromEngine, List.any_eq_true]
    exact ⟨p, among, by simp [of_rule, found]⟩

/-- An observation seen for the first time is reported. -/
theorem new_reported (sound : Sound watch) (unmasked : Unmasked toLowercase watch pass)
    {o : String × Observation} (member : o ∈ observations toLowercase pass)
    (unseen : o ∉ watch.seen) :
    Reports toLowercase pass (watchPass toLowercase watch pass).1 o := by
  obtain ⟨all, few, within, known⟩ := room sound unmasked
  have due := new_due sound unmasked member unseen (watch.clock + pass.elapsed)
  have clear := unmasked.1 o member unseen
  obtain ⟨q, among, its, matched⟩ := mem_observations.mp member
  cases first : firstMatch toLowercase pass o with
  | none =>
    have none := List.find?_eq_none.mp first q among
    simp [its, matched] at none
  | some p =>
    have its : p.1.id = o.1 := by
      have holds := List.find?_some first
      rw [Bool.and_eq_true, beq_iff_eq] at holds
      exact holds.1
    cases flagged : flaggedMatch toLowercase p.2 pass.context with
    | none =>
      rw [firstMatch_eq unmasked member] at first
      obtain ⟨m, reported, rule, hit, is_hit, same, target⟩ :=
        first_found few within known due first flagged
      rw [← evaluateDetectionRules_eq] at reported
      obtain ⟨o', names, its'⟩ := hit_observation is_hit
      rw [its', ← its] at same
      rw [key_injective same] at names
      exact ⟨m, reported, rule.trans its, Or.inl (List.mem_map.mpr ⟨hit.target, target, names⟩)⟩
    | some said =>
      rw [masked, first, Option.any_some, flagged] at clear
      exact about_reported (by simpa using clear)

theorem mem_told {o : String × Observation} : o ∈ told toLowercase watch pass ↔
    o ∈ observations toLowercase pass ∧ (o ∉ watch.seen ∨
      o ∈ plainReports toLowercase pass (watchPass toLowercase watch pass).1) := by
  rw [told, List.mem_filter]
  simp

theorem step_seen : (step toLowercase watch pass).seen = watch.seen ++ told toLowercase watch pass := by
  simp only [step, Watch.seen, List.map_append, List.map_map]
  rw [Function.comp_def, List.map_id']

/-- The watch stays sound over a pass. -/
theorem sound_step (sound : Sound watch) (unmasked : Unmasked toLowercase watch pass) :
    Sound (step toLowercase watch pass) := by
  obtain ⟨all, few, within, known⟩ := room sound unmasked
  obtain ⟨_, plain_due⟩ := plainReports_spec sound unmasked
  have taken : Remembers (watch.clock + pass.elapsed)
      (keysOf toLowercase pass.observed (conditionsOf pass.rules)) watch.memory
      (watchPass toLowercase watch pass).2 := by
    rw [watchPass, evaluateDetectionRules_eq]
    exact passFrom_remembers few within known
  have seen_after : ∀ o ∈ watch.seen ++ observations toLowercase pass,
      o ∈ (step toLowercase watch pass).seen := by
    intro o member
    rw [step_seen]
    by_cases seen : o ∈ watch.seen
    · exact List.mem_append_left _ seen
    · rcases List.mem_append.mp member with before | here
      · exact absurd before seen
      · exact List.mem_append_right _ (mem_told.mpr ⟨here, Or.inl seen⟩)
  refine ⟨?_, ?_⟩
  · intro key time found
    have lookup : (if key ∈ keysOf toLowercase pass.observed (conditionsOf pass.rules) ∧
        watch.memory.due (watch.clock + pass.elapsed) key = true
        then some (watch.clock + pass.elapsed) else watch.memory.lookup key) = some time := by
      rw [← taken key]
      exact found
    split at lookup
    · rename_i both
      obtain ⟨o, member, its⟩ := mem_keysOf.mp both.1
      exact ⟨o, seen_after o (List.mem_append_right _ member), its⟩
    · obtain ⟨o, member, its⟩ := sound.remembered key time lookup
      exact ⟨o, seen_after o (List.mem_append_left _ member), its⟩
  · intro o time member
    have lookup := taken (o.2.key o.1)
    rcases List.mem_append.mp member with before | here
    · obtain ⟨past, last, later, found⟩ := sound.known o time before
      refine ⟨Nat.le_add_right_of_le past, ?_⟩
      split at lookup
      · exact ⟨_, Nat.le_add_right_of_le past, lookup⟩
      · exact ⟨last, later, lookup.trans found⟩
    · obtain ⟨o', told, same⟩ := List.mem_map.mp here
      cases same
      have due : o.2.key o.1 ∈ keysOf toLowercase pass.observed (conditionsOf pass.rules) ∧
          watch.memory.due (watch.clock + pass.elapsed) (o.2.key o.1) = true := by
        obtain ⟨matched, unseen | plain⟩ := mem_told.mp told
        · exact ⟨mem_keysOf.mpr ⟨o, matched, rfl⟩, new_due sound unmasked matched unseen _⟩
        · exact plain_due o plain
      rw [if_pos due] at lookup
      exact ⟨Nat.le_refl _, _, Nat.le_refl _, lookup⟩

theorem faithful_pass (sound : Sound watch) (unmasked : Unmasked toLowercase watch pass) :
    Faithful toLowercase watch pass := by
  obtain ⟨once, due⟩ := plainReports_spec sound unmasked
  refine ⟨fun o member unseen => new_reported sound unmasked member unseen, ?_, once⟩
  intro o member time known
  obtain ⟨_, last, later, found⟩ := sound.known o time known
  have late := due_iff.mp (due o member).2 last found
  omega

end Steps

/-- In every run of passes in which nothing new is masked, each observation a rule matches is
    reported in the pass it is first seen in, and then as such once in the reminder delay. -/
theorem observations_reported (toLowercase : String → String) (now : Nat) (passes : List Pass)
    (unmasked : Along (step toLowercase) (Unmasked toLowercase) (Watch.start now) passes) :
    Along (step toLowercase) (Faithful toLowercase) (Watch.start now) passes :=
  along_imp (fun _ _ => faithful_pass) (fun _ _ => sound_step) (sound_start now) unmasked

section Netcat

/- A rule on the name of a process. -/
def netcatRule : DetectionRule :=
  ⟨"r", "netcat", .high, [⟨.processNameContains, "nc"⟩], [], true⟩

def netcat (pid : UInt32) : ProcessInfo := ⟨"nc", pid, "nc -l 4444"⟩

def netcatPass (flagged observed : List UInt32) : Pass :=
  ⟨0, [netcatRule], ⟨flagged.map netcat, [], []⟩, ⟨observed.map netcat, []⟩⟩

theorem observations_reported_netcat :
    Along (step Text.toAsciiLowercase) (Faithful Text.toAsciiLowercase) (Watch.start 0)
      [netcatPass [77] [77], netcatPass [] [77, 78]] :=
  observations_reported Text.toAsciiLowercase 0 [netcatPass [77] [77], netcatPass [] [77, 78]]
    (by unfold Along Along Unmasked; decide)

/-- Beside a process that an engine flagged another one goes unreported, in that pass and in the
    next one, in which nothing is flagged. -/
theorem flagged_process_hides_another :
    (observations Text.toAsciiLowercase (netcatPass [77] [77, 78])).toFinset.card < capacity ∧
      ¬ Faithful Text.toAsciiLowercase (Watch.start 0) (netcatPass [77] [77, 78]) ∧
      (watchPass Text.toAsciiLowercase
        (step Text.toAsciiLowercase (Watch.start 0) (netcatPass [77] [77, 78]))
        (netcatPass [] [77, 78])).1.isEmpty = true := by
  refine ⟨by decide, ?_, by decide⟩
  intro faithful
  have reported := faithful.1 ("r", .process 78 "nc") (by decide) (by decide)
  revert reported
  unfold Reports
  decide

end Netcat

end SentinelAgent.Response
