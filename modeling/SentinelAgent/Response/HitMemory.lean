import SentinelAgent.Library.Runs
import SentinelAgent.Response.DetectionRules

/- What the memory of a rule's observations holds after more of them: those that were due are
   remembered from then on, and once there are too many the oldest are forgotten. -/
namespace SentinelAgent.Response
open Maps (Map)
open Runs

/- Whether an observation is to be reported. -/
def RuleHitMemory.due (memory : RuleHitMemory) (now : Nat) (key : String) : Bool :=
  !(memory.lookup key).any fun time => decide (now - time < reminder)

/- The memory after observations under some keys. -/
def Remembers (now : Nat) (keys : List String) (before after : RuleHitMemory) : Prop :=
  ∀ key, after.lookup key =
    if key ∈ keys ∧ before.due now key = true then some now else before.lookup key

/- All that is remembered is under some of these keys. -/
def Within (all : Finset String) (memory : RuleHitMemory) : Prop :=
  ∀ key time, memory.lookup key = some time → key ∈ all

theorem due_iff {memory : RuleHitMemory} {now : Nat} {key : String} :
    memory.due now key = true ↔ ∀ time, memory.lookup key = some time → reminder ≤ now - time := by
  unfold RuleHitMemory.due
  cases memory.lookup key with
  | none => simp
  | some time => simp

theorem due_unknown {memory : RuleHitMemory} {now : Nat} {key : String}
    (unknown : memory.lookup key = none) : memory.due now key = true := by
  apply due_iff.mpr
  intro time found
  rw [unknown] at found
  cases found

theorem not_due_now {memory : RuleHitMemory} {now : Nat} {key : String}
    (found : memory.lookup key = some now) : memory.due now key = false := by
  by_contra due
  have late := due_iff.mp (Bool.eq_true_of_not_eq_false due) now found
  have some_time : 0 < reminder := by decide
  omega

section Keys
variable {now : Nat} {keys more : List String} {before after later : RuleHitMemory}

theorem remembers_nil (memory : RuleHitMemory) : Remembers now [] memory memory := by
  intro key
  simp

theorem due_other (remembers : Remembers now keys before after) {key : String}
    (other : key ∉ keys) : after.due now key = before.due now key := by
  have same : after.lookup key = before.lookup key := by
    rw [remembers key, if_neg fun both => other both.1]
  rw [RuleHitMemory.due, same, RuleHitMemory.due]

theorem not_due_again (remembers : Remembers now keys before after) {key : String}
    (member : key ∈ keys) : after.due now key = false := by
  have found := remembers key
  by_cases due : before.due now key = true
  · rw [if_pos ⟨member, due⟩] at found
    exact not_due_now found
  · rw [if_neg fun both => due both.2] at found
    rw [RuleHitMemory.due, found]
    exact Bool.eq_false_of_not_eq_true due

theorem due_before (remembers : Remembers now keys before after) {key : String}
    (due : after.due now key = true) : key ∉ keys ∧ before.due now key = true := by
  by_cases member : key ∈ keys
  · rw [not_due_again remembers member] at due
    cases due
  · exact ⟨member, by rwa [← due_other remembers member]⟩

theorem remembers_append (first : Remembers now keys before after)
    (second : Remembers now more after later) : Remembers now (keys ++ more) before later := by
  intro key
  rw [second key, first key]
  by_cases member : key ∈ keys
  · have again := not_due_again first member
    simp [member, again]
  · simp [member, due_other first member]

theorem within_remembers {all : Finset String} (within : Within all before)
    (known : ∀ key ∈ keys, key ∈ all) (remembers : Remembers now keys before after) :
    Within all after := by
  intro key time found
  rw [remembers key] at found
  split at found
  · rename_i both
    exact known key both.1
  · exact within key time found

end Keys

section Reports
variable {all : Finset String} {memory : RuleHitMemory} {now : Nat}

theorem report_spec (few : all.card < capacity) (within : Within all memory) (key : String) :
    (memory.report key now).1 = memory.due now key ∧
      Remembers now [key] memory (memory.report key now).2 := by
  have room : ¬ capacity ≤ memory.size := by
    have bound := Maps.size_le_card within
    omega
  by_cases recent : ((memory.lookup key).any fun time => decide (now - time < reminder)) = true
  · have not_due : memory.due now key = false := by rw [RuleHitMemory.due, recent]; rfl
    have kept : memory.report key now = (false, memory) := by rw [RuleHitMemory.report, if_pos recent]
    refine ⟨by rw [kept, not_due], ?_⟩
    intro other
    rw [kept]
    by_cases same : other = key
    · subst same
      simp [not_due]
    · simp [same]
  · have due : memory.due now key = true := by
      rw [RuleHitMemory.due, Bool.eq_false_of_not_eq_true recent]; rfl
    have taken : memory.report key now = (true, memory.insert key now) := by
      rw [RuleHitMemory.report, if_neg recent, if_neg room]
    refine ⟨by rw [taken, due], ?_⟩
    intro other
    rw [taken, Maps.lookup_insert_eq]
    by_cases same : other = key
    · subst same
      simp [due]
    · simp [same]

/-- What is reported of some hits: each key that is due once, and nothing else. -/
theorem reportHits_spec (few : all.card < capacity) {found : List Hit}
    (within : Within all memory) (known : ∀ hit ∈ found, hit.key ∈ all) :
    Remembers now (found.map Hit.key) memory (reportHits now found memory).2 ∧
      (∀ hit ∈ (reportHits now found memory).1, hit ∈ found ∧ memory.due now hit.key = true) ∧
      (∀ hit ∈ found, memory.due now hit.key = true →
        ∃ first ∈ (reportHits now found memory).1, first.key = hit.key) ∧
      ((reportHits now found memory).1.map Hit.key).Nodup := by
  induction found generalizing memory with
  | nil => simp [reportHits, remembers_nil]
  | cons hit later ih =>
    have spec : (memory.report hit.key now).1 = memory.due now hit.key ∧
        Remembers now [hit.key] memory (memory.report hit.key now).2 :=
      report_spec few within hit.key
    obtain ⟨reported, taken⟩ := spec
    have within' : Within all (memory.report hit.key now).2 :=
      within_remembers within (fun key member => by
        rw [List.mem_singleton.mp member]
        exact known hit List.mem_cons_self) taken
    obtain ⟨rest_taken, rest_due, rest_all, rest_once⟩ := ih within' fun other member =>
      known other (List.mem_cons_of_mem hit member)
    rw [reportHits]
    refine ⟨remembers_append taken rest_taken, ?_, ?_, ?_⟩
    · intro other member
      by_cases due : memory.due now hit.key = true
      · simp only [reported, due, if_true] at member
        rcases List.mem_cons.mp member with same | rest
        · rw [same]
          exact ⟨List.mem_cons_self, due⟩
        · obtain ⟨among, still⟩ := rest_due other rest
          exact ⟨List.mem_cons_of_mem hit among, (due_before taken still).2⟩
      · simp only [reported, due] at member
        obtain ⟨among, still⟩ := rest_due other member
        exact ⟨List.mem_cons_of_mem hit among, (due_before taken still).2⟩
    · intro other member due
      by_cases same : other.key = hit.key
      · refine ⟨hit, ?_, same.symm⟩
        rw [same] at due
        simp [reported, due]
      · rcases List.mem_cons.mp member with here | rest
        · exact absurd (congrArg Hit.key here) same
        · have another : other.key ∉ [hit.key] := by simpa using same
          have still := due_other taken another
          obtain ⟨first, among, its⟩ := rest_all other rest (still.trans due)
          refine ⟨first, ?_, its⟩
          simp only
          split
          · exact List.mem_cons_of_mem hit among
          · exact among
    · rw [reported]
      split
      · rw [List.map_cons, List.nodup_cons]
        refine ⟨?_, rest_once⟩
        intro member
        obtain ⟨other, among, its⟩ := List.mem_map.mp member
        have still := (rest_due other among).2
        exact (due_before taken still).1 (by simp [its])
      · exact rest_once

end Reports

/-! What is forgotten once the memory is full. -/

section Forgetting
variable {memory : RuleHitMemory} {key other : String} {now time : Nat}

/- What has not expired. -/
def recent (memory : RuleHitMemory) (now : Nat) : RuleHitMemory :=
  Map.retain (fun _ time => decide (now - time < reminder)) memory

def agesOf (memory : RuleHitMemory) : List Nat :=
  (memory.entries.map fun entry => entry.2).sort (· ≤ ·)

def medianOf (memory : RuleHitMemory) : Nat :=
  (agesOf memory).getD ((agesOf memory).length / 2) 0

/- What a call drops though it has not expired. -/
def forgotten (memory : RuleHitMemory) (key : String) (now : Nat) : RuleHitMemory :=
  Map.retain (fun other _ => ((memory.report key now).2.lookup other).isNone) (recent memory now)

def reportStep (memory : RuleHitMemory) (call : String × Nat) : RuleHitMemory :=
  (memory.report call.1 call.2).2

/- The memory is bounded and holds what was reported last. Only when it was full has a call dropped
   what had not expired: nothing newer than what it kept, and half of it with the median. -/
structure ForgetsOldest (memory : RuleHitMemory) (call : String × Nat) : Prop where
  bounded : (reportStep memory call).size ≤ capacity
  remembered : ∃ time, (reportStep memory call).lookup call.1 = some time
  only_full : ∀ other time, (forgotten memory call.1 call.2).lookup other = some time →
    capacity ≤ memory.size
  oldest : ∀ other time, (forgotten memory call.1 call.2).lookup other = some time →
    ∀ kept later, (reportStep memory call).lookup kept = some later → time ≤ later
  half : (forgotten memory call.1 call.2).size ≤ (recent memory call.2).size / 2 + 1

/- Where something has to be forgotten, what follows the median in the order of times is later. -/
def TellsApart (memory : RuleHitMemory) (call : String × Nat) : Prop :=
  memory.due call.2 call.1 = true → capacity ≤ (recent memory call.2).size →
    ∀ next, (agesOf (recent memory call.2))[(agesOf (recent memory call.2)).length / 2 + 1]? =
      some next → medianOf (recent memory call.2) < next

theorem size_entries (memory : RuleHitMemory) : memory.size = Multiset.card memory.entries := by
  simp [Map.size, Finmap.keys, Multiset.keys]

theorem length_agesOf (memory : RuleHitMemory) : (agesOf memory).length = memory.size := by
  rw [agesOf, Multiset.length_sort, Multiset.card_map, size_entries]

theorem size_retain_times (memory : RuleHitMemory) (p : Nat → Bool) :
    (Map.retain (fun _ time => p time) memory).size = (agesOf memory).countP p := by
  have counted : (agesOf memory).countP p =
      Multiset.countP (p · = true) (memory.entries.map fun entry => entry.2) := by
    rw [← Multiset.sort_eq (memory.entries.map fun entry => entry.2) (· ≤ ·), Multiset.coe_countP]
    simp [agesOf]
  rw [counted, Multiset.countP_map, size_entries]
  rfl

theorem agesOf_sorted (memory : RuleHitMemory) : (agesOf memory).Pairwise (· ≤ ·) :=
  Multiset.pairwise_sort _ _

/- In a sorted list those up to a bound come first. -/
theorem le_iff_lt_countP {ages : List Nat} (sorted : ages.Pairwise (· ≤ ·)) {place age : Nat}
    (there : ages[place]? = some age) (bound : Nat) :
    age ≤ bound ↔ place < ages.countP (· ≤ bound) := by
  induction ages generalizing place with
  | nil => simp at there
  | cons first ages ih =>
    obtain ⟨least, sorted⟩ := List.pairwise_cons.mp sorted
    by_cases below : first ≤ bound
    · rw [List.countP_cons_of_pos (by simpa using below)]
      cases place with
      | zero =>
        cases Option.some.inj there
        exact iff_of_true below (Nat.succ_pos _)
      | succ place =>
        rw [ih sorted there]
        omega
    · have none_below : (first :: ages).countP (· ≤ bound) = 0 := by
        rw [List.countP_eq_zero]
        rintro later member
        have above : first ≤ later := by
          rcases List.mem_cons.mp member with same | after
          · exact same.ge
          · exact least later after
        simp only [decide_eq_true_eq]
        omega
      rw [none_below]
      have after : first ≤ age := by
        rcases List.mem_cons.mp (List.mem_of_getElem? there) with same | after
        · exact same.ge
        · exact least age after
      omega

theorem size_recent_le (memory : RuleHitMemory) (now : Nat) :
    (recent memory now).size ≤ memory.size := by
  rw [size_entries, size_entries]
  exact Multiset.card_le_card (Multiset.filter_le _ _)

theorem size_insert_le (memory : RuleHitMemory) (key : String) (now : Nat) :
    Map.size (memory.insert key now) ≤ memory.size + 1 := by
  refine (Maps.size_le_card (s := insert key memory.keys) ?_).trans (Finset.card_insert_le _ _)
  intro other time found
  rw [Maps.lookup_insert_eq] at found
  split at found
  · rename_i same
    simp [same]
  · refine Finset.mem_insert_of_mem (Finmap.mem_keys.mpr ?_)
    exact Maps.mem_iff_lookup.mpr ⟨time, found⟩

/-- What a call does: nothing, or it adds the key to the memory, to what of it has not expired, or
to what of that is later than the median. -/
theorem report_cases (memory : RuleHitMemory) (key : String) (now : Nat) :
    (memory.due now key = false ∧ (memory.report key now).2 = memory) ∨
    (memory.due now key = true ∧ memory.size < capacity ∧
      (memory.report key now).2 = memory.insert key now) ∨
    (memory.due now key = true ∧ capacity ≤ memory.size ∧ (recent memory now).size < capacity ∧
      (memory.report key now).2 = (recent memory now).insert key now) ∨
    (memory.due now key = true ∧ capacity ≤ memory.size ∧ capacity ≤ (recent memory now).size ∧
      (memory.report key now).2 = Finmap.insert key now
        (Map.retain (fun _ time => decide (medianOf (recent memory now) < time))
          (recent memory now))) := by
  unfold RuleHitMemory.report RuleHitMemory.due
  by_cases known : ((memory.lookup key).any fun time => decide (now - time < reminder)) = true
  · exact Or.inl ⟨by rw [known]; rfl, by rw [if_pos known]⟩
  · rw [if_neg known]
    have due : (!(memory.lookup key).any fun time => decide (now - time < reminder)) = true := by
      simpa using known
    by_cases full : capacity ≤ memory.size
    · by_cases room : (recent memory now).size < capacity
      · refine Or.inr (Or.inr (Or.inl ⟨due, full, room, ?_⟩))
        rw [if_pos full]
        exact congrArg (fun kept : RuleHitMemory => kept.insert key now) (if_pos room)
      · refine Or.inr (Or.inr (Or.inr ⟨due, full, Nat.le_of_not_lt room, ?_⟩))
        rw [if_pos full]
        exact congrArg (fun kept : RuleHitMemory => kept.insert key now) (if_neg room)
    · exact Or.inr (Or.inl ⟨due, Nat.lt_of_not_le full, by rw [if_neg full]⟩)

theorem lookup_recent {memory : RuleHitMemory} {other : String} {now time : Nat} :
    (recent memory now).lookup other = some time ↔
      memory.lookup other = some time ∧ now - time < reminder := by
  rw [recent, Maps.lookup_retain_eq_some, decide_eq_true_eq]

theorem lookup_forgotten : (forgotten memory key now).lookup other = some time ↔
    (recent memory now).lookup other = some time ∧
      (memory.report key now).2.lookup other = none := by
  rw [forgotten, Maps.lookup_retain_eq_some, Option.isNone_iff_eq_none]

theorem size_of_none {memory : RuleHitMemory} (none : ∀ other, memory.lookup other = none) :
    memory.size = 0 := by
  have nothing := Maps.size_le_card (m := memory) (s := ∅) fun other time found => by
    rw [none other] at found
    cases found
  simpa using nothing

/- Nothing is forgotten where all that has not expired is kept. -/
theorem forgets_of_kept (size : (memory.report key now).2.size ≤ capacity)
    (held : ∃ time, (memory.report key now).2.lookup key = some time)
    (kept : ∀ other time, (recent memory now).lookup other = some time →
      (memory.report key now).2.lookup other ≠ none) : ForgetsOldest memory (key, now) := by
  have nothing : ∀ other time, (forgotten memory key now).lookup other ≠ some time :=
    fun other time found =>
      kept other time (lookup_forgotten.mp found).1 (lookup_forgotten.mp found).2
  refine ⟨size, held, fun other time found => absurd found (nothing other time),
    fun other time found => absurd found (nothing other time), ?_⟩
  rw [size_of_none fun other => Option.eq_none_iff_forall_not_mem.mpr (nothing other)]
  exact Nat.zero_le _

theorem kept_insert {memory : RuleHitMemory} (key : String) (now : Nat)
    (found : memory.lookup other = some time) :
    Finmap.lookup other (memory.insert key now) ≠ none := by
  rw [Maps.lookup_insert_eq]
  split
  · simp
  · simp [found]

/- What is kept of a full memory, and what is forgotten of it. -/
theorem median_parts (full : capacity ≤ memory.size) :
    (Map.retain (fun _ time => decide (medianOf memory < time)) memory).size +
        (Map.retain (fun _ time => decide (time ≤ medianOf memory)) memory).size = memory.size ∧
      memory.size / 2 + 1 ≤
        (Map.retain (fun _ time => decide (time ≤ medianOf memory)) memory).size := by
  have some_room : 0 < capacity := by decide
  constructor
  · have parts := List.length_eq_countP_add_countP (fun time => decide (medianOf memory < time))
      (l := agesOf memory)
    rw [size_retain_times memory fun time => decide (medianOf memory < time),
      size_retain_times memory fun time => decide (time ≤ medianOf memory), ← length_agesOf memory,
      parts]
    simp only [Nat.not_lt, decide_eq_true_eq]
  · have inside : (agesOf memory).length / 2 < (agesOf memory).length := by
      rw [length_agesOf]
      omega
    have there : (agesOf memory)[(agesOf memory).length / 2]? = some (medianOf memory) := by
      rw [medianOf, List.getD_eq_getElem?_getD, List.getElem?_eq_getElem inside]
      rfl
    have counted := (le_iff_lt_countP (agesOf_sorted memory) there (medianOf memory)).mp le_rfl
    rw [size_retain_times memory fun time => decide (time ≤ medianOf memory)]
    rw [length_agesOf] at counted
    exact counted

/- The half is not exceeded just when what follows the median is later. -/
theorem half_iff (full : capacity ≤ memory.size) :
    (Map.retain (fun _ time => decide (time ≤ medianOf memory)) memory).size ≤
        memory.size / 2 + 1 ↔
      ∀ next, (agesOf memory)[(agesOf memory).length / 2 + 1]? = some next →
        medianOf memory < next := by
  have enough : 2 < capacity := by decide
  have inside : (agesOf memory).length / 2 + 1 < (agesOf memory).length := by
    rw [length_agesOf]
    omega
  have there := List.getElem?_eq_getElem inside
  have counted := le_iff_lt_countP (agesOf_sorted memory) there (medianOf memory)
  rw [size_retain_times memory fun time => decide (time ≤ medianOf memory), ← length_agesOf memory]
  constructor
  · intro small next found
    rw [there] at found
    cases found
    by_contra early
    exact absurd (counted.mp (Nat.le_of_not_lt early)) (Nat.not_lt.mpr small)
  · intro later
    by_contra large
    exact absurd (later _ there) (Nat.not_lt.mpr (counted.mpr (Nat.lt_of_not_le large)))

/- What holds of the memory before each call: it is bounded, and nothing in it is in the future. -/
structure FilledInTime (memory : RuleHitMemory) (now : Nat) : Prop where
  bounded : memory.size ≤ capacity
  past : ∀ other time, memory.lookup other = some time → time ≤ now

theorem forgets_iff (recorded : FilledInTime memory now) :
    ForgetsOldest memory (key, now) ↔ TellsApart memory (key, now) := by
  obtain ⟨known, step⟩ | ⟨due, room, step⟩ | ⟨due, full, room, step⟩ | ⟨due, full, full', step⟩ :=
    report_cases memory key now
  · refine iff_of_true (forgets_of_kept (by rw [step]; exact recorded.bounded) ?_ ?_) ?_
    · rw [step]
      by_contra absent
      rw [due_unknown (Option.eq_none_iff_forall_not_mem.mpr fun time found =>
        absent ⟨time, found⟩)] at known
      cases known
    · intro other time found
      rw [step, (lookup_recent.mp found).1]
      simp
    · intro due
      rw [known] at due
      cases due
  · refine iff_of_true (forgets_of_kept ?_ ⟨now, by simp [step]⟩ ?_) ?_
    · rw [step]
      exact (size_insert_le memory key now).trans room
    · intro other time found
      rw [step]
      exact kept_insert key now (lookup_recent.mp found).1
    · intro _ full
      have fewer := size_recent_le memory now
      exact absurd (full.trans fewer) (Nat.not_le.mpr room)
  · refine iff_of_true (forgets_of_kept ?_ ⟨now, by simp [step]⟩ ?_) ?_
    · rw [step]
      exact (size_insert_le _ key now).trans room
    · intro other time found
      rw [step]
      exact kept_insert key now found
    · intro _ full
      exact absurd full (Nat.not_le.mpr room)
  · have unknown : (recent memory now).lookup key = none := by
      refine Option.eq_none_iff_forall_not_mem.mpr fun time found => ?_
      obtain ⟨found, young⟩ := lookup_recent.mp found
      exact absurd young (Nat.not_lt.mpr (due_iff.mp due time found))
    have dropped : forgotten memory key now =
        Map.retain (fun _ time => decide (time ≤ medianOf (recent memory now)))
          (recent memory now) := by
      refine Finmap.ext_lookup fun other => Option.ext fun time => ?_
      rw [lookup_forgotten, Maps.lookup_retain_eq_some, step,
        Maps.lookup_insert_eq]
      refine and_congr_right fun found => ?_
      by_cases same : other = key
      · rw [same, unknown] at found
        cases found
      · rw [if_neg same, Maps.lookup_retain, found]
        simp [Option.filter]
    have parts := median_parts full'
    have fewer := size_recent_le memory now
    have bounded := recorded.bounded
    have half := half_iff full'
    constructor
    · intro forgets _ _ next found
      have few := forgets.half
      rw [dropped] at few
      exact half.mp few next found
    · intro apart
      refine ⟨?_, ⟨now, by simp [reportStep, step]⟩, fun _ _ _ => full, ?_, ?_⟩
      · rw [reportStep, step]
        refine (size_insert_le _ key now).trans ?_
        omega
      · intro other time gone kept later held
        rw [dropped, Maps.lookup_retain_eq_some, decide_eq_true_eq] at gone
        rw [reportStep, step, Maps.lookup_insert_eq] at held
        split at held
        · cases held
          exact recorded.past other time (lookup_recent.mp gone.1).1
        · rw [Maps.lookup_retain_eq_some, decide_eq_true_eq] at held
          exact gone.2.trans held.2.le
      · rw [dropped]
        exact half.mpr (apart due full')

theorem recorded_report (recorded : FilledInTime memory now) (key : String)
    {calls : List (String × Nat)}
    (ordered : ∀ call ∈ calls, now ≤ call.2) (past : ∀ call ∈ calls, ∀ other time,
      memory.lookup other = some time → time ≤ call.2) :
    (reportStep memory (key, now)).size ≤ capacity ∧ ∀ call ∈ calls, ∀ other time,
      (reportStep memory (key, now)).lookup other = some time → time ≤ call.2 := by
  have inserted : ∀ kept : RuleHitMemory, (∀ other time, kept.lookup other = some time →
      memory.lookup other = some time) → ∀ call ∈ calls, ∀ other time,
        Finmap.lookup other (kept.insert key now) = some time → time ≤ call.2 := by
    intro kept known call member other time found
    rw [Maps.lookup_insert_eq] at found
    split at found
    · cases found
      exact ordered call member
    · exact past call member other time (known other time found)
  unfold reportStep
  obtain ⟨_, step⟩ | ⟨_, room, step⟩ | ⟨_, _, room, step⟩ | ⟨_, full, full', step⟩ :=
    report_cases memory key now
  · simp only [step]
    exact ⟨recorded.bounded, past⟩
  · simp only [step]
    exact ⟨(size_insert_le memory key now).trans room, inserted memory fun _ _ found => found⟩
  · simp only [step]
    exact ⟨(size_insert_le _ key now).trans room,
      inserted _ fun _ _ found => (lookup_recent.mp found).1⟩
  · simp only [step]
    refine ⟨(size_insert_le _ key now).trans ?_, inserted _ fun _ _ found =>
      (lookup_recent.mp (Maps.lookup_retain_eq_some.mp found).1).1⟩
    have parts := median_parts full'
    have fewer := size_recent_le memory now
    have bounded := recorded.bounded
    omega

theorem forgets_along {calls : List (String × Nat)} (ordered : calls.Pairwise fun a b => a.2 ≤ b.2)
    (bounded : memory.size ≤ capacity) (past : ∀ call ∈ calls, ∀ other time,
      memory.lookup other = some time → time ≤ call.2) :
    Along reportStep ForgetsOldest memory calls ↔ Along reportStep TellsApart memory calls := by
  induction calls generalizing memory with
  | nil => exact Iff.rfl
  | cons call calls ih =>
    obtain ⟨first, ordered⟩ := List.pairwise_cons.mp ordered
    have recorded : FilledInTime memory call.2 := ⟨bounded, past call List.mem_cons_self⟩
    obtain ⟨bounded, past⟩ := recorded_report recorded call.1 first fun other member =>
      past other (List.mem_cons_of_mem call member)
    exact and_congr (forgets_iff recorded) (ih ordered bounded past)

/-- In the course of calls in the order of time the memory forgets its oldest half only, as long as
    the times tell that half apart whenever something has to be forgotten. -/
theorem forgets_oldest_iff (calls : List (String × Nat))
    (ordered : calls.Pairwise fun a b => a.2 ≤ b.2) :
    Along reportStep ForgetsOldest ∅ calls ↔ Along reportStep TellsApart ∅ calls :=
  forgets_along ordered (Nat.zero_le _) fun _ _ other time found => by simp at found

theorem forgets_oldest_two : Along reportStep ForgetsOldest ∅ [("a", 0), ("b", 5)] ↔
    Along reportStep TellsApart ∅ [("a", 0), ("b", 5)] :=
  forgets_oldest_iff [("a", 0), ("b", 5)] (by decide)

/- Reports of as many keys at one time. -/
def atOnce (n : Nat) : List (String × Nat) := (List.range n).map fun i => (i.repr, 0)

theorem run_atOnce {n : Nat} (fits : n ≤ capacity) : (run reportStep ∅ (atOnce n)).size = n ∧
    ∀ key time, (run reportStep ∅ (atOnce n)).lookup key = some time ↔
      time = 0 ∧ ∃ i < n, i.repr = key := by
  induction n with
  | zero => exact ⟨rfl, fun key time => by simp [atOnce]⟩
  | succ n ih =>
    obtain ⟨size, held⟩ := ih (Nat.le_of_succ_le fits)
    have new : (run reportStep ∅ (atOnce n)).lookup n.repr = none := by
      refine Option.eq_none_iff_forall_not_mem.mpr fun time found => ?_
      obtain ⟨_, i, below, same⟩ := (held n.repr time).mp found
      exact absurd (Text.repr_injective same) (Nat.ne_of_lt below)
    have room : ¬ capacity ≤ (run reportStep ∅ (atOnce n)).size := by omega
    have grown : run reportStep ∅ (atOnce (n + 1)) =
        (run reportStep ∅ (atOnce n)).insert n.repr 0 := by
      rw [atOnce, List.range_succ, List.map_append, run_append]
      simp only [List.map_cons, List.map_nil, run_cons, run_nil]
      rw [reportStep, RuleHitMemory.report, ← atOnce, new, if_neg (by simp), if_neg room]
    have absent : n.repr ∉ run reportStep ∅ (atOnce n) := Finmap.lookup_eq_none.mp new
    constructor
    · have one_more := Maps.total_insert_new (fun _ => 1) absent 0
      have counted (m : RuleHitMemory) : Maps.total (fun _ => 1) m = m.size := by
        rw [size_entries]
        simp [Maps.total]
      rw [counted, counted, size] at one_more
      rw [grown, one_more, Nat.add_comm]
    · intro key time
      rw [grown, Maps.lookup_insert_eq]
      split
      · rename_i same
        subst same
        constructor
        · intro found
          exact ⟨(Option.some.inj found).symm, n, Nat.lt_succ_self n, rfl⟩
        · rintro ⟨rfl, _⟩
          rfl
      · rename_i other
        rw [held]
        refine and_congr_right fun _ => ⟨?_, ?_⟩
        · rintro ⟨i, below, same⟩
          exact ⟨i, Nat.lt_succ_of_lt below, same⟩
        · rintro ⟨i, below, rfl⟩
          have different : i ≠ n := fun same => other (by rw [same])
          exact ⟨i, Nat.lt_of_le_of_ne (Nat.le_of_lt_succ below) different, rfl⟩

/- Of a memory that was filled at one time the next report leaves nothing. -/
theorem all_forgotten {n : Nat} (filled : n = capacity) :
    ¬ Along reportStep ForgetsOldest ∅ (atOnce (n + 1)) := by
  intro along
  obtain ⟨size, held⟩ := run_atOnce filled.le
  have last : ForgetsOldest (run reportStep ∅ (atOnce n)) (n.repr, 0) := by
    rw [atOnce, List.range_succ, List.map_append, along_append] at along
    exact along.2.1
  generalize run reportStep ∅ (atOnce n) = memory at size held last
  have young : recent memory 0 = memory := by
    refine Finmap.ext_lookup fun key => Option.ext fun time => ?_
    rw [lookup_recent]
    refine and_iff_left_of_imp fun found => ?_
    rw [((held key time).mp found).1]
    decide
  have new : memory.lookup n.repr = none := by
    refine Option.eq_none_iff_forall_not_mem.mpr fun time found => ?_
    obtain ⟨_, i, below, same⟩ := (held n.repr time).mp found
    exact absurd (Text.repr_injective same) (Nat.ne_of_lt below)
  have full : capacity ≤ (recent memory 0).size := by rw [young, size, filled]
  have gone : forgotten memory n.repr 0 = memory := by
    obtain ⟨known, _⟩ | ⟨_, room, _⟩ | ⟨_, _, room, _⟩ | ⟨_, _, _, step⟩ :=
      report_cases memory n.repr 0
    · rw [due_unknown new] at known
      cases known
    · exact absurd room (by omega)
    · exact absurd full (Nat.not_le.mpr room)
    · refine Finmap.ext_lookup fun key => Option.ext fun time => ?_
      rw [lookup_forgotten, step, young, Maps.lookup_insert_eq]
      refine and_iff_left_of_imp fun found => ?_
      have other : key ≠ n.repr := by
        rintro rfl
        rw [new] at found
        cases found
      rw [if_neg other, Maps.lookup_retain, found, ((held key time).mp found).1]
      simp [Option.filter]
  have half := last.half
  rw [gone, young, size] at half
  have large : capacity = 20000 := rfl
  omega

theorem all_forgotten_at_once : ¬ Along reportStep ForgetsOldest ∅ (atOnce (capacity + 1)) :=
  all_forgotten rfl

end Forgetting

end SentinelAgent.Response
