import Mathlib.Algebra.GroupWithZero.Nat
import SentinelAgent.Scanner.EngineBuild

/-!
An event empties the work list. A correlation that holds is counted by correlations that list
it, so the list of what is pending climbs, and there is a highest place to climb to.
-/
namespace SentinelAgent.Scanner

open Maps

/-! What is left to count. -/

/-- The counting of each source, by the lists of the correlations, and their number. -/
structure Counts (countedBy : Map Source (List Nat)) (listed : List (List Source)) : Prop where
  inside : ∀ s, ∀ j ∈ counting countedBy s, ∃ sources, listed[j]? = some sources ∧ s ∈ sources
  few : ∀ s, (counting countedBy s).length ≤ (countings listed).length
  acyclic : ∀ i, ¬ Relation.TransGen (listGraph listed).Edge i i

/-- How many sources the counting of one can put on the work list, and itself. -/
noncomputable def weight (listed : List (List Source)) : Source → Nat
  | .rule _ => ((countings listed).length + 1) ^ ((listGraph listed).all.card + 1)
  | .correlation i =>
    ((countings listed).length + 1) ^ ((listGraph listed).all.card - (listGraph listed).height i)

noncomputable def potential (listed : List (List Source)) (pending : List Source) : Nat :=
  (pending.map (weight listed)).sum

theorem edge_of_listed {listed : List (List Source)} {i j : Nat} {sources : List Source}
    (found : listed[j]? = some sources) (member : Source.correlation i ∈ sources) :
    (listGraph listed).Edge j i := by
  simp only [Search.Graph.Edge, listGraph, List.getD_eq_getElem?_getD, found, Option.getD_some,
    List.mem_filterMap]
  exact ⟨.correlation i, member, rfl⟩

/-- What counts a source weighs less than its share of the source. -/
theorem weight_counting {countedBy : Map Source (List Nat)} {listed : List (List Source)}
    (counts : Counts countedBy listed) {s : Source} {j : Nat}
    (counted : j ∈ counting countedBy s) :
    ((countings listed).length + 1) * weight listed (.correlation j) ≤ weight listed s := by
  obtain ⟨sources, found, member⟩ := counts.inside s j counted
  have highest := Search.height_le (listGraph listed) j
  cases s with
  | rule i =>
    rw [weight, weight, ← Nat.pow_succ']
    exact Nat.pow_le_pow_right (by omega) (by omega)
  | correlation i =>
    have climbs := Search.height_lt counts.acyclic (edge_of_listed found member)
    rw [weight, weight, ← Nat.pow_succ']
    exact Nat.pow_le_pow_right (by omega) (by omega)

theorem sum_weight_le {listed : List (List Source)} {js : List Nat} {K W : Nat}
    (each : ∀ j ∈ js, (K + 1) * weight listed (.correlation j) ≤ W) :
    (K + 1) * (js.map (fun j => weight listed (.correlation j))).sum ≤ js.length * W := by
  induction js with
  | nil => simp
  | cons j js ih =>
    have first := each j List.mem_cons_self
    have rest := ih (fun k member => each k (List.mem_cons_of_mem j member))
    simp only [List.map_cons, List.sum_cons, List.length_cons, Nat.mul_add, Nat.add_mul,
      Nat.one_mul] at first rest ⊢
    omega

theorem sum_counting_lt {countedBy : Map Source (List Nat)} {listed : List (List Source)}
    (counts : Counts countedBy listed) (s : Source) :
    ((counting countedBy s).map (fun j => weight listed (.correlation j))).sum <
      weight listed s := by
  have positive : 0 < weight listed s := by
    cases s <;> exact Nat.pow_pos (by omega)
  have bound := sum_weight_le (K := (countings listed).length) (W := weight listed s)
    (fun j member => weight_counting counts member)
  have few := Nat.mul_le_mul_right (weight listed s) (counts.few s)
  by_contra above
  have large := Nat.mul_le_mul_left ((countings listed).length + 1) (Nat.le_of_not_lt above)
  have split : ((countings listed).length + 1) * weight listed s =
      (countings listed).length * weight listed s + weight listed s := Nat.succ_mul _ _
  omega

theorem feed_pending (listed : List (List Source)) (ev : LogEvent) (s : Source) (d : Draining)
    (j : Nat) : potential listed (feed ev s d j).pending ≤
      weight listed (.correlation j) + potential listed d.pending := by
  unfold feed
  split
  · omega
  · split
    · exact Nat.le_add_left _ _
    · simp [potential]

theorem feeds_pending (listed : List (List Source)) (ev : LogEvent) (s : Source) (js : List Nat)
    (d : Draining) : potential listed (js.foldl (feed ev s) d).pending ≤
      (js.map (fun j => weight listed (.correlation j))).sum + potential listed d.pending := by
  induction js generalizing d with
  | nil => simp
  | cons j js ih =>
    have first := feed_pending listed ev s d j
    have rest := ih (feed ev s d j)
    simp only [List.foldl_cons, List.map_cons, List.sum_cons]
    omega

/-- The work list empties. -/
theorem drain_done {countedBy : Map Source (List Nat)} {listed : List (List Source)}
    (counts : Counts countedBy listed) (ev : LogEvent) {fuel : Nat} {d : Draining}
    (enough : potential listed d.pending ≤ fuel) :
    ∃ out, drain countedBy ev fuel d = some out ∧ out.pending = [] := by
  induction fuel generalizing d with
  | zero =>
    cases pending : d.pending with
    | nil => exact ⟨d, by rw [drain, pending], pending⟩
    | cons s rest =>
      have lighter := sum_counting_lt counts s
      simp only [pending, potential, List.map_cons, List.sum_cons] at enough
      omega
  | succ fuel ih =>
    cases pending : d.pending with
    | nil => exact ⟨d, by rw [drain, pending], pending⟩
    | cons s rest =>
      have lighter := sum_counting_lt counts s
      have fed := feeds_pending listed ev s (counting countedBy s) { d with pending := rest }
      rw [drain, pending]
      apply ih
      simp only [pending, potential, List.map_cons, List.sum_cons] at enough fed ⊢
      omega

theorem drain_more {countedBy : Map Source (List Nat)} {ev : LogEvent} {fuel more : Nat}
    {d out : Draining} (done : drain countedBy ev fuel d = some out) (least : fuel ≤ more) :
    drain countedBy ev more d = some out := by
  induction fuel generalizing d more with
  | zero =>
    unfold drain at done ⊢
    cases pending : d.pending with
    | nil =>
      rw [pending] at done
      exact done
    | cons s rest =>
      rw [pending] at done
      cases done
  | succ fuel ih =>
    unfold drain at done ⊢
    cases pending : d.pending with
    | nil =>
      rw [pending] at done
      exact done
    | cons s rest =>
      rw [pending] at done
      obtain ⟨more, rfl⟩ : ∃ k, more = k + 1 := ⟨more - 1, by omega⟩
      exact ih done (by omega)

theorem evaluate_done {e : LogRuleEngine} {listed : List (List Source)}
    (counts : Counts e.countedBy listed) (ev : LogEvent) :
    ∃ fuel out, out.1.countedBy = e.countedBy ∧
      ∀ more, fuel ≤ more → e.evaluate more ev = some out := by
  obtain ⟨d, done, _⟩ := drain_done counts ev (d := e.firstMatches ev) (Nat.le_refl _)
  refine ⟨potential listed (e.firstMatches ev).pending,
    ({ e with correlations := d.correlations }, d.detections), rfl, ?_⟩
  intro more least
  rw [LogRuleEngine.evaluate, drain_more done least]
  rfl

/-- Every event of a run is evaluated, whatever the windows hold. -/
theorem evaluateAll_done {e : LogRuleEngine} {listed : List (List Source)}
    (counts : Counts e.countedBy listed) (evs : List LogEvent) :
    ∃ fuel ds, ∀ more, fuel ≤ more → e.evaluateAll more evs = some ds := by
  induction evs generalizing e with
  | nil => exact ⟨0, [], fun _ _ => rfl⟩
  | cons ev evs ih =>
    obtain ⟨first, out, same, evaluated⟩ := evaluate_done counts ev
    rw [← same] at counts
    obtain ⟨rest, ds, all⟩ := ih counts
    refine ⟨max first rest, out.2 :: ds, ?_⟩
    intro more least
    rw [LogRuleEngine.evaluateAll, evaluated more (by omega), Option.bind_some,
      all more (by omega), Option.map_some]

theorem evaluateAll_more {e : LogRuleEngine} {evs : List LogEvent} {fuel more : Nat}
    {ds : List (List Detection)} (done : e.evaluateAll fuel evs = some ds) (least : fuel ≤ more) :
    e.evaluateAll more evs = some ds := by
  induction evs generalizing e ds with
  | nil => exact done
  | cons ev evs ih =>
    rw [LogRuleEngine.evaluateAll] at done ⊢
    obtain ⟨out, first, rest⟩ := Option.bind_eq_some_iff.mp done
    obtain ⟨later, found, rfl⟩ := Option.map_eq_some_iff.mp rest
    obtain ⟨d, drains, rfl⟩ := Option.map_eq_some_iff.mp first
    rw [LogRuleEngine.evaluate, drain_more drains least, Option.map_some, Option.bind_some,
      ih found, Option.map_some]

theorem counts_build {rules : List SigmaRule} {kept : List CorrelationRule}
    (admissible : Admissible rules kept) :
    Counts (build rules kept (listedBy rules kept)).countedBy (listedBy rules kept) where
  inside s j member := mem_counting_build.mp member
  few s := length_counting_build rules kept (listedBy rules kept) s
  acyclic i := by
    rw [edges_eq]
    exact admissible.acyclic i

/-! The engine as a whole. -/

def LogRuleEngine.kept (e : LogRuleEngine) : List CorrelationRule :=
  e.correlations.map (fun c => c.rule)

def LogRuleEngine.Lists (e : LogRuleEngine) (i j : Nat) : Prop :=
  ∃ c, e.correlations[i]? = some c ∧ Source.correlation j ∈ c.sources

/-- No correlation counts the source, or one that does asks for it. -/
def LogRuleEngine.RaisesOwn (e : LogRuleEngine) (s : Source) : Prop :=
  (∀ c ∈ e.correlations, s ∉ c.sources) ∨
    ∃ c ∈ e.correlations, s ∈ c.sources ∧ c.rule.generate = true

structure WellBuilt (rules : List SigmaRule) (correlations : List CorrelationRule)
    (e : LogRuleEngine) : Prop where
  all_rules : e.rules.map (fun r => r.rule) = rules
  part : e.kept.Sublist correlations
  admissible : Admissible rules e.kept
  resolved : ∀ c ∈ e.correlations, List.Forall₂ (Means rules e.kept) c.rule.rules c.sources
  acyclic : ∀ i, ¬ Relation.TransGen e.Lists i i
  empties : ∀ evs, ∃ fuel ds, ∀ more, fuel ≤ more → e.evaluateAll more evs = some ds
  rule_alerts : ∀ (i : Nat) r, e.rules[i]? = some r → (r.alerts = true ↔ e.RaisesOwn (.rule i))
  correlation_alerts : ∀ (j : Nat) c, e.correlations[j]? = some c →
    (c.alerts = true ↔ e.RaisesOwn (.correlation j))

theorem build_raisesOwn {rules : List SigmaRule} {kept : List CorrelationRule} {s : Source} :
    (build rules kept (listedBy rules kept)).RaisesOwn s ↔
      alerts kept (listedBy rules kept) s = true := by
  rw [alerts_iff]
  apply or_congr
  · constructor
    · intro silent j sources found
      rw [listedBy, List.getElem?_map] at found
      obtain ⟨r, there, rfl⟩ := Option.map_eq_some_iff.mp found
      have place := build_correlation rules kept j
      rw [there] at place
      exact silent _ (List.mem_of_getElem? place)
    · intro silent c member
      obtain ⟨j, place⟩ := List.mem_iff_getElem?.mp member
      rw [build_correlation] at place
      obtain ⟨r, there, rfl⟩ := Option.map_eq_some_iff.mp place
      exact silent j _ (by simp [listedBy, there])
  · constructor
    · rintro ⟨c, member, lists, asked⟩
      obtain ⟨j, place⟩ := List.mem_iff_getElem?.mp member
      rw [build_correlation] at place
      obtain ⟨r, there, rfl⟩ := Option.map_eq_some_iff.mp place
      exact ⟨j, r, _, there, by simp [listedBy, there], lists, asked⟩
    · rintro ⟨j, r, sources, there, found, lists, asked⟩
      rw [listedBy, List.getElem?_map, there] at found
      cases found
      have place := build_correlation rules kept j
      rw [there] at place
      exact ⟨_, List.mem_of_getElem? place, lists, asked⟩

theorem build_lists {rules : List SigmaRule} {kept : List CorrelationRule} :
    (build rules kept (listedBy rules kept)).Lists = Lists rules kept := by
  funext i j
  apply propext
  constructor
  · rintro ⟨c, place, member⟩
    rw [build_correlation] at place
    obtain ⟨r, there, rfl⟩ := Option.map_eq_some_iff.mp place
    obtain ⟨x, listed, value⟩ := List.mem_filterMap.mp member
    exact ⟨r, there, x, listed, value⟩
  · rintro ⟨r, there, x, listed, value⟩
    have place := build_correlation rules kept i
    rw [there] at place
    exact ⟨_, place, List.mem_filterMap.mpr ⟨x, listed, value⟩⟩

theorem wellBuilt_build {rules : List SigmaRule} {kept correlations : List CorrelationRule}
    (part : kept.Sublist correlations) (admissible : Admissible rules kept) :
    WellBuilt rules correlations (build rules kept (listedBy rules kept)) where
  all_rules := by
    apply List.ext_getElem?
    intro i
    rw [List.getElem?_map, build_rule, Option.map_map]
    exact Option.map_id_apply
  part := by
    rw [LogRuleEngine.kept, build_kept]
    exact part
  admissible := by
    rw [LogRuleEngine.kept, build_kept]
    exact admissible
  resolved c member := by
    rw [LogRuleEngine.kept, build_kept]
    obtain ⟨j, place⟩ := List.mem_iff_getElem?.mp member
    rw [build_correlation] at place
    obtain ⟨r, there, rfl⟩ := Option.map_eq_some_iff.mp place
    have resolved := sources_resolved (admissible.known r (List.mem_of_getElem? there))
    exact resolved.imp (fun x s => means_of_lookup)
  acyclic := by
    rw [build_lists]
    exact admissible.acyclic
  empties evs := evaluateAll_done (counts_build admissible) evs
  rule_alerts i r place := by
    rw [build_rule] at place
    obtain ⟨rule, _, rfl⟩ := Option.map_eq_some_iff.mp place
    exact build_raisesOwn.symm
  correlation_alerts j c place := by
    rw [build_correlation] at place
    obtain ⟨r, _, rfl⟩ := Option.map_eq_some_iff.mp place
    exact build_raisesOwn.symm

theorem withAbsent_wellBuilt (rules : List SigmaRule) (correlations : List CorrelationRule)
    (absent : Finset String) :
    WellBuilt rules correlations (withAbsent rules correlations absent).1 := by
  obtain ⟨kept, part, admissible, same⟩ := withAbsent_kept rules correlations absent
  exact same ▸ wellBuilt_build part admissible

theorem withAbsent_well_founded (rules : List SigmaRule) (correlations : List CorrelationRule)
    (absent : Finset String) :
    WellBuilt rules correlations (withAbsent rules correlations absent).1 ∧
      (Unshared rules correlations → ∀ chosen : List CorrelationRule,
        chosen.Sublist correlations → Admissible rules chosen →
          chosen.Sublist (withAbsent rules correlations absent).1.kept) := by
  constructor
  · obtain ⟨kept, part, admissible, same⟩ := withAbsent_kept rules correlations absent
    rw [same]
    exact wellBuilt_build part admissible
  · intro unshared chosen part admissible
    exact kept_greatest unshared part admissible

/-- A rule that every event matches. -/
def anyEvent (id : String) (name : Option String) : SigmaRule where
  id := id
  title := id
  description := ""
  level := .high
  tags := []
  category := none
  service := none
  name := name
  matchesEvent _ := true

def onceOf (id : String) (name : Option String) (rules : List String) : CorrelationRule where
  id := id
  title := id
  description := ""
  level := .high
  tags := []
  name := name
  kind := .eventCount
  rules := rules
  groupBy := []
  timespan := 300
  atLeast := 1
  valueField := none
  generate := false
  timespan_pos := fiveMinutes_pos
  atLeast_pos := Nat.one_pos

theorem one_correlation_kept :
    [onceOf "a" none ["r"]].Sublist
      (withAbsent [anyEvent "r" none] [onceOf "a" none ["r"]] ∅).1.kept := by
  have unshared : Unshared [anyEvent "r" none] [onceOf "a" none ["r"]] := by
    intro x listed i a found carries
    obtain ⟨r, member, reference⟩ := listed
    rw [List.mem_singleton.mp member] at reference
    have its := List.mem_singleton.mp reference
    rw [List.mem_singleton.mp (List.mem_of_getElem? found), its] at carries
    exact absurd carries (by decide)
  have admissible : Admissible [anyEvent "r" none] [onceOf "a" none ["r"]] := by
    constructor
    · decide
    · exact cyclic_nil_iff.mp (by decide +kernel)
  exact (withAbsent_well_founded [anyEvent "r" none] [onceOf "a" none ["r"]] ∅).2 unshared
    [onceOf "a" none ["r"]] (List.Sublist.refl _) admissible

/-- The first correlation lists a rule by a name the second also has. Together they are on a
    cycle, and both are left out; alone the first lists the rule. -/
theorem shared_name_loses_correlation :
    ¬ ∀ (rules : List SigmaRule) (correlations : List CorrelationRule) (absent : Finset String)
      (chosen : List CorrelationRule), chosen.Sublist correlations → Admissible rules chosen →
        chosen.Sublist (withAbsent rules correlations absent).1.kept := by
  intro claimed
  have admissible : Admissible [anyEvent "r" (some "m")] [onceOf "a" (some "n") ["m"]] := by
    constructor
    · decide
    · exact cyclic_nil_iff.mp (by decide +kernel)
  have among := claimed [anyEvent "r" (some "m")]
    [onceOf "a" (some "n") ["m"], onceOf "b" (some "m") ["n"]] ∅ [onceOf "a" (some "n") ["m"]]
    (List.Sublist.cons_cons _ (List.nil_sublist _)) admissible
  have none_kept : ((withAbsent [anyEvent "r" (some "m")]
      [onceOf "a" (some "n") ["m"], onceOf "b" (some "m") ["n"]] ∅).1.kept).length = 0 := by
    decide +kernel
  have longer := among.length_le
  rw [none_kept] at longer
  exact absurd longer (by decide)

end SentinelAgent.Scanner
