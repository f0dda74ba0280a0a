import Mathlib.Data.List.NodupEquivFin
import SentinelAgent.Scanner.LogRuleEngine

/-!
What the engine is built of: the correlations kept have every reference among the rules and
themselves, none lists itself through others, and no other choice of correlations with these two
properties has one more, as long as no reference is shared.
-/
namespace SentinelAgent.Scanner

open Maps

/-! References. -/

/-- The source has the reference as its id or its name. -/
def Means (rules : List SigmaRule) (kept : List CorrelationRule) (x : String) : Source → Prop
  | .rule i => ∃ r, rules[i]? = some r ∧ x ∈ r.names
  | .correlation j => ∃ r, kept[j]? = some r ∧ x ∈ r.names

theorem lookup_ruleNames_none {rules : List SigmaRule} {x : String}
    (unnamed : ∀ r ∈ rules, x ∉ r.names) : (ruleNames rules).lookup x = none := by
  rw [ruleNames, lookup_nameFrom_none unnamed, Finmap.lookup_empty]

theorem lookup_ruleNames_some {rules : List SigmaRule} {x : String}
    (named : ∃ r ∈ rules, x ∈ r.names) :
    ∃ i r, rules[i]? = some r ∧ x ∈ r.names ∧ (ruleNames rules).lookup x = some (.rule i) := by
  obtain ⟨i, r, found, carries, value, _⟩ := lookup_nameFrom_some named 0 ∅
  rw [Nat.zero_add] at value
  exact ⟨i, r, found, carries, value⟩

theorem lookup_namesOf_correlation (rules : List SigmaRule) {kept : List CorrelationRule}
    {x : String} (named : ∃ r ∈ kept, x ∈ r.names) :
    ∃ j r, kept[j]? = some r ∧ x ∈ r.names ∧
      (namesOf rules kept).lookup x = some (.correlation j) := by
  obtain ⟨j, r, found, carries, value, _⟩ :=
    lookup_nameFrom_some named 0 (ruleNames rules)
  rw [Nat.zero_add] at value
  exact ⟨j, r, found, carries, value⟩

theorem lookup_namesOf_rule {rules : List SigmaRule} {kept : List CorrelationRule} {x : String}
    (unnamed : ∀ r ∈ kept, x ∉ r.names) :
    (namesOf rules kept).lookup x = (ruleNames rules).lookup x :=
  lookup_nameFrom_none unnamed 0 (ruleNames rules)

theorem means_of_lookup {rules : List SigmaRule} {kept : List CorrelationRule} {x : String}
    {s : Source} (found : (namesOf rules kept).lookup x = some s) : Means rules kept x s := by
  by_cases named : ∃ r ∈ kept, x ∈ r.names
  · obtain ⟨j, r, there, carries, value⟩ := lookup_namesOf_correlation rules named
    rw [value] at found
    cases found
    exact ⟨r, there, carries⟩
  · have unnamed : ∀ r ∈ kept, x ∉ r.names := fun r member carries => named ⟨r, member, carries⟩
    rw [lookup_namesOf_rule unnamed] at found
    by_cases ruled : ∃ r ∈ rules, x ∈ r.names
    · obtain ⟨i, r, there, carries, value⟩ := lookup_ruleNames_some ruled
      rw [value] at found
      cases found
      exact ⟨r, there, carries⟩
    · rw [lookup_ruleNames_none (fun r member carries => ruled ⟨r, member, carries⟩)] at found
      cases found

theorem known_iff {rules : List SigmaRule} {kept : List CorrelationRule} {x : String} :
    x ∈ namesOf rules kept ↔ (∃ r ∈ rules, x ∈ r.names) ∨ ∃ r ∈ kept, x ∈ r.names := by
  constructor
  · intro known
    obtain ⟨s, found⟩ := mem_iff_lookup.mp known
    cases s with
    | rule i =>
      obtain ⟨r, there, carries⟩ := means_of_lookup found
      exact Or.inl ⟨r, List.mem_of_getElem? there, carries⟩
    | correlation j =>
      obtain ⟨r, there, carries⟩ := means_of_lookup found
      exact Or.inr ⟨r, List.mem_of_getElem? there, carries⟩
  · rintro (ruled | named)
    · by_cases named : ∃ r ∈ kept, x ∈ r.names
      · obtain ⟨j, _, _, _, value⟩ := lookup_namesOf_correlation rules named
        exact mem_iff_lookup.mpr ⟨_, value⟩
      · obtain ⟨i, _, _, _, value⟩ := lookup_ruleNames_some ruled
        have unnamed : ∀ r ∈ kept, x ∉ r.names :=
          fun r member carries => named ⟨r, member, carries⟩
        exact mem_iff_lookup.mpr ⟨_, (lookup_namesOf_rule unnamed).trans value⟩
    · obtain ⟨j, _, _, _, value⟩ := lookup_namesOf_correlation rules named
      exact mem_iff_lookup.mpr ⟨_, value⟩

/-! The two properties. -/

/-- One correlation lists another, by their places. -/
def Lists (rules : List SigmaRule) (kept : List CorrelationRule) (i j : Nat) : Prop :=
  ∃ r, kept[i]? = some r ∧ ∃ x ∈ r.rules, (namesOf rules kept).lookup x = some (.correlation j)

structure Admissible (rules : List SigmaRule) (kept : List CorrelationRule) : Prop where
  known : ∀ r ∈ kept, ∀ x ∈ r.rules, x ∈ namesOf rules kept
  acyclic : ∀ i, ¬ Relation.TransGen (Lists rules kept) i i

theorem missing_isNone_iff {known : Map String Source} {r : CorrelationRule} :
    (missing known r).isNone = true ↔ ∀ x ∈ r.rules, x ∈ known := by
  rw [Option.isNone_iff_eq_none, missing, List.find?_eq_none]
  simp

theorem settle_known {rules : List SigmaRule} {kept : List CorrelationRule} {s : Settling} :
    ∀ r ∈ (settle rules kept s).1, ∀ x ∈ r.rules, x ∈ namesOf rules (settle rules kept s).1 := by
  induction kept, s using settle.induct rules with
  | case1 kept s same =>
    rw [settle, if_pos same]
    have all : (pass (namesOf rules kept) kept s).1 = kept :=
      (pass_sublist (namesOf rules kept) kept s).eq_of_length same
    rw [all]
    rw [pass_kept, List.filter_eq_self] at all
    exact fun r member => missing_isNone_iff.mp (all r member)
  | case2 kept s fewer ih =>
    rw [settle, if_neg fewer]
    exact ih

theorem edge_iff {rules : List SigmaRule} {kept : List CorrelationRule} {i j : Nat} :
    (listGraph (listedBy rules kept)).Edge i j ↔ Lists rules kept i j := by
  unfold Search.Graph.Edge Lists
  simp only [listGraph, listedBy, List.getD_eq_getElem?_getD, List.getElem?_map]
  cases found : kept[i]? with
  | none => simp
  | some r =>
    simp only [Option.map_some, Option.getD_some, sourcesOf, List.mem_filterMap,
      Option.some.injEq, exists_eq_left']
    constructor
    · rintro ⟨s, ⟨x, member, value⟩, its⟩
      cases s with
      | rule i => cases its
      | correlation k =>
        cases its
        exact ⟨x, member, value⟩
    · rintro ⟨x, member, value⟩
      exact ⟨.correlation j, ⟨x, member, value⟩, rfl⟩

theorem edges_eq (rules : List SigmaRule) (kept : List CorrelationRule) :
    (listGraph (listedBy rules kept)).Edge = Lists rules kept := by
  funext i j
  exact propext edge_iff

theorem lists_inside {rules : List SigmaRule} {kept : List CorrelationRule} {i j : Nat}
    (lists : Lists rules kept i j) : i < kept.length ∧ j < kept.length := by
  obtain ⟨r, found, x, _, value⟩ := lists
  obtain ⟨_, there, _⟩ := means_of_lookup value
  exact ⟨(List.getElem?_eq_some_iff.mp found).1, (List.getElem?_eq_some_iff.mp there).1⟩

theorem cyclic_nil_iff {rules : List SigmaRule} {kept : List CorrelationRule} :
    cyclic (listedBy rules kept) = [] ↔ ∀ i, ¬ Relation.TransGen (Lists rules kept) i i := by
  constructor
  · intro none_found i cycle
    obtain ⟨_, first, _⟩ := Relation.TransGen.head'_iff.mp cycle
    have member : i ∈ cyclic (listedBy rules kept) := by
      rw [mem_cyclic, Search.onCycle_iff, edges_eq]
      exact ⟨by simpa [listedBy] using (lists_inside first).1, cycle⟩
    rw [none_found] at member
    cases member
  · intro acyclic
    rw [List.eq_nil_iff_forall_not_mem]
    intro i member
    rw [mem_cyclic, Search.onCycle_iff, edges_eq] at member
    exact acyclic i member.2

theorem build_kept (rules : List SigmaRule) (kept : List CorrelationRule) :
    (build rules kept (listedBy rules kept)).correlations.map (fun c => c.rule) = kept := by
  have firsts : (kept.zip (listedBy rules kept)).map Prod.fst = kept :=
    List.map_fst_zip (by simp [listedBy])
  apply List.ext_getElem?
  intro i
  rw [congrArg (fun l => l[i]?) firsts.symm]
  simp only [build, List.getElem?_map, List.getElem?_mapIdx, Option.map_map]
  rfl

/-- The correlations the engine is built of. -/
theorem withAbsent_kept (rules : List SigmaRule) (correlations : List CorrelationRule)
    (absent : Finset String) :
    ∃ kept, kept.Sublist correlations ∧ Admissible rules kept ∧
      (withAbsent rules correlations absent).1 = build rules kept (listedBy rules kept) := by
  induction correlations, absent using withAbsent.induct rules with
  | case1 correlations absent none_found =>
    rw [withAbsent, if_pos none_found]
    exact ⟨_, settle_sublist rules _ _, ⟨settle_known, cyclic_nil_iff.mp none_found⟩, rfl⟩
  | case2 correlations absent found some_found ih =>
    rw [withAbsent, if_neg some_found]
    obtain ⟨kept, part, admissible, same⟩ := ih
    have smaller : (remaining rules correlations absent).Sublist correlations :=
      (without_sublist _ _).trans (settle_sublist rules _ _)
    exact ⟨kept, part.trans smaller, admissible, same⟩

/-! What the engine holds. -/

theorem mem_countings {listed : List (List Source)} {s : Source} {j : Nat} :
    (s, j) ∈ countings listed ↔ ∃ sources, listed[j]? = some sources ∧ s ∈ sources := by
  simp only [countings, List.mem_flatMap, List.mem_map, Prod.mk.injEq]
  constructor
  · rintro ⟨⟨sources, i⟩, entry, t, member, rfl, rfl⟩
    exact ⟨sources, List.mem_zipIdx_iff_getElem?.mp entry, member⟩
  · rintro ⟨sources, found, member⟩
    exact ⟨(sources, j), List.mem_zipIdx_iff_getElem?.mpr found, s, member, rfl, rfl⟩

theorem counting_build (rules : List SigmaRule) (kept : List CorrelationRule)
    (listed : List (List Source)) (s : Source) :
    counting (build rules kept listed).countedBy s =
      ((countings listed).filter (fun entry => decide (entry.1 = s))).map
        (fun entry => entry.2) := by
  rw [counting, build, lookup_pushAll, Finmap.lookup_empty]
  rfl

theorem count_pairs (entries : List (Source × Nat)) (s : Source) (j : Nat) :
    ((entries.filter (fun entry => decide (entry.1 = s))).map (fun entry => entry.2)).count j =
      entries.count (s, j) := by
  induction entries with
  | nil => rfl
  | cons entry entries ih =>
    rw [List.filter_cons, List.count_cons, ← ih]
    by_cases here : entry.1 = s
    · subst here
      by_cases there : entry.2 = j
      · subst there
        simp
      · have other : entry ≠ (entry.1, j) := fun same => there (congrArg Prod.snd same)
        simp [there, other]
    · have other : entry ≠ (s, j) := fun same => here (congrArg Prod.fst same)
      simp [here, other]

theorem count_countings (listed : List (List Source)) (s : Source) (j first : Nat) :
    ((listed.zipIdx first).flatMap
        (fun entry => entry.1.map (fun source => (source, entry.2)))).count (s, first + j) =
      (listed[j]?.getD []).count s := by
  induction listed generalizing j first with
  | nil => simp
  | cons sources listed ih =>
    rw [List.zipIdx_cons, List.flatMap_cons, List.count_append]
    cases j with
    | zero =>
      have own : (sources.map (fun source => (source, first))).count (s, first + 0) =
          sources.count s := by
        exact List.count_map_of_injective sources (fun source => (source, first))
          (fun a b same => congrArg Prod.fst same) s
      have rest : ((listed.zipIdx (first + 1)).flatMap
          (fun entry => entry.1.map (fun source => (source, entry.2)))).count (s, first + 0) = 0 := by
        rw [List.count_eq_zero]
        intro member
        obtain ⟨entry, among, made⟩ := List.mem_flatMap.mp member
        obtain ⟨source, _, same⟩ := List.mem_map.mp made
        have later := List.le_snd_of_mem_zipIdx among
        simp only [Prod.mk.injEq] at same
        omega
      rw [own, rest]
      rfl
    | succ j =>
      have own : (sources.map (fun source => (source, first))).count (s, first + (j + 1)) = 0 := by
        rw [List.count_eq_zero]
        intro member
        obtain ⟨source, _, same⟩ := List.mem_map.mp member
        simp only [Prod.mk.injEq] at same
        omega
      have shift : first + (j + 1) = first + 1 + j := by omega
      rw [own, shift, ih, Nat.zero_add]
      rfl

/-- A source is counted by a correlation as often as that lists it. -/
theorem count_counting_build (rules : List SigmaRule) (kept : List CorrelationRule)
    (listed : List (List Source)) (s : Source) (j : Nat) :
    (counting (build rules kept listed).countedBy s).count j = (listed[j]?.getD []).count s := by
  rw [counting_build, count_pairs, ← count_countings listed s j 0, Nat.zero_add]
  rfl


theorem mem_counting_build {rules : List SigmaRule} {kept : List CorrelationRule}
    {listed : List (List Source)} {s : Source} {j : Nat} :
    j ∈ counting (build rules kept listed).countedBy s ↔
      ∃ sources, listed[j]? = some sources ∧ s ∈ sources := by
  rw [counting_build, ← mem_countings]
  simp only [List.mem_map, List.mem_filter, decide_eq_true_eq]
  constructor
  · rintro ⟨⟨t, i⟩, ⟨member, rfl⟩, rfl⟩
    exact member
  · intro member
    exact ⟨(s, j), ⟨member, rfl⟩, rfl⟩

theorem length_counting_build (rules : List SigmaRule) (kept : List CorrelationRule)
    (listed : List (List Source)) (s : Source) :
    (counting (build rules kept listed).countedBy s).length ≤ (countings listed).length := by
  rw [counting_build, List.length_map]
  exact List.length_filter_le _ _

theorem alerts_iff {kept : List CorrelationRule} {listed : List (List Source)} {s : Source} :
    alerts kept listed s = true ↔
      (∀ (j : Nat) sources, listed[j]? = some sources → s ∉ sources) ∨
        ∃ (j : Nat) (r : CorrelationRule) (sources : List Source), kept[j]? = some r ∧
          listed[j]? = some sources ∧ s ∈ sources ∧ r.generate = true := by
  rw [alerts, decide_eq_true_iff]
  apply or_congr
  · rw [mem_pushAll]
    constructor
    · intro uncounted j sources found member
      exact uncounted (Or.inr ⟨(s, j), mem_countings.mpr ⟨sources, found, member⟩, rfl⟩)
    · rintro unlisted (empty | ⟨⟨t, j⟩, member, rfl⟩)
      · exact absurd empty Finmap.notMem_empty
      · obtain ⟨sources, found, member⟩ := mem_countings.mp member
        exact unlisted j sources found member
  · simp only [generated, List.mem_flatMap]
    constructor
    · rintro ⟨⟨r, sources⟩, entry, member⟩
      obtain ⟨j, inside, found⟩ := List.mem_iff_getElem.mp entry
      split at member
      · rename_i asked
        rw [List.getElem_zip] at found
        cases found
        exact ⟨j, _, _, List.getElem?_eq_getElem _, List.getElem?_eq_getElem _, member, asked⟩
      · cases member
    · rintro ⟨j, r, sources, here, there, member, asked⟩
      refine ⟨(r, sources), List.mem_of_getElem? (i := j) ?_, ?_⟩
      · rw [List.getElem?_zip_eq_some]
        exact ⟨here, there⟩
      · simpa [asked] using member

theorem build_rule (rules : List SigmaRule) (kept : List CorrelationRule)
    (listed : List (List Source)) (i : Nat) :
    (build rules kept listed).rules[i]? =
      rules[i]?.map (fun r => { rule := r, alerts := alerts kept listed (.rule i) }) := by
  simp [build]

theorem build_correlation (rules : List SigmaRule) (kept : List CorrelationRule) (j : Nat) :
    (build rules kept (listedBy rules kept)).correlations[j]? =
      kept[j]?.map (fun r =>
        { rule := r
          sources := sourcesOf (namesOf rules kept) r
          alerts := alerts kept (listedBy rules kept) (.correlation j)
          groups := ∅ }) := by
  simp only [build, List.getElem?_mapIdx, listedBy, List.zip_map_right]
  cases found : kept[j]? with
  | none =>
    have outside : kept.length ≤ j := List.getElem?_eq_none_iff.mp found
    have past : (kept.zip kept)[j]? = none := by
      rw [List.getElem?_eq_none_iff, List.length_zip]
      omega
    simp [past]
  | some r =>
    have both : (kept.zip kept)[j]? = some (r, r) := by
      rw [List.getElem?_zip_eq_some]
      exact ⟨found, found⟩
    simp [both]

/-- Every reference of a correlation kept has its source, in the order of the references. -/
theorem sources_resolved {names : Map String Source} {listed : List String}
    (known : ∀ x ∈ listed, x ∈ names) :
    List.Forall₂ (fun x s => names.lookup x = some s) listed
      (listed.filterMap (fun x => names.lookup x)) := by
  induction listed with
  | nil => exact List.Forall₂.nil
  | cons x listed ih =>
    obtain ⟨s, found⟩ := mem_iff_lookup.mp (known x List.mem_cons_self)
    rw [List.filterMap_cons, found]
    exact List.Forall₂.cons found (ih (fun y member => known y (List.mem_cons_of_mem x member)))

/-! No other choice has one more. -/

/-- No reference of a correlation is the id or the name of a correlation and of anything else. -/
def Unshared (rules : List SigmaRule) (correlations : List CorrelationRule) : Prop :=
  ∀ x, (∃ r ∈ correlations, x ∈ r.rules) →
    ∀ (i : Nat) (a : CorrelationRule), correlations[i]? = some a → x ∈ a.names →
      (∀ r ∈ rules, x ∉ r.names) ∧
        ∀ (j : Nat) (b : CorrelationRule), correlations[j]? = some b → x ∈ b.names → i = j

theorem unshared_sublist {rules : List SigmaRule} {kept correlations : List CorrelationRule}
    (part : kept.Sublist correlations) (unshared : Unshared rules correlations) :
    Unshared rules kept := by
  obtain ⟨f, places⟩ := List.sublist_iff_exists_orderEmbedding_getElem?_eq.mp part
  intro x listed i a found carries
  obtain ⟨r, member, lists⟩ := listed
  rw [places i] at found
  obtain ⟨unruled, once⟩ := unshared x ⟨r, part.subset member, lists⟩ (f i) a found carries
  constructor
  · exact unruled
  · intro j b there too
    rw [places j] at there
    exact f.injective (once (f j) b there too)

/-- In a smaller choice that has all its references a correlation lists what it lists in a
    larger one. -/
theorem lists_of_larger {rules : List SigmaRule} {kept chosen : List CorrelationRule}
    {f : ℕ ↪o ℕ} (places : ∀ i, chosen[i]? = kept[f i]?) (unshared : Unshared rules kept)
    (known : ∀ r ∈ chosen, ∀ x ∈ r.rules, x ∈ namesOf rules chosen) {i j : Nat}
    (lists : Lists rules kept (f i) j) : ∃ k, f k = j ∧ Lists rules chosen i k := by
  obtain ⟨r, found, x, member, value⟩ := lists
  obtain ⟨target, there, carries⟩ := means_of_lookup value
  have own : chosen[i]? = some r := by rw [places i, found]
  have listed : ∃ r ∈ kept, x ∈ r.rules := ⟨r, List.mem_of_getElem? found, member⟩
  obtain ⟨unruled, once⟩ := unshared x listed j target there carries
  have named : ∃ r ∈ chosen, x ∈ r.names := by
    rcases known_iff.mp (known r (List.mem_of_getElem? own) x member) with ⟨s, ruled, named⟩ | here
    · exact absurd named (unruled s ruled)
    · exact here
  obtain ⟨k, s, its, named, chosen_value⟩ := lookup_namesOf_correlation rules named
  have same : j = f k := once (f k) s (by rw [← places k, its]) named
  exact ⟨k, same.symm, r, own, x, member, chosen_value⟩

theorem acyclic_places {rules : List SigmaRule} {kept chosen : List CorrelationRule}
    {f : ℕ ↪o ℕ} (places : ∀ i, chosen[i]? = kept[f i]?) (unshared : Unshared rules kept)
    (admissible : Admissible rules chosen) (i : Nat) :
    ¬ Relation.TransGen (Lists rules kept) (f i) (f i) := by
  intro cycle
  have follows : ∀ c, Relation.TransGen (Lists rules kept) (f i) c →
      ∃ k, f k = c ∧ Relation.TransGen (Lists rules chosen) i k := by
    intro c path
    induction path with
    | single edge =>
      obtain ⟨k, same, step⟩ := lists_of_larger places unshared admissible.known edge
      exact ⟨k, same, Relation.TransGen.single step⟩
    | tail _ edge ih =>
      obtain ⟨k, same, sofar⟩ := ih
      rw [← same] at edge
      obtain ⟨l, last, step⟩ := lists_of_larger places unshared admissible.known edge
      exact ⟨l, last, sofar.tail step⟩
  obtain ⟨k, same, round⟩ := follows (f i) cycle
  rw [f.injective same] at round
  exact admissible.acyclic i round

theorem sublist_settle {rules : List SigmaRule} {kept chosen : List CorrelationRule}
    {s : Settling} (part : chosen.Sublist kept)
    (known : ∀ r ∈ chosen, ∀ x ∈ r.rules, x ∈ namesOf rules chosen) :
    chosen.Sublist (settle rules kept s).1 := by
  have passes : ∀ kept s, chosen.Sublist kept →
      chosen.Sublist (pass (namesOf rules kept) kept s).1 := by
    intro kept s part
    rw [pass_kept]
    have all : chosen.filter (fun r => (missing (namesOf rules kept) r).isNone) = chosen := by
      rw [List.filter_eq_self]
      intro r member
      rw [missing_isNone_iff]
      intro x listed
      rw [known_iff]
      rcases known_iff.mp (known r member x listed) with ruled | ⟨t, there, named⟩
      · exact Or.inl ruled
      · exact Or.inr ⟨t, part.subset there, named⟩
    rw [← all]
    exact List.Sublist.filter _ part
  induction kept, s using settle.induct rules with
  | case1 kept s same =>
    rw [settle, if_pos same]
    exact passes kept s part
  | case2 kept s fewer ih =>
    rw [settle, if_neg fewer]
    exact ih (passes kept s part)

theorem sublist_without {kept chosen : List CorrelationRule} {dropped : List Nat} {f : ℕ ↪o ℕ}
    (places : ∀ i, chosen[i]? = kept[f i]?)
    (stay : ∀ i, f i ∉ dropped) :
    chosen.Sublist (without kept dropped) := by
  have placed : (chosen.mapIdx (fun i r => (r, f i))).Sublist kept.zipIdx := by
    refine List.sublist_iff_exists_orderEmbedding_getElem?_eq.mpr ⟨f, fun i => ?_⟩
    simp only [List.getElem?_mapIdx, List.getElem?_zipIdx, places i, Nat.zero_add]
  have stays : (chosen.mapIdx (fun i r => (r, f i))).filter
      (fun entry => decide (entry.2 ∉ dropped)) = chosen.mapIdx (fun i r => (r, f i)) := by
    rw [List.filter_eq_self]
    intro entry member
    obtain ⟨i, inside, rfl⟩ := List.mem_mapIdx.mp member
    exact decide_eq_true (stay i)
  have kept_part := List.Sublist.filter (fun entry => decide (entry.2 ∉ dropped)) placed
  rw [stays] at kept_part
  have firsts := List.Sublist.map (fun entry => entry.1) kept_part
  have all : (chosen.mapIdx (fun i r => (r, f i))).map (fun entry => entry.1) = chosen := by
    apply List.ext_getElem?
    intro i
    simp only [List.getElem?_map, List.getElem?_mapIdx, Option.map_map]
    exact Option.map_id_apply
  rwa [all] at firsts

/-- Whatever choice has the two properties is among what is kept. -/
theorem kept_greatest {rules : List SigmaRule} {correlations : List CorrelationRule}
    {absent : Finset String} (unshared : Unshared rules correlations)
    {chosen : List CorrelationRule} (part : chosen.Sublist correlations)
    (admissible : Admissible rules chosen) :
    chosen.Sublist ((withAbsent rules correlations absent).1.correlations.map (fun c => c.rule)) := by
  induction correlations, absent using withAbsent.induct rules with
  | case1 correlations absent none_found =>
    rw [withAbsent, if_pos none_found]
    dsimp only
    rw [build_kept]
    exact sublist_settle part admissible.known
  | case2 correlations absent found some_found ih =>
    rw [withAbsent, if_neg some_found]
    have settled_part : chosen.Sublist (settled rules correlations absent).1 :=
      sublist_settle part admissible.known
    have settled_unshared := unshared_sublist
      (settle_sublist rules correlations
        { absent := absent, notApplicable := 0, errors := [] }) unshared
    obtain ⟨f, places⟩ := List.sublist_iff_exists_orderEmbedding_getElem?_eq.mp settled_part
    have stays : ∀ i, f i ∉ onCycles rules correlations absent := by
      intro i member
      have none_found := acyclic_places places settled_unshared admissible i
      rw [onCycles, mem_cyclic, Search.onCycle_iff, edges_eq] at member
      exact none_found member.2
    have smaller : (remaining rules correlations absent).Sublist correlations :=
      (without_sublist _ _).trans (settle_sublist rules _ _)
    exact ih (unshared_sublist smaller unshared) (sublist_without places stays)

end SentinelAgent.Scanner
