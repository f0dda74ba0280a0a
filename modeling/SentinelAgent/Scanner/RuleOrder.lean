import SentinelAgent.Scanner.Reordering

/-!
The order in which the rules are loaded. An engine of the same rules and correlations in another
order has them at other places, as long as no reference is ambiguous: where several carry it, the
last one is meant.
-/
namespace SentinelAgent.Scanner

open Maps Places

/-- No reference of a correlation is the id or the name of two. -/
def Unambiguous (rules : List SigmaRule) (correlations : List CorrelationRule) : Prop :=
  ∀ x, (∃ r ∈ correlations, x ∈ r.rules) → ∀ s t,
    Means rules correlations x s → Means rules correlations x t → s = t

theorem unshared_of_unambiguous {rules : List SigmaRule} {correlations : List CorrelationRule}
    (unambiguous : Unambiguous rules correlations) : Unshared rules correlations := by
  intro x listed i a found carries
  constructor
  · intro r member named
    obtain ⟨k, there⟩ := List.mem_iff_getElem?.mp member
    have same := unambiguous x listed (.rule k) (.correlation i) ⟨r, there, named⟩
      ⟨a, found, carries⟩
    cases same
  · intro j b there named
    have same := unambiguous x listed (.correlation i) (.correlation j) ⟨a, found, carries⟩
      ⟨b, there, named⟩
    exact Source.correlation.inj same

/-- A source among some of the correlations, by its place among all. -/
def placed (f : ℕ ↪o ℕ) : Source → Source
  | .rule i => .rule i
  | .correlation j => .correlation (f j)

theorem placed_injective (f : ℕ ↪o ℕ) : Function.Injective (placed f) := by
  intro s t same
  cases s <;> cases t <;> simp_all [placed]

theorem unambiguous_sublist {rules : List SigmaRule} {kept correlations : List CorrelationRule}
    (part : kept.Sublist correlations) (unambiguous : Unambiguous rules correlations) :
    Unambiguous rules kept := by
  obtain ⟨f, places⟩ := List.sublist_iff_exists_orderEmbedding_getElem?_eq.mp part
  have means : ∀ x s, Means rules kept x s → Means rules correlations x (placed f s) := by
    intro x s meant
    cases s with
    | rule i => exact meant
    | correlation j =>
      obtain ⟨r, found, carries⟩ := meant
      exact ⟨r, by rw [← places j, found], carries⟩
  intro x listed s t meant meant'
  obtain ⟨r, member, reference⟩ := listed
  exact placed_injective f (unambiguous x ⟨r, part.subset member, reference⟩ _ _ (means x s meant)
    (means x t meant'))

section Moved
variable {ρ κ : Equiv.Perm ℕ} {rules rules' : List SigmaRule}
  {kept kept' : List CorrelationRule}

theorem means_moved (ruled : Moved ρ rules rules') (moved : Moved κ kept kept') {x : String}
    {s : Source} : Means rules' kept' x (relabel ρ κ s) ↔ Means rules kept x s := by
  cases s with
  | rule i =>
    change (∃ r, rules'[ρ i]? = some r ∧ x ∈ r.names) ↔ _
    rw [ruled i]
    rfl
  | correlation j =>
    change (∃ r, kept'[κ j]? = some r ∧ x ∈ r.names) ↔ _
    rw [moved j]
    rfl

theorem unambiguous_moved (ruled : Moved ρ rules rules') (moved : Moved κ kept kept')
    (unambiguous : Unambiguous rules kept) : Unambiguous rules' kept' := by
  intro x listed s t meant meant'
  obtain ⟨r, member, reference⟩ := listed
  obtain ⟨s, rfl⟩ := (relabel ρ κ).surjective s
  obtain ⟨t, rfl⟩ := (relabel ρ κ).surjective t
  rw [unambiguous x ⟨r, (mem_moved moved).mp member, reference⟩ s t
    ((means_moved ruled moved).mp meant) ((means_moved ruled moved).mp meant')]

theorem known_moved (ruled : Moved ρ rules rules') (moved : Moved κ kept kept') {x : String} :
    x ∈ namesOf rules' kept' ↔ x ∈ namesOf rules kept := by
  simp only [known_iff, mem_moved ruled, mem_moved moved]

/-- An unambiguous reference has the same source, at its new place. -/
theorem lookup_moved (ruled : Moved ρ rules rules') (moved : Moved κ kept kept')
    (unambiguous : Unambiguous rules kept) {r : CorrelationRule} (member : r ∈ kept) {x : String}
    (listed : x ∈ r.rules) :
    (namesOf rules' kept').lookup x = ((namesOf rules kept).lookup x).map (relabel ρ κ) := by
  cases found : (namesOf rules kept).lookup x with
  | none =>
    rw [Finmap.lookup_eq_none, ← known_moved ruled moved] at found
    rw [Finmap.lookup_eq_none.mpr found]
    rfl
  | some s =>
    have known := (known_moved ruled moved).mpr (mem_iff_lookup.mpr ⟨s, found⟩)
    obtain ⟨t, found'⟩ := mem_iff_lookup.mp known
    have meant := (means_moved ruled moved).mpr (means_of_lookup found)
    have listed' : ∃ r ∈ kept', x ∈ r.rules := ⟨r, (mem_moved moved).mpr member, listed⟩
    rw [found', Option.map_some, unambiguous_moved ruled moved unambiguous x listed' t
      (relabel ρ κ s) (means_of_lookup found') meant]

theorem lists_moved (ruled : Moved ρ rules rules') (moved : Moved κ kept kept')
    (unambiguous : Unambiguous rules kept) {i j : Nat} :
    Lists rules' kept' (κ i) (κ j) ↔ Lists rules kept i j := by
  unfold Lists
  rw [moved i]
  apply exists_congr
  intro r
  apply and_congr_right
  intro found
  apply exists_congr
  intro x
  apply and_congr_right
  intro listed
  rw [lookup_moved ruled moved unambiguous (List.mem_of_getElem? found) listed]
  have place : Source.correlation (κ j) = relabel ρ κ (.correlation j) := rfl
  rw [place]
  exact Option.map_eq_some_iff.trans ⟨fun ⟨s, its, same⟩ => by
    rw [its, (relabel ρ κ).injective same], fun its => ⟨_, its, rfl⟩⟩

theorem admissible_moved (ruled : Moved ρ rules rules') (moved : Moved κ kept kept')
    (unambiguous : Unambiguous rules kept) (admissible : Admissible rules kept) :
    Admissible rules' kept' where
  known r member x listed :=
    (known_moved ruled moved).mpr (admissible.known r ((mem_moved moved).mp member) x listed)
  acyclic i cycle := by
    apply admissible.acyclic (κ.symm i)
    refine Relation.TransGen.lift κ.symm (fun a b lists => ?_) i i cycle
    change Lists rules kept (κ.symm a) (κ.symm b)
    rw [← lists_moved ruled moved unambiguous, κ.apply_symm_apply, κ.apply_symm_apply]
    exact lists

end Moved

/-! What is kept. -/

/-- The correlations kept are the largest choice with all references and no cycle, and this does
    not depend on an order. -/
theorem kept_part {rules rules' : List SigmaRule} {correlations correlations' : List CorrelationRule}
    (absent : Finset String) (ruled : rules.Perm rules') (same : correlations.Perm correlations')
    (unambiguous : Unambiguous rules correlations) :
    ∃ chosen : List CorrelationRule,
      chosen.Perm (withAbsent rules correlations absent).1.kept ∧
      chosen.Sublist (withAbsent rules' correlations' absent).1.kept := by
  have built := withAbsent_wellBuilt rules correlations absent
  obtain ⟨chosen, moved, part⟩ := List.exists_perm_sublist built.part same
  obtain ⟨ρ, rule_places⟩ := exists_moved ruled
  obtain ⟨κ, places⟩ := exists_moved same
  obtain ⟨τ, kept_places⟩ := exists_moved moved.symm
  have unshared := unshared_of_unambiguous (unambiguous_moved rule_places places unambiguous)
  have admissible := admissible_moved rule_places kept_places
    (unambiguous_sublist built.part unambiguous) built.admissible
  exact ⟨chosen, moved, kept_greatest unshared part admissible⟩

theorem kept_perm {rules rules' : List SigmaRule} {correlations correlations' : List CorrelationRule}
    (absent : Finset String) (ruled : rules.Perm rules') (same : correlations.Perm correlations')
    (unambiguous : Unambiguous rules correlations) :
    (withAbsent rules correlations absent).1.kept.Perm
      (withAbsent rules' correlations' absent).1.kept := by
  obtain ⟨ρ, rule_places⟩ := exists_moved ruled
  obtain ⟨κ, places⟩ := exists_moved same
  have unambiguous' := unambiguous_moved rule_places places unambiguous
  obtain ⟨chosen, moved, part⟩ := kept_part absent ruled same unambiguous
  obtain ⟨chosen', moved', part'⟩ := kept_part absent ruled.symm same.symm unambiguous'
  have less := part.length_le
  have less' := part'.length_le
  rw [moved.length_eq] at less
  rw [moved'.length_eq] at less'
  rw [← part.eq_of_length (by rw [moved.length_eq]; omega)]
  exact moved.symm

/-! The engine that is built. -/

section Built
variable {ρ κ : Equiv.Perm ℕ} {rules rules' : List SigmaRule}
  {kept kept' : List CorrelationRule}

theorem sources_moved (ruled : Moved ρ rules rules') (moved : Moved κ kept kept')
    (unambiguous : Unambiguous rules kept) {r : CorrelationRule} (member : r ∈ kept) :
    sourcesOf (namesOf rules' kept') r = (sourcesOf (namesOf rules kept) r).map (relabel ρ κ) := by
  rw [sourcesOf, sourcesOf, List.map_filterMap]
  exact List.filterMap_congr fun x listed => lookup_moved ruled moved unambiguous member listed

theorem listedBy_moved (ruled : Moved ρ rules rules') (moved : Moved κ kept kept')
    (unambiguous : Unambiguous rules kept) (j : Nat) :
    (listedBy rules' kept')[κ j]? =
      ((listedBy rules kept)[j]?).map (List.map (relabel ρ κ)) := by
  rw [listedBy, listedBy, List.getElem?_map, List.getElem?_map, moved j]
  cases found : kept[j]? with
  | none => rfl
  | some r =>
    exact congrArg some (sources_moved ruled moved unambiguous (List.mem_of_getElem? found))

theorem alerts_moved (ruled : Moved ρ rules rules') (moved : Moved κ kept kept')
    (unambiguous : Unambiguous rules kept) (s : Source) :
    alerts kept' (listedBy rules' kept') (relabel ρ κ s) = alerts kept (listedBy rules kept) s := by
  have listed := listedBy_moved ruled moved unambiguous
  have member : ∀ sources : List Source, relabel ρ κ s ∈ sources.map (relabel ρ κ) ↔ s ∈ sources :=
    fun sources => List.mem_map_of_injective (relabel ρ κ).injective
  rw [Bool.eq_iff_iff, alerts_iff, alerts_iff]
  apply or_congr
  · constructor
    · intro silent j sources found
      rw [← member]
      exact silent (κ j) _ (by rw [listed, found]; rfl)
    · intro silent j sources found
      obtain ⟨j, rfl⟩ := κ.surjective j
      rw [listed] at found
      obtain ⟨before, there, rfl⟩ := Option.map_eq_some_iff.mp found
      rw [member]
      exact silent j before there
  · constructor
    · rintro ⟨j, r, sources, here, found, lists, asked⟩
      obtain ⟨j, rfl⟩ := κ.surjective j
      rw [listed] at found
      obtain ⟨before, there, rfl⟩ := Option.map_eq_some_iff.mp found
      rw [moved j] at here
      exact ⟨j, r, before, here, there, (member before).mp lists, asked⟩
    · rintro ⟨j, r, sources, here, found, lists, asked⟩
      refine ⟨κ j, r, sources.map (relabel ρ κ), ?_, ?_, (member sources).mpr lists, asked⟩
      · rw [moved j, here]
      · rw [listed, found]
        rfl

theorem rules_moved (ruled : Moved ρ rules rules') (moved : Moved κ kept kept')
    (unambiguous : Unambiguous rules kept) :
    Moved ρ (build rules kept (listedBy rules kept)).rules
      (build rules' kept' (listedBy rules' kept')).rules := by
  intro i
  rw [build_rule, build_rule, ruled i]
  have alerts := alerts_moved ruled moved unambiguous (.rule i)
  have place : Source.rule (ρ i) = relabel ρ κ (.rule i) := rfl
  rw [place, alerts]

theorem correlations_moved (ruled : Moved ρ rules rules') (moved : Moved κ kept kept')
    (unambiguous : Unambiguous rules kept) (j : Nat) :
    (build rules' kept' (listedBy rules' kept')).correlations[κ j]? =
      (build rules kept (listedBy rules kept)).correlations[j]?.map
        (Correlation.moved (relabel ρ κ)) := by
  rw [build_correlation, build_correlation, moved j]
  have alerts := alerts_moved ruled moved unambiguous (.correlation j)
  have place : Source.correlation (κ j) = relabel ρ κ (.correlation j) := rfl
  rw [place, alerts]
  cases found : kept[j]? with
  | none => rfl
  | some r =>
    simp only [Option.map_some]
    rw [sources_moved ruled moved unambiguous (List.mem_of_getElem? found)]
    rfl

/-- The rules looked at for an event, by what they are written for. -/
theorem candidates_build (rules : List SigmaRule) (kept : List CorrelationRule)
    (listed : List (List Source)) (ev : LogEvent) :
    (build rules kept listed).candidates ev =
      picked (fun r => decide (r.service.isNone ∧ r.category.isNone)) rules ++
      ev.services.flatMap (fun service =>
        picked (fun r => decide (r.service = some service)) rules) ++
      ev.categories.flatMap (fun category =>
        picked (fun r => decide ((if r.service.isNone then r.category else none) =
          some category)) rules) := by
  have every : (build rules kept listed).everyLog =
      picked (fun r => decide (r.service.isNone ∧ r.category.isNone)) rules := by
    rw [← filterMap_picked]
    simp only [decide_eq_true_eq]
    rfl
  have service : ∀ service, ((build rules kept listed).byService.lookup service).getD [] =
      picked (fun r => decide (r.service = some service)) rules := by
    intro service
    rw [← keyed_picked, build, lookup_pushAll, Finmap.lookup_empty]
    rfl
  have category : ∀ category, ((build rules kept listed).byCategory.lookup category).getD [] =
      picked (fun r => decide ((if r.service.isNone then r.category else none) =
        some category)) rules := by
    intro category
    rw [← keyed_picked, build, lookup_pushAll, Finmap.lookup_empty]
    have same : (fun entry : SigmaRule × Nat => if entry.1.service.isNone then
          entry.1.category.map (fun category => (category, entry.2)) else none) =
        fun entry => (if entry.1.service.isNone then entry.1.category else none).map
          (fun category => (category, entry.2)) := by
      funext entry
      split <;> rfl
    simp only [same]
    rfl
  simp only [LogRuleEngine.candidates, every, service, category]

theorem reordered_build (ruled : Moved ρ rules rules') (moved : Moved κ kept kept')
    (unambiguous : Unambiguous rules kept) :
    Reordered ρ κ (build rules kept (listedBy rules kept))
      (build rules' kept' (listedBy rules' kept')) where
  rules := rules_moved ruled moved unambiguous
  correlations := correlations_moved ruled moved unambiguous
  candidates ev := by
    rw [candidates_build, candidates_build]
    simp only [List.map_append, List.map_flatMap]
    apply List.Perm.append
    · apply List.Perm.append
      · exact picked_moved ruled _
      · exact List.Perm.flatMap_left _ fun service _ => picked_moved ruled _
    · exact List.Perm.flatMap_left _ fun category _ => picked_moved ruled _

theorem wired_build (admissible : Admissible rules kept) :
    Wired (build rules kept (listedBy rules kept)) where
  counted s j c found := by
    rw [build_correlation] at found
    obtain ⟨r, there, rfl⟩ := Option.map_eq_some_iff.mp found
    rw [count_counting_build, listedBy, List.getElem?_map, there]
    rfl
  height := by
    refine ⟨(listGraph (listedBy rules kept)).height, fun i j lists => ?_⟩
    rw [build_lists, ← edge_iff] at lists
    apply Search.height_lt ?_ lists
    rw [edges_eq]
    exact admissible.acyclic

end Built

/-! The order of the rules. -/

/-- However the rules and the correlations are ordered, each event gives the same alerts. -/
def OrderImmaterial (rules : List SigmaRule) (correlations : List CorrelationRule)
    (absent : Finset String) (evs : List LogEvent) : Prop :=
  ∀ rules' correlations', rules.Perm rules' → correlations.Perm correlations' →
    ∃ fuel, ∀ more, fuel ≤ more → ∃ ds ds',
      (withAbsent rules correlations absent).1.evaluateAll more evs = some ds ∧
      (withAbsent rules' correlations' absent).1.evaluateAll more evs = some ds' ∧
      List.Forall₂ SameAlerts ds ds'

theorem order_immaterial {rules : List SigmaRule} {correlations : List CorrelationRule}
    {absent : Finset String} {evs : List LogEvent}
    (unambiguous : Unambiguous rules correlations)
    (apart : ∀ fuel, (withAbsent rules correlations absent).1.Apart fuel evs) :
    OrderImmaterial rules correlations absent evs := by
  intro rules' correlations' ruled same
  have moved := kept_perm absent ruled same unambiguous
  obtain ⟨kept, part, admissible, engine⟩ := withAbsent_kept rules correlations absent
  obtain ⟨kept', part', admissible', engine'⟩ := withAbsent_kept rules' correlations' absent
  rw [engine, engine', LogRuleEngine.kept, LogRuleEngine.kept, build_kept, build_kept] at moved
  rw [engine] at apart
  rw [engine, engine']
  obtain ⟨ρ, rule_places⟩ := exists_moved ruled
  obtain ⟨κ, places⟩ := exists_moved moved
  have reordered := reordered_build rule_places places (unambiguous_sublist part unambiguous)
  obtain ⟨first, ds, done⟩ := evaluateAll_done (counts_build admissible) evs
  obtain ⟨second, ds', done'⟩ := evaluateAll_done (counts_build admissible') evs
  refine ⟨max first second, fun more enough => ⟨ds, ds', ?_, ?_, ?_⟩⟩
  · exact done more (by omega)
  · exact done' more (by omega)
  · exact evaluateAll_reordered (wired_build admissible) (wired_build admissible') reordered
      (apart more) (done more (by omega)) (done' more (by omega))

/-- Without temporal correlations nothing is asked of the events. -/
theorem apart_of_untemporal {e : LogRuleEngine}
    (untemporal : ∀ c ∈ e.correlations, ¬ (c.rule.kind = .temporal ∨ c.rule.kind = .temporalOrdered))
    (fuel : Nat) (evs : List LogEvent) : e.Apart fuel evs := by
  induction evs generalizing e with
  | nil => trivial
  | cons ev evs ih =>
    constructor
    · exact fun c member temporal => absurd temporal (untemporal c member)
    · intro out done
      apply ih
      obtain ⟨d, progress, _, rfl⟩ := evaluate_progress done
      intro c member
      obtain ⟨j, found⟩ := List.mem_iff_getElem?.mp member
      rw [progress.correlations] at found
      obtain ⟨c₀, first, rfl⟩ := Option.map_eq_some_iff.mp found
      rw [after_fixed]
      exact untemporal c₀ (List.mem_of_getElem? first)

theorem counting_order_immaterial :
    OrderImmaterial [anyEvent "r" none, anyEvent "q" none] [onceOf "a" none ["r"]] ∅
      [⟨[], [], ∅, 0⟩, ⟨[], [], ∅, nanosPerSecond⟩] := by
  apply order_immaterial
  · intro x listed s t meant meant'
    obtain ⟨r, member, reference⟩ := listed
    rw [List.mem_singleton.mp member] at reference
    rw [List.mem_singleton.mp reference] at meant meant'
    have only : ∀ s, Means [anyEvent "r" none, anyEvent "q" none] [onceOf "a" none ["r"]] "r" s →
        s = .rule 0 := by
      intro s meant
      match s with
      | .rule 0 => rfl
      | .rule 1 =>
        obtain ⟨r, found, carries⟩ := meant
        cases found
        exact absurd carries (by decide)
      | .rule (i + 2) =>
        obtain ⟨r, found, _⟩ := meant
        cases found
      | .correlation 0 =>
        obtain ⟨r, found, carries⟩ := meant
        cases found
        exact absurd carries (by decide)
      | .correlation (j + 1) =>
        obtain ⟨r, found, _⟩ := meant
        cases found
    rw [only s meant, only t meant']
  · intro fuel
    apply apart_of_untemporal
    intro c member
    have part := (withAbsent_wellBuilt [anyEvent "r" none, anyEvent "q" none]
      [onceOf "a" none ["r"]] ∅).part
    have its := List.mem_singleton.mp (part.subset (List.mem_map_of_mem member))
    rw [its]
    decide

/-- A rule for the events that have a field. -/
def onField (field : String) (name : Option String) : SigmaRule :=
  { anyEvent field name with matchesEvent := fun fields => (fields.lookup field).isSome }

def bothOf (first second : String) : CorrelationRule :=
  { onceOf "both" none [first, second] with
    kind := .temporal
    atLeast := 2
    atLeast_pos := Nat.two_pos }

def eventWith (fields : List String) (time : Int) : LogEvent where
  services := []
  categories := []
  fields := fields.foldl (fun event field => event.insert field "x") ∅
  timestamp := time

/-- Two orders that give different alerts. -/
theorem order_matters_of {rules rules' : List SigmaRule} {correlations : List CorrelationRule}
    {evs : List LogEvent} (fuel : Nat)
    (alerts alerts' : List (List Alert))
    (ruled : rules.Perm rules')
    (run : ((withAbsent rules correlations ∅).1.evaluateAll fuel evs).map
      (List.map (List.map Detection.alert)) = some alerts)
    (run' : ((withAbsent rules' correlations ∅).1.evaluateAll fuel evs).map
      (List.map (List.map Detection.alert)) = some alerts')
    (differ : ¬ List.Forall₂ (fun as as' => ∀ a, a ∈ as ↔ a ∈ as') alerts alerts') :
    ¬ OrderImmaterial rules correlations ∅ evs := by
  intro immaterial
  obtain ⟨enough, same⟩ := immaterial rules' correlations ruled (List.Perm.refl _)
  obtain ⟨ds, ds', done, done', alike⟩ := same (enough + fuel) (by omega)
  obtain ⟨first, found, rfl⟩ := Option.map_eq_some_iff.mp run
  obtain ⟨second, found', rfl⟩ := Option.map_eq_some_iff.mp run'
  rw [evaluateAll_more found (by omega)] at done
  rw [evaluateAll_more found' (by omega)] at done'
  cases done
  cases done'
  apply differ
  rw [List.forall₂_map_left_iff, List.forall₂_map_right_iff]
  exact alike

/-- A temporal correlation that counts both its rules for one event, and a name two rules have. -/
theorem order_matters :
    ¬ OrderImmaterial [onField "a" none, onField "b" none] [bothOf "a" "b"] ∅
      [eventWith ["a"] 0, eventWith ["a", "b"] 1, eventWith ["b"] 2] ∧
    ¬ OrderImmaterial [onField "a" (some "n"), onField "b" (some "n")] [onceOf "c" none ["n"]] ∅
      [eventWith ["a"] 0] := by
  constructor
  · apply order_matters_of 10 [[], [⟨"both", some []⟩], [⟨"both", some []⟩]]
      [[], [⟨"both", some []⟩], []] (List.Perm.swap _ _ _)
    · decide +kernel
    · decide +kernel
    · simp
  · apply order_matters_of 10 [[⟨"a", none⟩]] [[⟨"c", some []⟩]] (List.Perm.swap _ _ _)
    · decide +kernel
    · decide +kernel
    · rintro (_ | ⟨same, _⟩)
      have other := (same ⟨"a", none⟩).mp List.mem_cons_self
      exact absurd other (by decide)

end SentinelAgent.Scanner
