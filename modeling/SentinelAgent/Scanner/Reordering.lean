import SentinelAgent.Library.Places
import SentinelAgent.Scanner.EventCounts

/-!
Two engines that have the same rules and correlations at other places. What a correlation does
for one event depends on how many sources it counts, not on their order, unless it is a temporal
one that counts two of them.
-/
namespace SentinelAgent.Scanner

open Maps Places

/-- The rules and the correlations are moved to other places. -/
def relabel (ρ κ : Equiv.Perm ℕ) : Equiv.Perm Source where
  toFun
    | .rule i => .rule (ρ i)
    | .correlation j => .correlation (κ j)
  invFun
    | .rule i => .rule (ρ.symm i)
    | .correlation j => .correlation (κ.symm j)
  left_inv s := by cases s <;> simp
  right_inv s := by cases s <;> simp

def Correlation.moved (σ : Equiv.Perm Source) (c : Correlation) : Correlation :=
  { c with sources := c.sources.map σ }

section Moved
variable (σ : Equiv.Perm Source) (c : Correlation) (ev : LogEvent)

theorem idxOf_moved (sources : List Source) (s : Source) :
    (sources.map σ).idxOf? (σ s) = sources.idxOf? s := by
  induction sources with
  | nil => rfl
  | cons t sources ih => simp [List.idxOf?_cons, ih]

theorem countIn_moved (key : List String) (position : Nat) (fields : SigmaEvent) (time : Int) :
    (c.moved σ).countIn key position fields time =
      ((c.countIn key position fields time).1.moved σ,
        (c.countIn key position fields time).2) := by
  have same : (c.moved σ).observe (((c.moved σ).window key).seen time) position fields time =
      c.observe ((c.window key).seen time) position fields time := by
    simp only [Correlation.observe, Correlation.moved, List.length_map]
    rfl
  have rule : (c.moved σ).rule = c.rule := rfl
  simp only [Correlation.countIn, same, rule]
  rcases c.observe ((c.window key).seen time) position fields time with ⟨w, _ | count⟩
  · rfl
  · by_cases below : count < c.rule.atLeast
    · simp only [if_pos below]
      rfl
    · simp only [if_neg below]
      rfl

theorem count_moved (s : Source) (fields : SigmaEvent) (time : Int) :
    (c.moved σ).count (σ s) fields time =
      ((c.count s fields time).1.moved σ, (c.count s fields time).2) := by
  have place : (c.moved σ).sources.idxOf? (σ s) = c.sources.idxOf? s := idxOf_moved σ c.sources s
  have rule : (c.moved σ).rule = c.rule := rfl
  have groups : (c.moved σ).groups = c.groups := rfl
  rw [Correlation.count, Correlation.count, place, rule, groups]
  cases groupKey c.rule.groupBy fields with
  | none => rfl
  | some key =>
    cases c.sources.idxOf? s with
    | none => rfl
    | some position =>
      dsimp only
      rcases makeRoom c.groups key (time - c.rule.span) with ⟨left, room⟩
      cases room with
      | false => rfl
      | true => exact countIn_moved σ { c with groups := left } key position fields time

theorem step_moved (s : Source) :
    (c.moved σ).step (ev.matchOf (σ s)) = (c.step (ev.matchOf s)).moved σ := by
  simp only [Correlation.step, LogEvent.matchOf, count_moved]

theorem reports_moved (s : Source) :
    (c.moved σ).reports (ev.matchOf (σ s)) = c.reports (ev.matchOf s) := by
  simp only [Correlation.reports, LogEvent.matchOf, count_moved]

theorem after_moved (sources : List Source) :
    (c.moved σ).after ev (sources.map σ) = (c.after ev sources).moved σ := by
  induction sources generalizing c with
  | nil => rfl
  | cons s sources ih => rw [List.map_cons, after_cons, after_cons, step_moved, ih]

theorem hits_moved (sources : List Source) :
    (c.moved σ).hits ev (sources.map σ) = c.hits ev sources := by
  induction sources generalizing c with
  | nil => rfl
  | cons s sources ih =>
    rw [List.map_cons, Correlation.hits, Correlation.hits, reports_moved, step_moved, ih]

end Moved

/-! Sources that are counted alike. -/

/-- Whatever the groups hold, it makes no difference which of the two is counted. -/
def Correlation.Alike (c : Correlation) (ev : LogEvent) (s t : Source) : Prop :=
  ∀ groups, ({ c with groups := groups }).count s ev.fields ev.timestamp =
    ({ c with groups := groups }).count t ev.fields ev.timestamp

theorem alike_step {c : Correlation} {ev : LogEvent} {s t : Source} (alike : c.Alike ev s t)
    (m : SourceMatch) : (c.step m).Alike ev s t := by
  intro groups
  rw [step_fixed]
  exact alike groups

/-- Sources counted alike count as one of them, so many times. -/
theorem counted_as_one {ev : LogEvent} {t : Source} (sources : List Source) {c : Correlation}
    (alike : ∀ s ∈ sources, c.Alike ev s t) :
    c.after ev sources = c.after ev (List.replicate sources.length t) ∧
      c.hits ev sources = c.hits ev (List.replicate sources.length t) := by
  induction sources generalizing c with
  | nil => exact ⟨rfl, rfl⟩
  | cons s sources ih =>
    have first := alike s List.mem_cons_self c.groups
    have step : c.step (ev.matchOf s) = c.step (ev.matchOf t) := congrArg Prod.fst first
    have report : c.reports (ev.matchOf s) = c.reports (ev.matchOf t) := congrArg Prod.snd first
    obtain ⟨after, hits⟩ := ih fun u member =>
      alike_step (alike u (List.mem_cons_of_mem s member)) (ev.matchOf t)
    constructor
    · rw [List.length_cons, List.replicate_succ, after_cons, after_cons, step, after]
    · rw [List.length_cons, List.replicate_succ, Correlation.hits, Correlation.hits, step, report,
        hits]

/-- Counted at its new place a correlation does the same, in whatever order it counts. -/
theorem counted_moved {ev : LogEvent} {σ : Equiv.Perm Source} {c : Correlation}
    {sources sources' : List Source} (alike : ∀ s ∈ sources, ∀ t ∈ sources, c.Alike ev s t)
    (same : sources'.Perm (sources.map σ)) :
    (c.moved σ).after ev sources' = (c.after ev sources).moved σ ∧
      (c.moved σ).hits ev sources' = c.hits ev sources := by
  cases sources with
  | nil =>
    rw [List.map_nil, List.perm_nil] at same
    rw [same]
    exact ⟨rfl, rfl⟩
  | cons t rest =>
    have all : ∀ s ∈ t :: rest, c.Alike ev s t := fun s member =>
      alike s member t List.mem_cons_self
    have moved : ∀ s' ∈ sources', (c.moved σ).Alike ev s' (σ t) := by
      intro s' member
      obtain ⟨s, among, rfl⟩ := List.mem_map.mp (same.mem_iff.mp member)
      intro groups
      have first := count_moved σ { c with groups := groups } s ev.fields ev.timestamp
      have second := count_moved σ { c with groups := groups } t ev.fields ev.timestamp
      rw [all s among groups] at first
      exact first.trans second.symm
    have long : sources'.length = (t :: rest).length := by
      rw [same.length_eq, List.length_map]
    obtain ⟨after, hits⟩ := counted_as_one _ all
    obtain ⟨after', hits'⟩ := counted_as_one _ moved
    rw [after, hits, after', hits', long, ← List.map_replicate, after_moved, hits_moved]
    exact ⟨rfl, rfl⟩

/-! Two engines. -/

/-- Each correlation counts what it lists, and lies above it. -/
structure Wired (e : LogRuleEngine) : Prop where
  counted : ∀ s (j : Nat) c, e.correlations[j]? = some c →
    (counting e.countedBy s).count j = c.sources.count s
  height : ∃ h : Nat → Nat, ∀ i j, e.Lists i j → h j < h i

structure Reordered (ρ κ : Equiv.Perm ℕ) (e e' : LogRuleEngine) : Prop where
  rules : Moved ρ e.rules e'.rules
  correlations : ∀ j, e'.correlations[κ j]? =
    e.correlations[j]?.map (Correlation.moved (relabel ρ κ))
  candidates : ∀ ev, (e'.candidates ev).Perm ((e.candidates ev).map ρ)

/-- The sources taken off the work list for an event. -/
def LogRuleEngine.taken (e : LogRuleEngine) (fuel : Nat) (ev : LogEvent) : List Source :=
  drained e.countedBy ev fuel (e.firstMatches ev)

/-- No temporal correlation counts two of these sources. -/
def LogRuleEngine.CountsApart (e : LogRuleEngine) (ev : LogEvent) (taken : List Source) : Prop :=
  ∀ c ∈ e.correlations, c.rule.kind = .temporal ∨ c.rule.kind = .temporalOrdered →
    ∀ s ∈ taken, ∀ t ∈ taken, c.groupOf s ev.fields ≠ none → c.groupOf t ev.fields ≠ none → s = t

theorem alike_of_apart {c : Correlation} {ev : LogEvent} {s t : Source} (lists : s ∈ c.sources)
    (lists' : t ∈ c.sources)
    (apart : c.rule.kind = .temporal ∨ c.rule.kind = .temporalOrdered →
      c.groupOf s ev.fields ≠ none → c.groupOf t ev.fields ≠ none → s = t) : c.Alike ev s t := by
  intro groups
  rw [Correlation.groupOf, Correlation.groupOf, if_pos lists, if_pos lists'] at apart
  obtain ⟨place, at_place⟩ : ∃ i, c.sources.idxOf? s = some i :=
    Option.ne_none_iff_exists'.mp fun unlisted => List.idxOf?_eq_none_iff.mp unlisted lists
  obtain ⟨place', at_place'⟩ : ∃ i, c.sources.idxOf? t = some i :=
    Option.ne_none_iff_exists'.mp fun unlisted => List.idxOf?_eq_none_iff.mp unlisted lists'
  rw [Correlation.count, Correlation.count]
  simp only [at_place, at_place']
  cases grouped : groupKey c.rule.groupBy ev.fields with
  | none => rfl
  | some key =>
    simp only [grouped, ne_eq, reduceCtorEq, not_false_eq_true, forall_const] at apart
    by_cases temporal : c.rule.kind = .temporal ∨ c.rule.kind = .temporalOrdered
    · have same := apart temporal
      rw [same, at_place'] at at_place
      cases at_place
      rfl
    · have observed : ∀ left w, ({ c with groups := left }).observe w place ev.fields ev.timestamp =
          ({ c with groups := left }).observe w place' ev.fields ev.timestamp := by
        intro left w
        cases kind : c.rule.kind <;> simp_all [Correlation.observe]
      have counted : ∀ left, ({ c with groups := left }).countIn key place ev.fields ev.timestamp =
          ({ c with groups := left }).countIn key place' ev.fields ev.timestamp := by
        intro left
        rw [Correlation.countIn, Correlation.countIn, observed]
      simp only [counted]

theorem count_fedTo (countedBy : Map Source (List Nat)) (taken : List Source) (j : Nat)
    (s : Source) :
    (fedTo countedBy taken j).count s = taken.count s * (counting countedBy s).count j := by
  induction taken with
  | nil => simp [fedTo]
  | cons t taken ih =>
    rw [fedTo, List.flatMap_cons, List.count_append, ← fedTo, ih, List.count_replicate,
      List.count_cons]
    by_cases same : t = s
    · subst same
      simp only [BEq.rfl, if_true]
      rw [Nat.add_mul, Nat.one_mul, Nat.add_comm]
    · simp [same]

theorem mem_fedTo {e : LogRuleEngine} (wired : Wired e) {j : Nat} {c : Correlation}
    (found : e.correlations[j]? = some c) {taken : List Source} {s : Source}
    (fed : s ∈ fedTo e.countedBy taken j) : s ∈ taken ∧ s ∈ c.sources := by
  rw [← List.count_pos_iff, count_fedTo, wired.counted s j c found] at fed
  constructor
  · exact List.count_pos_iff.mp (Nat.pos_of_mul_pos_right fed)
  · exact List.count_pos_iff.mp (Nat.pos_of_mul_pos_left fed)

section Event
variable {ρ κ : Equiv.Perm ℕ} {e e' : LogRuleEngine} {ev : LogEvent}

theorem matched_reordered (reordered : Reordered ρ κ e e') (ev : LogEvent) :
    (e'.matched ev).Perm ((e.matched ev).map (fun entry => (ρ entry.1, entry.2))) := by
  have moved := (reordered.candidates ev).filterMap (fun i =>
    e'.rules[i]?.bind (fun r => if r.holds ev then some (i, r) else none))
  rw [List.filterMap_map] at moved
  rw [LogRuleEngine.matched, LogRuleEngine.matched, List.map_filterMap]
  refine moved.trans (List.Perm.of_eq ?_)
  congr 1
  funext i
  rw [Function.comp_apply, reordered.rules i]
  cases e.rules[i]? with
  | none => rfl
  | some r =>
    simp only [Option.bind_some]
    split <;> rfl

theorem first_pending (reordered : Reordered ρ κ e e') (s : Source) :
    (e'.firstMatches ev).pending.count (relabel ρ κ s) = (e.firstMatches ev).pending.count s := by
  have moved : (e'.firstMatches ev).pending.Perm
      ((e.firstMatches ev).pending.map (relabel ρ κ)) := by
    simp only [LogRuleEngine.firstMatches, List.map_reverse, List.map_map]
    apply (List.reverse_perm _).trans
    refine List.Perm.trans ?_ (List.reverse_perm _).symm
    have matched := (matched_reordered reordered ev).map (fun entry => Source.rule entry.1)
    rwa [List.map_map] at matched
  rw [moved.count_eq, List.count_map_of_injective _ _ (relabel ρ κ).injective]

theorem first_correlation (e : LogRuleEngine) (ev : LogEvent) (j : Nat) :
    (e.firstMatches ev).pending.count (.correlation j) = 0 := by
  rw [List.count_eq_zero]
  simp [LogRuleEngine.firstMatches]

/-- What a correlation does once its sources are taken equally often. -/
theorem counted_reordered (wired : Wired e) (wired' : Wired e') (reordered : Reordered ρ κ e e')
    {taken taken' : List Source} (apart : e.CountsApart ev taken) {j : Nat} {c : Correlation}
    (found : e.correlations[j]? = some c)
    (same : ∀ s ∈ c.sources, taken'.count (relabel ρ κ s) = taken.count s) :
    (c.moved (relabel ρ κ)).after ev (fedTo e'.countedBy taken' (κ j)) =
        (c.after ev (fedTo e.countedBy taken j)).moved (relabel ρ κ) ∧
      (c.moved (relabel ρ κ)).hits ev (fedTo e'.countedBy taken' (κ j)) =
        c.hits ev (fedTo e.countedBy taken j) := by
  have found' : e'.correlations[κ j]? = some (c.moved (relabel ρ κ)) := by
    rw [reordered.correlations, found]
    rfl
  apply counted_moved
  · intro s fed t fed'
    obtain ⟨s_taken, s_listed⟩ := mem_fedTo wired found fed
    obtain ⟨t_taken, t_listed⟩ := mem_fedTo wired found fed'
    exact alike_of_apart s_listed t_listed fun temporal =>
      apart c (List.mem_of_getElem? found) temporal s s_taken t t_taken
  · rw [List.perm_iff_count]
    intro moved
    obtain ⟨s, rfl⟩ := (relabel ρ κ).surjective moved
    rw [List.count_map_of_injective _ _ (relabel ρ κ).injective, count_fedTo, count_fedTo,
      wired.counted s j c found, wired'.counted _ _ _ found', Correlation.moved,
      List.count_map_of_injective _ _ (relabel ρ κ).injective]
    by_cases listed : s ∈ c.sources
    · rw [same s listed]
    · rw [List.count_eq_zero.mpr listed, Nat.mul_zero, Nat.mul_zero]

/-- Each source is taken as often in both engines: a rule as often as it matches, a correlation
    as often as it holds, which is settled by what lies below it. -/
theorem taken_reordered (wired : Wired e) (wired' : Wired e') (reordered : Reordered ρ κ e e')
    {taken taken' : List Source} {out out' : Draining} (apart : e.CountsApart ev taken)
    (progress : Progress ev (fedTo e.countedBy taken) taken (e.firstMatches ev) out)
    (progress' : Progress ev (fedTo e'.countedBy taken') taken' (e'.firstMatches ev) out')
    (empty : out.pending = []) (empty' : out'.pending = []) (s : Source) :
    taken'.count (relabel ρ κ s) = taken.count s := by
  obtain ⟨h, below⟩ := wired.height
  have pending := progress.pending
  have pending' := progress'.pending
  simp only [empty, empty', List.count_nil, Nat.add_zero] at pending pending'
  have rules : ∀ i, taken'.count (relabel ρ κ (.rule i)) = taken.count (.rule i) := by
    intro i
    rw [pending, pending', first_pending reordered]
    rfl
  have correlations : ∀ n j, h j = n →
      taken'.count (relabel ρ κ (.correlation j)) = taken.count (.correlation j) := by
    intro n
    induction n using Nat.strongRecOn with
    | ind n ih =>
      intro j height
      rw [pending, pending', first_pending reordered, first_correlation]
      change 0 + raised ev e'.correlations (fedTo e'.countedBy taken') (.correlation (κ j)) = _
      simp only [raised, LogRuleEngine.firstMatches, reordered.correlations]
      cases found : e.correlations[j]? with
      | none => rfl
      | some c =>
        have same : ∀ s ∈ c.sources, taken'.count (relabel ρ κ s) = taken.count s := by
          intro s listed
          cases s with
          | rule i => exact rules i
          | correlation i =>
            have lower := below j i ⟨c, found, listed⟩
            exact ih (h i) (by omega) i rfl
        have hits := (counted_reordered wired wired' reordered apart found same).2
        simp only [Option.map_some, Option.getD_some, hits]
  cases s with
  | rule i => exact rules i
  | correlation j => exact correlations (h j) j rfl

theorem evaluate_progress {e : LogRuleEngine} {ev : LogEvent} {fuel : Nat}
    {out : LogRuleEngine × List Detection} (done : e.evaluate fuel ev = some out) :
    ∃ d, Progress ev (fedTo e.countedBy (e.taken fuel ev)) (e.taken fuel ev) (e.firstMatches ev) d ∧
      d.pending = [] ∧ out = ({ e with correlations := d.correlations }, d.detections) := by
  obtain ⟨d, drains, rfl⟩ := Option.map_eq_some_iff.mp done
  obtain ⟨progress, empty⟩ := progress_drain drains
  exact ⟨d, progress, empty, rfl⟩

theorem evaluate_wired {fuel : Nat} {out : LogRuleEngine × List Detection} (wired : Wired e)
    (done : e.evaluate fuel ev = some out) : Wired out.1 := by
  obtain ⟨d, progress, _, rfl⟩ := evaluate_progress done
  have before : ∀ (j : Nat) c, d.correlations[j]? = some c →
      ∃ c₀, e.correlations[j]? = some c₀ ∧ c.sources = c₀.sources := by
    intro j c found
    rw [progress.correlations] at found
    obtain ⟨c₀, first, rfl⟩ := Option.map_eq_some_iff.mp found
    exact ⟨c₀, first, by rw [after_fixed]⟩
  obtain ⟨h, below⟩ := wired.height
  constructor
  · intro s j c found
    obtain ⟨c₀, first, same⟩ := before j c found
    rw [same]
    exact wired.counted s j c₀ first
  · refine ⟨h, fun i j lists => below i j ?_⟩
    obtain ⟨c, found, listed⟩ := lists
    obtain ⟨c₀, first, same⟩ := before i c found
    rw [same] at listed
    exact ⟨c₀, first, listed⟩

theorem first_detections (reordered : Reordered ρ κ e e') (a : Detection) :
    a ∈ (e'.firstMatches ev).detections ↔ a ∈ (e.firstMatches ev).detections := by
  have matched := matched_reordered reordered ev
  simp only [LogRuleEngine.firstMatches, List.mem_map, List.mem_filter]
  constructor
  · rintro ⟨entry, ⟨member, alerts⟩, rfl⟩
    obtain ⟨first, there, rfl⟩ := List.mem_map.mp (matched.mem_iff.mp member)
    exact ⟨first, ⟨there, alerts⟩, rfl⟩
  · rintro ⟨entry, ⟨member, alerts⟩, rfl⟩
    have there := matched.mem_iff.mpr (List.mem_map_of_mem member)
    exact ⟨_, ⟨there, alerts⟩, rfl⟩

/-- One event: the same detections, and the engines stay the same but for the places. -/
theorem evaluate_reordered {fuel fuel' : Nat} {out out' : LogRuleEngine × List Detection}
    (wired : Wired e) (wired' : Wired e') (reordered : Reordered ρ κ e e')
    (apart : e.CountsApart ev (e.taken fuel ev)) (done : e.evaluate fuel ev = some out)
    (done' : e'.evaluate fuel' ev = some out') :
    (∀ a, a ∈ out'.2 ↔ a ∈ out.2) ∧ Reordered ρ κ out.1 out'.1 := by
  obtain ⟨d, progress, empty, rfl⟩ := evaluate_progress done
  obtain ⟨d', progress', empty', rfl⟩ := evaluate_progress done'
  have same := taken_reordered wired wired' reordered apart progress progress' empty empty'
  have counted : ∀ (j : Nat) c, e.correlations[j]? = some c → _ := fun j c found =>
    counted_reordered wired wired' reordered apart found fun s _ => same s
  constructor
  · intro a
    rw [progress.detections, progress'.detections, first_detections reordered]
    apply or_congr_right
    constructor
    · rintro ⟨j', c', found', alerts, hit, among, rfl⟩
      obtain ⟨j, rfl⟩ := κ.surjective j'
      change e'.correlations[κ j]? = some c' at found'
      rw [reordered.correlations] at found'
      obtain ⟨c, found, rfl⟩ := Option.map_eq_some_iff.mp found'
      rw [(counted j c found).2] at among
      exact ⟨j, c, found, alerts, hit, among, rfl⟩
    · rintro ⟨j, c, found, alerts, hit, among, rfl⟩
      refine ⟨κ j, c.moved (relabel ρ κ), ?_, alerts, hit, ?_, rfl⟩
      · change e'.correlations[κ j]? = _
        rw [reordered.correlations]
        exact congrArg _ found
      · rw [(counted j c found).2]
        exact among
  · constructor
    · exact reordered.rules
    · intro j
      change d'.correlations[κ j]? = d.correlations[j]?.map _
      rw [progress.correlations, progress'.correlations]
      change (e'.correlations[κ j]?).map _ = _
      rw [reordered.correlations]
      change _ = ((e.correlations[j]?).map _).map _
      cases found : e.correlations[j]? with
      | none => rfl
      | some c => exact congrArg some (counted j c found).1
    · exact reordered.candidates

end Event

/-! A run. -/

/-- The id of a rule or correlation, with the group of a correlation. -/
structure Alert where
  id : String
  group : Option (List (String × String))
  deriving DecidableEq

def Detection.alert (d : Detection) : Alert where
  id := d.ruleId
  group := d.correlation.map (fun hit => hit.group)

def SameAlerts (ds ds' : List Detection) : Prop :=
  ∀ alert, alert ∈ ds.map Detection.alert ↔ alert ∈ ds'.map Detection.alert

/-- At no event of the run a temporal correlation counts two of the sources it lists. -/
def LogRuleEngine.Apart (e : LogRuleEngine) (fuel : Nat) : List LogEvent → Prop
  | [] => True
  | ev :: evs => e.CountsApart ev (e.taken fuel ev) ∧
      ∀ out, e.evaluate fuel ev = some out → out.1.Apart fuel evs

theorem evaluateAll_reordered {ρ κ : Equiv.Perm ℕ} {fuel fuel' : Nat} {evs : List LogEvent}
    {e e' : LogRuleEngine} {ds ds' : List (List Detection)} (wired : Wired e) (wired' : Wired e')
    (reordered : Reordered ρ κ e e') (apart : e.Apart fuel evs)
    (done : e.evaluateAll fuel evs = some ds) (done' : e'.evaluateAll fuel' evs = some ds') :
    List.Forall₂ SameAlerts ds ds' := by
  induction evs generalizing e e' ds ds' with
  | nil =>
    cases done
    cases done'
    exact List.Forall₂.nil
  | cons ev evs ih =>
    obtain ⟨out, first, more⟩ := Option.bind_eq_some_iff.mp done
    obtain ⟨out', first', more'⟩ := Option.bind_eq_some_iff.mp done'
    obtain ⟨rest, later, rfl⟩ := Option.map_eq_some_iff.mp more
    obtain ⟨rest', later', rfl⟩ := Option.map_eq_some_iff.mp more'
    obtain ⟨same, still⟩ := evaluate_reordered wired wired' reordered apart.1 first first'
    apply List.Forall₂.cons
    · intro alert
      simp only [List.mem_map, same]
    · exact ih (evaluate_wired wired first) (evaluate_wired wired' first') still
        (apart.2 out first) later later'

end SentinelAgent.Scanner
