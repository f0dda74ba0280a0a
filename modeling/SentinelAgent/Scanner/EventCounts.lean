import SentinelAgent.Scanner.EngineRuns

/-!
What one event comes to. Each correlation counts the sources taken off the work list that it
lists, in the order in which they are taken, and is put on the list as often as it holds.
-/
namespace SentinelAgent.Scanner

open Maps

def LogEvent.matchOf (ev : LogEvent) (s : Source) : SourceMatch where
  source := s
  fields := ev.fields
  time := ev.timestamp

/-! One correlation and the sources it counts for one event. -/

def Correlation.after (c : Correlation) (ev : LogEvent) (sources : List Source) : Correlation :=
  Runs.run Correlation.step c (sources.map ev.matchOf)

def Correlation.hits (ev : LogEvent) : Correlation → List Source → List CorrelationHit
  | _, [] => []
  | c, s :: sources =>
    (c.reports (ev.matchOf s)).toList ++ (c.step (ev.matchOf s)).hits ev sources

theorem step_fixed (c : Correlation) (m : SourceMatch) :
    c.step m = { c with groups := (c.step m).groups } :=
  count_fixed c m.source m.fields m.time

theorem after_cons (c : Correlation) (ev : LogEvent) (s : Source) (sources : List Source) :
    c.after ev (s :: sources) = (c.step (ev.matchOf s)).after ev sources := rfl

theorem after_append (c : Correlation) (ev : LogEvent) (first second : List Source) :
    c.after ev (first ++ second) = (c.after ev first).after ev second := by
  rw [Correlation.after, List.map_append, Runs.run_append]
  rfl

theorem hits_append (c : Correlation) (ev : LogEvent) (first second : List Source) :
    c.hits ev (first ++ second) = c.hits ev first ++ (c.after ev first).hits ev second := by
  induction first generalizing c with
  | nil => rfl
  | cons s first ih =>
    rw [List.cons_append, Correlation.hits, Correlation.hits, ih, after_cons, List.append_assoc]

theorem after_fixed (c : Correlation) (ev : LogEvent) (sources : List Source) :
    c.after ev sources = { c with groups := (c.after ev sources).groups } := by
  induction sources generalizing c with
  | nil => rfl
  | cons s sources ih =>
    rw [after_cons, ih, step_fixed]

/-! The work list. -/

/-- How often a source comes onto the work list when each correlation counts these sources. -/
def raised (ev : LogEvent) (cs : List Correlation) (fed : Nat → List Source) : Source → Nat
  | .rule _ => 0
  | .correlation j => (cs[j]?.map (fun c : Correlation => (c.hits ev (fed j)).length)).getD 0

/-- From `d` to `out` the sources `taken` come off the work list and each correlation counts the
    sources it is fed. -/
structure Progress (ev : LogEvent) (fed : Nat → List Source) (taken : List Source)
    (d out : Draining) : Prop where
  correlations : ∀ j, out.correlations[j]? =
    d.correlations[j]?.map (fun c : Correlation => c.after ev (fed j))
  detections : ∀ a, a ∈ out.detections ↔ a ∈ d.detections ∨
    ∃ (j : Nat) (c : Correlation), d.correlations[j]? = some c ∧ c.alerts = true ∧
      ∃ hit ∈ c.hits ev (fed j), a = c.detection hit
  pending : ∀ s, taken.count s + out.pending.count s =
    d.pending.count s + raised ev d.correlations fed s

theorem progress_take {ev : LogEvent} {s : Source} {rest : List Source} {d : Draining}
    (first : d.pending = s :: rest) :
    Progress ev (fun _ => []) [s] d { d with pending := rest } where
  correlations j := by simp [Correlation.after]
  detections a := by simp [Correlation.hits]
  pending t := by
    have none_raised : raised ev d.correlations (fun _ => []) t = 0 := by
      cases t with
      | rule i => rfl
      | correlation j => cases found : d.correlations[j]? <;> simp [raised, found, Correlation.hits]
    rw [none_raised, first, ← List.count_append, Nat.add_zero]
    rfl

theorem progress_refl (ev : LogEvent) (d : Draining) : Progress ev (fun _ => []) [] d d where
  correlations j := by simp [Correlation.after]
  detections a := by simp [Correlation.hits]
  pending t := by
    cases t with
    | rule i => simp [raised]
    | correlation j => cases found : d.correlations[j]? <;> simp [raised, found, Correlation.hits]

theorem progress_trans {ev : LogEvent} {fed fed' : Nat → List Source}
    {taken taken' : List Source} {d mid out : Draining} (first : Progress ev fed taken d mid)
    (second : Progress ev fed' taken' mid out) :
    Progress ev (fun j => fed j ++ fed' j) (taken ++ taken') d out where
  correlations j := by
    rw [second.correlations, first.correlations, Option.map_map]
    congr 1
    funext c
    exact (after_append c ev (fed j) (fed' j)).symm
  detections a := by
    rw [second.detections, first.detections, or_assoc]
    apply or_congr_right
    constructor
    · rintro (⟨j, c, found, alerts, hit, among, rfl⟩ | ⟨j, c, found, alerts, hit, among, rfl⟩)
      · refine ⟨j, c, found, alerts, hit, ?_, rfl⟩
        rw [hits_append]
        exact List.mem_append_left _ among
      · rw [first.correlations] at found
        obtain ⟨c₀, before, rfl⟩ := Option.map_eq_some_iff.mp found
        rw [after_fixed] at alerts
        refine ⟨j, c₀, before, alerts, hit, ?_, ?_⟩
        · rw [hits_append]
          exact List.mem_append_right _ among
        · rw [after_fixed]
          rfl
    · rintro ⟨j, c, found, alerts, hit, among, rfl⟩
      rw [hits_append] at among
      rcases List.mem_append.mp among with early | late
      · exact Or.inl ⟨j, c, found, alerts, hit, early, rfl⟩
      · refine Or.inr ⟨j, c.after ev (fed j), ?_, ?_, hit, late, ?_⟩
        · rw [first.correlations, found]
          rfl
        · rw [after_fixed]
          exact alerts
        · rw [after_fixed]
          rfl
  pending s := by
    have sum : raised ev d.correlations (fun j => fed j ++ fed' j) s =
        raised ev d.correlations fed s + raised ev mid.correlations fed' s := by
      cases s with
      | rule i => rfl
      | correlation j =>
        simp only [raised, first.correlations]
        cases d.correlations[j]? <;> simp [hits_append]
    have before := first.pending s
    have later := second.pending s
    rw [List.count_append, sum]
    omega

/-- What one correlation does with one source. -/
theorem feed_found {ev : LogEvent} {s : Source} {d : Draining} {index : Nat} {c : Correlation}
    (found : d.correlations[index]? = some c) :
    feed ev s d index =
      { correlations := d.correlations.set index (c.step (ev.matchOf s))
        detections := d.detections ++
          if c.alerts then (c.reports (ev.matchOf s)).toList.map c.detection else []
        pending := (c.reports (ev.matchOf s)).toList.map (fun _ => .correlation index) ++
          d.pending } := by
  rw [feed, found]
  simp only [Correlation.step, Correlation.reports, LogEvent.matchOf]
  rcases c.count s ev.fields ev.timestamp with ⟨counted, _ | hit⟩
  · simp
  · cases c.alerts <;> simp

theorem progress_feed (ev : LogEvent) (s : Source) (d : Draining) (index : Nat) :
    Progress ev (fun j => if j = index then [s] else []) [] d (feed ev s d index) := by
  cases found : d.correlations[index]? with
  | none =>
    have idle : feed ev s d index = d := by rw [feed, found]
    rw [idle]
    constructor
    · intro j
      by_cases here : j = index
      · rw [here, found]
        rfl
      · simp [here, Correlation.after]
    · intro a
      constructor
      · exact Or.inl
      · rintro (before | ⟨j, c, there, _, hit, among, _⟩)
        · exact before
        · by_cases here : j = index
          · rw [here, found] at there
            cases there
          · simp [here, Correlation.hits] at among
    · intro t
      cases t with
      | rule i => simp [raised]
      | correlation j =>
        by_cases here : j = index
        · simp [raised, here, found]
        · cases there : d.correlations[j]? <;> simp [raised, here, there, Correlation.hits]
  | some c =>
    rw [feed_found found]
    constructor
    · intro j
      by_cases here : j = index
      · subst here
        simp [List.getElem?_set_self', found, Correlation.after]
      · simp [here, Ne.symm here, Correlation.after]
    · intro a
      simp only [List.mem_append]
      apply or_congr_right
      constructor
      · intro new
        split at new
        · rename_i alerts
          obtain ⟨hit, among, rfl⟩ := List.mem_map.mp new
          exact ⟨index, c, found, alerts, hit, by simpa [Correlation.hits] using among, rfl⟩
        · cases new
      · rintro ⟨j, c', there, alerts, hit, among, rfl⟩
        by_cases here : j = index
        · rw [here, found] at there
          cases there
          rw [if_pos alerts]
          exact List.mem_map.mpr ⟨hit, by simpa [here, Correlation.hits] using among, rfl⟩
        · simp [here, Correlation.hits] at among
    · intro t
      cases t with
      | rule i =>
        cases reported : c.reports (ev.matchOf s) <;> simp [raised]
      | correlation j =>
        by_cases here : j = index
        · subst here
          cases reported : c.reports (ev.matchOf s) <;>
            simp [raised, found, Correlation.hits, reported]
        · cases reported : c.reports (ev.matchOf s) <;>
            cases there : d.correlations[j]? <;>
              simp [raised, here, Ne.symm here, there, Correlation.hits]

theorem progress_feeds (ev : LogEvent) (s : Source) (js : List Nat) (d : Draining) :
    Progress ev (fun j => List.replicate (js.count j) s) [] d (js.foldl (feed ev s) d) := by
  induction js generalizing d with
  | nil => exact progress_refl ev d
  | cons index js ih =>
    have both := progress_trans (progress_feed ev s d index) (ih (feed ev s d index))
    have same : (fun j => (if j = index then [s] else []) ++ List.replicate (js.count j) s) =
        fun j => List.replicate ((index :: js).count j) s := by
      funext j
      by_cases here : j = index
      · subst here
        simp [List.replicate_succ]
      · simp [here, Ne.symm here]
    rwa [same] at both

/-- The sources taken off the work list, in the order in which they are taken. -/
def drained (countedBy : Map Source (List Nat)) (ev : LogEvent) : Nat → Draining → List Source
  | fuel, d =>
    match d.pending with
    | [] => []
    | source :: rest =>
      match fuel with
      | 0 => []
      | fuel + 1 => source :: drained countedBy ev fuel
          ((counting countedBy source).foldl (feed ev source) { d with pending := rest })

/-- Those of the sources that a correlation counts, as often as it counts them. -/
def fedTo (countedBy : Map Source (List Nat)) (taken : List Source) (j : Nat) : List Source :=
  taken.flatMap (fun s => List.replicate ((counting countedBy s).count j) s)

theorem progress_drain {countedBy : Map Source (List Nat)} {ev : LogEvent} {fuel : Nat}
    {d out : Draining} (done : drain countedBy ev fuel d = some out) :
    Progress ev (fedTo countedBy (drained countedBy ev fuel d)) (drained countedBy ev fuel d)
      d out ∧ out.pending = [] := by
  induction fuel generalizing d with
  | zero =>
    unfold drain at done
    unfold drained
    cases pending : d.pending with
    | nil =>
      rw [pending] at done
      cases done
      exact ⟨progress_refl ev _, pending⟩
    | cons s rest =>
      rw [pending] at done
      cases done
  | succ fuel ih =>
    unfold drain at done
    unfold drained
    cases pending : d.pending with
    | nil =>
      rw [pending] at done
      cases done
      exact ⟨progress_refl ev _, pending⟩
    | cons s rest =>
      rw [pending] at done
      obtain ⟨later, empty⟩ := ih done
      have first := progress_feeds ev s (counting countedBy s) { d with pending := rest }
      exact ⟨progress_trans (progress_trans (progress_take pending) first) later, empty⟩

end SentinelAgent.Scanner
