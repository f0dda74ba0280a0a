import SentinelAgent.Library.Maps
import SentinelAgent.Library.Runs
import SentinelAgent.Siem.Event

/-!
The correlation of security events: a rule counts the matching events of its window, and alerts
when there are enough. Moments are numbers of nanoseconds; `instant` is that of a date.
-/
namespace SentinelAgent.Siem
open Maps (Map)

structure CorrelationRule where
  id : String
  name : String
  description : String
  categories : List EventCategory
  pattern : String
  minSeverity : Nat
  threshold : Nat
  windowSecs : Nat
  alertSeverity : Nat
  enabled : Bool

structure CompiledRule where
  rule : CorrelationRule
  isMatch : List Char → Bool

structure CorrelationAlert where
  ruleId : String
  ruleName : String
  description : String
  severity : Nat
  eventCount : Nat
  firstEvent : Int
  lastEvent : Int
  sampleEventIds : List (List Char)
  generatedAt : Int

structure RuleState where
  occurrences : List Int
  seenIds : Map (List Char) Int
  sampleIds : List (List Char)
  lastAlert : Option Int

def RuleState.new : RuleState := ⟨[], ∅, [], none⟩

/- What the clock says each time it is read for a rule, in this order. -/
structure Readings where
  cutoff : Int
  horizon : Int
  counted : Int
  checked : Int
  generated : Int
  noted : Int

structure CorrelationEngine where
  rules : List CompiledRule
  state : Map String RuleState
  alerts : List CorrelationAlert

def CorrelationEngine.new (compile : String → Option (List Char → Bool))
    (rules : List CorrelationRule) : CorrelationEngine where
  rules := (rules.filter CorrelationRule.enabled).filterMap fun rule =>
    (compile rule.pattern).map (CompiledRule.mk rule)
  state := ∅
  alerts := []

def nanoseconds (secs : Nat) : Int := secs * 1000000000

def CompiledRule.window (r : CompiledRule) : Int := nanoseconds r.rule.windowSecs

def CompiledRule.eventMatches (r : CompiledRule) (event : SiemEvent) : Bool :=
  decide (r.rule.minSeverity ≤ event.severity) &&
    (r.rule.categories.isEmpty || r.rule.categories.contains event.category) &&
      (r.isMatch event.description || r.isMatch event.name)

section Steps
variable (instant : DateTime → Int)

/- An event is taken once, while it is in the window and not from the future. -/
def RuleState.addOccurrence (s : RuleState) (clock : Readings) (window : Int)
    (event : SiemEvent) : RuleState × Bool :=
  let cutoff := clock.cutoff - window
  let seen := s.seenIds.retain fun _ time => decide (cutoff < time)
  let time := instant event.timestamp
  if time ≤ cutoff ∨ clock.horizon + nanoseconds 30 < time ∨ event.eventId ∈ seen then
    ({ s with seenIds := seen }, false)
  else
    let seen := seen.insert event.eventId time
    let samples := s.sampleIds.filter fun id => decide (id ∈ seen)
    ({ s with
      seenIds := seen
      sampleIds := if samples.length < 10 then samples ++ [event.eventId] else samples
      occurrences := (s.occurrences.filter fun t => decide (cutoff < t)) ++ [time] }, true)

def RuleState.count (s : RuleState) (now window : Int) : Nat :=
  (s.occurrences.filter fun t => decide (now - window < t)).length

/- One rule and an event that matches it: no second alert within the window. -/
def CompiledRule.process (r : CompiledRule) (event : SiemEvent) (clock : Readings)
    (s : RuleState) : RuleState × Option CorrelationAlert :=
  let added := s.addOccurrence instant clock r.window event
  let count := added.1.count clock.counted r.window
  if added.2 ∧ r.rule.threshold ≤ count ∧
      added.1.lastAlert.all fun last => decide (r.window < clock.checked - last) then
    ({ added.1 with lastAlert := some clock.noted, sampleIds := [] },
      some {
        ruleId := r.rule.id
        ruleName := r.rule.name
        description := r.rule.description ++ ": " ++ count.repr ++ " events in " ++
          r.rule.windowSecs.repr ++ " seconds"
        severity := r.rule.alertSeverity
        eventCount := count
        firstEvent := added.1.occurrences.headD clock.counted
        lastEvent := instant event.timestamp
        sampleEventIds := added.1.sampleIds
        generatedAt := clock.generated })
  else (added.1, none)

def processRule (event : SiemEvent) (clock : String → Readings)
    (s : Map String RuleState × List CorrelationAlert) (r : CompiledRule) :
    Map String RuleState × List CorrelationAlert :=
  if r.eventMatches event then
    let done := r.process instant event (clock r.rule.id) ((s.1.lookup r.rule.id).getD .new)
    (s.1.insert r.rule.id done.1, s.2 ++ done.2.toList)
  else s

/- The last thousand alerts are kept. -/
def CorrelationEngine.processEvent (e : CorrelationEngine) (event : SiemEvent)
    (clock : String → Readings) : CorrelationEngine × List CorrelationAlert :=
  let done := e.rules.foldl (processRule instant event clock) (e.state, [])
  let alerts := e.alerts ++ done.2
  ({ e with state := done.1, alerts := alerts.drop (alerts.length - 1000) }, done.2)

/-! Runs of the engine. -/

/- An event, the clock as it is read for each rule, and when all is done. -/
structure Arrival where
  event : SiemEvent
  clock : String → Readings
  done : Int

/- The engine, and beside it the time, the events so far and every alert it raised. -/
structure Course where
  engine : CorrelationEngine
  clock : Int
  taken : List SiemEvent
  raised : List CorrelationAlert

def Course.arrive (c : Course) (a : Arrival) : Course :=
  let done := c.engine.processEvent instant a.event a.clock
  ⟨done.1, a.done, c.taken ++ [a.event], c.raised ++ done.2⟩

end Steps

/- The clock goes forward. -/
structure Readings.Between (r : Readings) (start done : Int) : Prop where
  cutoff : start ≤ r.cutoff
  horizon : r.cutoff ≤ r.horizon
  counted : r.horizon ≤ r.counted
  checked : r.counted ≤ r.checked
  generated : r.checked ≤ r.generated
  noted : r.generated ≤ r.noted
  done : r.noted ≤ done

def Timely (c : Course) (a : Arrival) : Prop := ∀ id, (a.clock id).Between c.clock a.done

section Counts
variable {instant : DateTime → Int} {r : CompiledRule} {now later : Int}
  {taken kept : List SiemEvent} {s : RuleState} {event : SiemEvent} {clock : Readings}

/- Of the events those in the window. -/
def recent (instant : DateTime → Int) (r : CompiledRule) (now : Int) (kept : List SiemEvent) :
    List SiemEvent :=
  kept.filter fun e => decide (now - r.window < instant e.timestamp)

theorem mem_recent {e : SiemEvent} : e ∈ recent instant r now kept ↔
    e ∈ kept ∧ now - r.window < instant e.timestamp := by
  simp [recent]

/- The occurrences are the times of the events that are kept. Those of the window have different
   identifiers, and are known by them. -/
structure Counts (instant : DateTime → Int) (r : CompiledRule) (now : Int)
    (taken : List SiemEvent) (s : RuleState) (kept : List SiemEvent) : Prop where
  times : s.occurrences = kept.map fun e => instant e.timestamp
  own : ∀ e ∈ kept, e ∈ taken ∧ r.eventMatches e = true ∧
    instant e.timestamp ≤ now + nanoseconds 30
  once : ((recent instant r now kept).map SiemEvent.eventId).Nodup
  seen : ∀ e ∈ kept, now - r.window < instant e.timestamp →
    s.seenIds.lookup e.eventId = some (instant e.timestamp)
  samples : ∀ id ∈ s.sampleIds, ∃ e ∈ taken, r.eventMatches e = true ∧ e.eventId = id

theorem recent_sublist (le : now ≤ later) :
    (recent instant r later kept).Sublist (recent instant r now kept) := by
  refine List.monotone_filter_right kept fun e recent => ?_
  have bound := of_decide_eq_true recent
  exact decide_eq_true (by omega)

theorem counts_later (counts : Counts instant r now taken s kept) (le : now ≤ later)
    (e : SiemEvent) : Counts instant r later (taken ++ [e]) s kept where
  times := counts.times
  own e member := by
    obtain ⟨there, fits, soon⟩ := counts.own e member
    exact ⟨List.mem_append_left _ there, fits, by omega⟩
  once := counts.once.sublist ((recent_sublist le).map _)
  seen e member recent := counts.seen e member (by omega)
  samples id member := by
    obtain ⟨e, there, same⟩ := counts.samples id member
    exact ⟨e, List.mem_append_left _ there, same⟩

theorem counts_add (counts : Counts instant r now taken s kept) (fits : r.eventMatches event = true)
    (cutoff : now ≤ clock.cutoff) (horizon : clock.cutoff ≤ clock.horizon) :
    ∃ kept, Counts instant r clock.horizon (taken ++ [event])
      (s.addOccurrence instant clock r.window event).1 kept := by
  have moved := counts_later counts cutoff event
  have retained : ∀ e ∈ kept, clock.cutoff - r.window < instant e.timestamp →
      (s.seenIds.retain fun _ time => decide (clock.cutoff - r.window < time)).lookup e.eventId =
        some (instant e.timestamp) := fun e member recent =>
    Maps.lookup_retain_eq_some.mpr ⟨moved.seen e member recent, decide_eq_true recent⟩
  unfold RuleState.addOccurrence
  simp only
  split
  · have rest := counts_later counts (cutoff.trans horizon) event
    exact ⟨kept, rest.times, rest.own, rest.once,
      fun e member recent => retained e member (by omega), rest.samples⟩
  · rename_i accepted
    simp only [not_or, not_le, not_lt] at accepted
    obtain ⟨inside, soon, fresh⟩ := accepted
    have differs : ∀ e ∈ recent instant r clock.cutoff kept, e.eventId ≠ event.eventId := by
      intro e member same
      obtain ⟨there, young⟩ := mem_recent.mp member
      exact fresh (same ▸ Maps.mem_iff_lookup.mpr ⟨_, retained e there young⟩)
    have all_once : ((recent instant r clock.cutoff kept ++ [event]).map
        SiemEvent.eventId).Nodup := by
      rw [List.map_append, List.map_singleton, ← List.concat_eq_append]
      refine List.Nodup.concat (fun member => ?_) moved.once
      obtain ⟨e, there, same⟩ := List.mem_map.mp member
      exact differs e there same
    refine ⟨recent instant r clock.cutoff kept ++ [event], ?_, fun e member => ?_, ?_,
      fun e member _ => ?_, fun id member => ?_⟩
    · simp only [counts.times, recent, List.map_append, List.map_singleton, List.filter_map,
        Function.comp_def]
    · cases List.mem_append.mp member with
      | inl old =>
        obtain ⟨there, fits, early⟩ := moved.own e (mem_recent.mp old).1
        exact ⟨there, fits, by omega⟩
      | inr last =>
        rw [List.mem_singleton.mp last]
        exact ⟨List.mem_append_right _ List.mem_cons_self, fits, soon⟩
    · exact all_once.sublist (List.filter_sublist.map _)
    · rw [Maps.lookup_insert_eq]
      cases List.mem_append.mp member with
      | inl old =>
        rw [if_neg (differs e old)]
        exact retained e (mem_recent.mp old).1 (mem_recent.mp old).2
      | inr last => rw [List.mem_singleton.mp last, if_pos rfl]
    · have either : id ∈ s.sampleIds ∨ id = event.eventId := by
        split at member
        · rcases List.mem_append.mp member with old | last
          · exact Or.inl (List.mem_filter.mp old).1
          · exact Or.inr (List.mem_singleton.mp last)
        · exact Or.inl (List.mem_filter.mp member).1
      rcases either with old | rfl
      · exact moved.samples id old
      · exact ⟨event, List.mem_append_right _ List.mem_cons_self, fits, rfl⟩

/-- What an alert says: so many different events of its rule, none older than the window, and no
    fewer than the threshold. -/
structure Describes (instant : DateTime → Int) (r : CompiledRule) (taken : List SiemEvent)
    (alert : CorrelationAlert) (counted : List SiemEvent) : Prop where
  rule : alert.ruleId = r.rule.id
  own : ∀ e ∈ counted, e ∈ taken ∧ r.eventMatches e = true ∧
    instant e.timestamp ≤ alert.generatedAt + nanoseconds 30
  window : ∃ now ≤ alert.generatedAt, ∀ e ∈ counted, now - r.window < instant e.timestamp
  once : (counted.map SiemEvent.eventId).Nodup
  count : alert.eventCount = counted.length
  enough : r.rule.threshold ≤ counted.length
  samples : ∀ id ∈ alert.sampleEventIds, ∃ e ∈ taken, r.eventMatches e = true ∧ e.eventId = id

theorem process_counts (counts : Counts instant r now taken s kept)
    (fits : r.eventMatches event = true) (between : clock.Between now later) :
    (∃ kept, Counts instant r later (taken ++ [event]) (r.process instant event clock s).1 kept) ∧
      ∀ alert, (r.process instant event clock s).2 = some alert →
        ∃ counted, Describes instant r (taken ++ [event]) alert counted := by
  obtain ⟨cutoff, horizon, counted, checked, generated, noted, done⟩ := between
  obtain ⟨new, added⟩ := counts_add counts fits cutoff horizon
  have ends : clock.horizon ≤ later := by omega
  have final : Counts instant r later (taken ++ [event])
      (s.addOccurrence instant clock r.window event).1 new := by
    refine ⟨added.times, fun e member => ?_, added.once.sublist ((recent_sublist ends).map _),
      fun e member recent => added.seen e member (by omega), added.samples⟩
    obtain ⟨there, fits, soon⟩ := added.own e member
    exact ⟨there, fits, by omega⟩
  have count_is : (s.addOccurrence instant clock r.window event).1.count clock.counted r.window =
      (recent instant r clock.counted new).length := by
    rw [RuleState.count, added.times, List.filter_map, List.length_map]
    rfl
  unfold CompiledRule.process
  simp only
  split
  · rename_i enough
    refine ⟨⟨new, final.times, final.own, final.once, final.seen, nofun⟩, fun alert same => ?_⟩
    obtain rfl := Option.some.inj same
    refine ⟨recent instant r clock.counted new, rfl, fun e member => ?_,
      ⟨clock.counted, checked.trans generated, fun e member => (mem_recent.mp member).2⟩,
      added.once.sublist ((recent_sublist counted).map _), count_is, count_is ▸ enough.2.1,
      added.samples⟩
    obtain ⟨there, fits, soon⟩ := added.own e (mem_recent.mp member).1
    exact ⟨there, fits, by simp only; omega⟩
  · exact ⟨⟨new, final⟩, nofun⟩

/- An alert is noted, and comes more than a window after the one noted before it. -/
theorem process_alert (r : CompiledRule) (event : SiemEvent) (clock : Readings) (s : RuleState) :
    ((r.process instant event clock s).2 = none ∧
      (r.process instant event clock s).1.lastAlert = s.lastAlert) ∨
    ∃ alert, (r.process instant event clock s).2 = some alert ∧ alert.ruleId = r.rule.id ∧
      alert.generatedAt = clock.generated ∧
      (r.process instant event clock s).1.lastAlert = some clock.noted ∧
      ∀ last, s.lastAlert = some last → r.window < clock.checked - last := by
  have kept : (s.addOccurrence instant clock r.window event).1.lastAlert = s.lastAlert := by
    unfold RuleState.addOccurrence
    simp only
    split
    · rfl
    · rfl
  unfold CompiledRule.process
  simp only
  split
  · rename_i enough
    refine Or.inr ⟨_, rfl, rfl, rfl, rfl, fun last noted => ?_⟩
    have waited := enough.2.2
    rw [kept, noted] at waited
    exact of_decide_eq_true waited
  · exact Or.inl ⟨rfl, kept⟩

end Counts

section Engine
variable {instant : DateTime → Int} {event : SiemEvent} {clock : String → Readings}
  {rules : List CompiledRule} {r : CompiledRule}

def stateOf (state : Map String RuleState) (r : CompiledRule) : RuleState :=
  (state.lookup r.rule.id).getD .new

/- What one rule makes of an event, from the states before it. -/
def alertOf (instant : DateTime → Int) (event : SiemEvent) (clock : String → Readings)
    (state : Map String RuleState) (r : CompiledRule) : Option CorrelationAlert :=
  if r.eventMatches event then (r.process instant event (clock r.rule.id) (stateOf state r)).2
  else none

theorem processRule_does (instant : DateTime → Int) (event : SiemEvent)
    (clock : String → Readings) (r : CompiledRule) (state : Map String RuleState)
    (found : List CorrelationAlert) :
    let done := processRule instant event clock (state, found) r
    done.2 = found ++ (alertOf instant event clock state r).toList ∧
      (∀ id, id ≠ r.rule.id → done.1.lookup id = state.lookup id) ∧
      stateOf done.1 r = if r.eventMatches event then
        (r.process instant event (clock r.rule.id) (stateOf state r)).1 else stateOf state r := by
  simp only [processRule, alertOf, stateOf]
  by_cases fits : r.eventMatches event = true
  · simp only [if_pos fits, Maps.lookup_insert_eq, if_true, Option.getD_some, true_and, and_true]
    exact fun id other => if_neg other
  · simp [if_neg fits]

/- Rules with identifiers of their own do not meet. -/
theorem rules_apart (instant : DateTime → Int) (event : SiemEvent) (clock : String → Readings)
    (distinct : (rules.map fun r => r.rule.id).Nodup) (state : Map String RuleState)
    (found : List CorrelationAlert) :
    let done := rules.foldl (processRule instant event clock) (state, found)
    done.2 = found ++ rules.filterMap (alertOf instant event clock state) ∧
      (∀ id, (∀ r ∈ rules, id ≠ r.rule.id) → done.1.lookup id = state.lookup id) ∧
      ∀ r ∈ rules, stateOf done.1 r = if r.eventMatches event then
        (r.process instant event (clock r.rule.id) (stateOf state r)).1 else stateOf state r := by
  induction rules generalizing state found with
  | nil => exact ⟨(List.append_nil _).symm, fun _ _ => rfl, nofun⟩
  | cons first rest ih =>
    obtain ⟨own, distinct⟩ := List.nodup_cons.mp distinct
    obtain ⟨alerts, others, here⟩ := processRule_does instant event clock first state found
    have own : ∀ q ∈ rest, q.rule.id ≠ first.rule.id :=
      fun q member same => own (List.mem_map.mpr ⟨q, member, same⟩)
    set before := processRule instant event clock (state, found) first with after_first
    obtain ⟨more, untouched, each⟩ := ih distinct before.1 before.2
    have same : ∀ q ∈ rest, stateOf before.1 q = stateOf state q := by
      intro q member
      rw [stateOf, others q.rule.id (own q member), stateOf]
    refine ⟨?_, fun id outside => ?_, fun q member => ?_⟩
    · have rest_alerts : rest.filterMap (alertOf instant event clock before.1) =
          rest.filterMap (alertOf instant event clock state) :=
        List.filterMap_congr fun q member => by rw [alertOf, same q member, alertOf]
      rw [List.foldl_cons, ← after_first, more, rest_alerts, alerts, List.append_assoc]
      cases alert : alertOf instant event clock state first with
      | none => rw [List.filterMap_cons_none alert]; rfl
      | some _ => rw [List.filterMap_cons_some alert]; rfl
    · rw [List.foldl_cons, ← after_first,
        untouched id fun q member => outside q (List.mem_cons_of_mem _ member)]
      exact others id (outside first List.mem_cons_self)
    · rw [List.foldl_cons, ← after_first]
      cases List.mem_cons.mp member with
      | inl first_is =>
        subst first_is
        rw [stateOf, untouched q.rule.id fun other there => (own other there).symm]
        exact here
      | inr later => rw [each q later, same q later]

/- What is known of each rule and each alert on the way. -/
structure Tracked (instant : DateTime → Int) (rules : List CompiledRule) (c : Course) : Prop where
  same : c.engine.rules = rules
  counts : ∀ r ∈ rules, ∃ kept, Counts instant r c.clock c.taken (stateOf c.engine.state r) kept
  described : ∀ alert ∈ c.raised, ∃ r ∈ rules, ∃ counted,
    Describes instant r c.taken alert counted
  noted : ∀ alert ∈ c.raised, ∀ r ∈ rules, alert.ruleId = r.rule.id →
    ∃ last, (stateOf c.engine.state r).lastAlert = some last ∧ alert.generatedAt ≤ last
  spaced : c.raised.Pairwise fun first next => ∀ r ∈ rules, first.ruleId = r.rule.id →
    next.ruleId = r.rule.id → r.window < next.generatedAt - first.generatedAt
  latest : c.engine.alerts = c.raised.drop (c.raised.length - 1000)

theorem latest_append (n : Nat) (before new : List CorrelationAlert) :
    let kept := before.drop (before.length - n) ++ new
    kept.drop (kept.length - n) = (before ++ new).drop ((before ++ new).length - n) := by
  simp only [← List.drop_append_of_le_length (Nat.sub_le before.length n), List.drop_drop,
    List.length_drop, List.length_append]
  congr 1
  omega

theorem describes_more {taken : List SiemEvent} {alert : CorrelationAlert}
    {counted : List SiemEvent} (describes : Describes instant r taken alert counted)
    (e : SiemEvent) : Describes instant r (taken ++ [e]) alert counted :=
  { describes with
    own := fun e member => (describes.own e member).imp_left (List.mem_append_left _)
    samples := fun id member => by
      obtain ⟨e, there, same⟩ := describes.samples id member
      exact ⟨e, List.mem_append_left _ there, same⟩ }

/- An alert names its rule, is noted, and comes more than a window after the one noted before. -/
theorem alertOf_some {state : Map String RuleState} {alert : CorrelationAlert}
    (raised : alertOf instant event clock state r = some alert) :
    let done := r.process instant event (clock r.rule.id) (stateOf state r)
    (r.eventMatches event = true ∧ done.2 = some alert) ∧ alert.ruleId = r.rule.id ∧
      alert.generatedAt = (clock r.rule.id).generated ∧
      done.1.lastAlert = some (clock r.rule.id).noted ∧
      ∀ last, (stateOf state r).lastAlert = some last →
        r.window < (clock r.rule.id).checked - last := by
  unfold alertOf at raised
  split at raised
  · rename_i fits
    rcases process_alert r event (clock r.rule.id) (stateOf state r) with
      ⟨none, -⟩ | ⟨_, makes, facts⟩
    · rw [raised] at none
      cases none
    · obtain rfl := Option.some.inj (raised.symm.trans makes)
      exact ⟨⟨fits, raised⟩, facts⟩
  · cases raised

theorem tracked_arrive (distinct : (rules.map fun r => r.rule.id).Nodup) {c : Course} {a : Arrival}
    (tracked : Tracked instant rules c) (timely : Timely c a) :
    Tracked instant rules (c.arrive instant a) := by
  obtain ⟨alerts, -, states⟩ := rules_apart instant a.event a.clock distinct c.engine.state []
  have state : ∀ r ∈ rules, stateOf (c.arrive instant a).engine.state r =
      if r.eventMatches a.event then
        (r.process instant a.event (a.clock r.rule.id) (stateOf c.engine.state r)).1
      else stateOf c.engine.state r := by
    rw [Course.arrive, CorrelationEngine.processEvent, tracked.same]
    exact states
  have raised : (c.arrive instant a).raised =
      c.raised ++ rules.filterMap (alertOf instant a.event a.clock c.engine.state) := by
    rw [Course.arrive, CorrelationEngine.processEvent, tracked.same]
    exact congrArg (c.raised ++ ·) alerts
  have latest : (c.arrive instant a).engine.alerts =
      (c.arrive instant a).raised.drop ((c.arrive instant a).raised.length - 1000) := by
    simp only [Course.arrive, CorrelationEngine.processEvent, tracked.latest]
    exact latest_append 1000 _ _
  have new : ∀ alert ∈ rules.filterMap (alertOf instant a.event a.clock c.engine.state),
      ∀ r ∈ rules, alert.ruleId = r.rule.id →
        alertOf instant a.event a.clock c.engine.state r = some alert := by
    intro alert member r listed names
    obtain ⟨q, there, found⟩ := List.mem_filterMap.mp member
    have same : q.rule.id = r.rule.id := (alertOf_some found).2.1.symm.trans names
    rwa [List.inj_on_of_nodup_map distinct there listed same] at found
  refine ⟨tracked.same, fun r listed => ?_, fun alert member => ?_,
    fun alert member r listed names => ?_, ?_, latest⟩
  · obtain ⟨kept, counts⟩ := tracked.counts r listed
    rw [state r listed]
    split
    · rename_i fits
      exact (process_counts counts fits (timely r.rule.id)).1
    · obtain ⟨cutoff, horizon, counted, checked, generated, noted, done⟩ := timely r.rule.id
      have le : c.clock ≤ a.done := by omega
      exact ⟨kept, counts_later counts le a.event⟩
  · rw [raised] at member
    cases List.mem_append.mp member with
    | inl old =>
      obtain ⟨r, listed, counted, describes⟩ := tracked.described alert old
      exact ⟨r, listed, counted, describes_more describes a.event⟩
    | inr fresh =>
      obtain ⟨r, listed, found⟩ := List.mem_filterMap.mp fresh
      obtain ⟨⟨fits, makes⟩, -⟩ := alertOf_some found
      obtain ⟨kept, counts⟩ := tracked.counts r listed
      obtain ⟨counted, describes⟩ := (process_counts counts fits (timely r.rule.id)).2 alert makes
      exact ⟨r, listed, counted, describes⟩
  · obtain ⟨cutoff, horizon, counted, checked, generated, noted, done⟩ := timely r.rule.id
    rw [state r listed]
    rw [raised] at member
    cases List.mem_append.mp member with
    | inl old =>
      obtain ⟨last, was, before⟩ := tracked.noted alert old r listed names
      split
      · rcases process_alert r a.event (a.clock r.rule.id) (stateOf c.engine.state r) with
          ⟨-, same⟩ | ⟨_, _, _, _, now_noted, waited⟩
        · exact ⟨last, same.trans was, before⟩
        · have later := waited last was
          have window : 0 ≤ r.window := by simp only [CompiledRule.window, nanoseconds]; omega
          exact ⟨_, now_noted, by omega⟩
      · exact ⟨last, was, before⟩
    | inr fresh =>
      obtain ⟨⟨fits, -⟩, -, when_made, now_noted, -⟩ :=
        alertOf_some (new alert fresh r listed names)
      rw [if_pos fits]
      exact ⟨_, now_noted, when_made.trans_le noted⟩
  · rw [raised, List.pairwise_append]
    refine ⟨tracked.spaced, ?_, fun first old next fresh r listed names_first names_next => ?_⟩
    · rw [List.pairwise_filterMap]
      refine (List.pairwise_map.mp distinct).imp fun {p q} apart first made next made' r _
        names_first names_next => ?_
      exact absurd ((alertOf_some made).2.1.symm.trans (names_first.trans
        (names_next.symm.trans (alertOf_some made').2.1))) apart
    · obtain ⟨last, was, before⟩ := tracked.noted first old r listed names_first
      obtain ⟨-, -, when_made, -, waited⟩ := alertOf_some (new next fresh r listed names_next)
      have later := waited last was
      have forward := (timely r.rule.id).generated
      omega

def Course.start (engine : CorrelationEngine) (clock : Int) : Course := ⟨engine, clock, [], []⟩

/- The engine from its start on. -/
def Course.run (instant : DateTime → Int) (rules : List CompiledRule) (now : Int)
    (arrivals : List Arrival) : Course :=
  Runs.run (arrive instant) (.start ⟨rules, ∅, []⟩ now) arrivals

section Run
variable (distinct : (rules.map fun r => r.rule.id).Nodup) (now : Int) (arrivals : List Arrival)
  (timely : Runs.Along (Course.arrive instant) Timely (.start ⟨rules, ∅, []⟩ now) arrivals)
include distinct timely

theorem tracked_run : Tracked instant rules (.run instant rules now arrivals) := by
  refine Runs.run_keeps (I := Tracked instant rules)
    (fun _ _ tracked timely => tracked_arrive distinct tracked timely) ?_ timely
  exact ⟨rfl, fun r _ => ⟨[], rfl, nofun, List.nodup_nil, nofun, nofun⟩, nofun, nofun,
    List.Pairwise.nil, List.drop_nil.symm⟩

end Run
end Engine

/-! One failed login, an alert from the first on. -/

def failedLogins : CompiledRule where
  rule := {
    id := "brute_force", name := "Brute Force Detection", description := "Failed logins"
    categories := [.authentication], pattern := "fail", minSeverity := 3, threshold := 1
    windowSecs := 300, alertSeverity := 8, enabled := true }
  isMatch text := text == "fail".toList

def failedLogin : Arrival where
  event := {
    timestamp := ⟨1970, Fin.last 11, 1, 0, 0, 1⟩, severity := 5, category := .authentication
    name := "fail".toList, description := [], sourceHost := [], sourceIp := none
    destinationIp := none, destinationPort := none, user := none, processName := none
    processId := none, filePath := none, customFields := .null, eventId := "1".toList
    agentVersion := [] }
  clock _ := let now := nanoseconds 2; ⟨now, now, now, now, now, now⟩
  done := nanoseconds 2

/- The time of day. -/
def firstDay (t : DateTime) : Int := nanoseconds (t.hour * 3600 + t.minute * 60 + t.second)

def oneLogin : Course := .run firstDay [failedLogins] 0 [failedLogin]

theorem one_rule : ([failedLogins].map fun r => r.rule.id).Nodup := by decide

theorem login_timely : Runs.Along (Course.arrive firstDay) Timely
    (.start ⟨[failedLogins], ∅, []⟩ 0) [failedLogin] :=
  ⟨fun _ => by constructor <;> simp [failedLogin, Course.start, nanoseconds], trivial⟩

end SentinelAgent.Siem
