import Mathlib.Data.List.Basic
import SentinelAgent.Library.Maps
import SentinelAgent.Library.Runs

/-!
Correlation rules over log events: what one correlation remembers of the matches it counts, by
group, and what it does with one more. Times are nanoseconds. An event in which a number does
not fit its machine type is not modelled.
-/
namespace SentinelAgent.Scanner

open Maps

def maxGroups : Nat := 10000
def maxValues : Nat := 1000
def nanosPerSecond : Int := 1000000000

inductive SigmaLevel where
  | informational | low | medium | high | critical
  deriving DecidableEq

inductive CorrelationKind where
  | eventCount | valueCount | temporal | temporalOrdered
  deriving DecidableEq

/-- Field name to value. -/
abbrev SigmaEvent := Map String String

/-- A correlation rule as `parse_correlation` accepts it. -/
structure CorrelationRule where
  id : String
  title : String
  description : String
  level : SigmaLevel
  tags : List String
  name : Option String
  kind : CorrelationKind
  rules : List String
  groupBy : List String
  /-- In seconds. -/
  timespan : Int
  atLeast : Nat
  valueField : Option String
  generate : Bool
  timespan_pos : 0 < timespan
  atLeast_pos : 0 < atLeast

def CorrelationRule.span (r : CorrelationRule) : Int := r.timespan * nanosPerSecond

theorem span_pos (r : CorrelationRule) : 0 < r.span := by
  have positive := r.timespan_pos
  simp only [CorrelationRule.span, nanosPerSecond]
  omega

theorem fiveMinutes_pos : (0 : Int) < 300 := by decide

structure CorrelationHit where
  kind : CorrelationKind
  count : Nat
  timespanSecs : Int
  group : List (String × String)
  deriving DecidableEq

inductive Source where
  | rule (index : Nat)
  | correlation (index : Nat)
  deriving DecidableEq

/-- What one group of a correlation has seen within the timespan. -/
structure Window where
  times : List Int
  values : Map String Int
  perRule : List (Option Int)
  latest : Option Int

def Window.empty : Window := { times := [], values := ∅, perRule := [], latest := none }

abbrev Groups := Map (List String) Window

structure Correlation where
  rule : CorrelationRule
  sources : List Source
  alerts : Bool
  groups : Groups

/-! What a window counts, by kind. -/

def recent (oldest : Int) (t : Option Int) : Bool := t.any (fun t => decide (oldest < t))

def Window.seen (w : Window) (time : Int) : Window :=
  { w with latest := some (w.latest.elim time (fun latest => max latest time)) }

def Window.countEvent (w : Window) (oldest time : Int) : Window × Nat :=
  let times := w.times.filter (fun t => decide (oldest < t)) ++ [time]
  ({ w with times := times }, times.length)

def Window.countValue (w : Window) (oldest time : Int) (value : String) : Window × Nat :=
  let kept := w.values.retain (fun _ t => decide (oldest < t))
  let values : Map String Int :=
    if kept.size < maxValues ∨ value ∈ kept then kept.insert value time else kept
  ({ w with values := values }, values.size)

def resize (perRule : List (Option Int)) (listed : Nat) : List (Option Int) :=
  perRule.take listed ++ List.replicate (listed - perRule.length) none

def Window.countRule (w : Window) (oldest time : Int) (listed position : Nat) : Window × Nat :=
  let perRule := (resize w.perRule listed).set position (some time)
  ({ w with perRule := perRule }, (perRule.filter (recent oldest)).length)

/-- A rule counts only once the one listed before it has matched. -/
def inOrder (perRule : List (Option Int)) (oldest time : Int) (position : Nat) : Bool :=
  position = 0 || recent oldest (perRule.getD (position - 1) none) &&
    (perRule.getD (position - 1) none).any (fun before => decide (before ≤ time))

def clearAfter (perRule : List (Option Int)) (position : Nat) : List (Option Int) :=
  perRule.mapIdx (fun i t => if position < i then none else t)

def Window.countInOrder (w : Window) (oldest time : Int) (listed position : Nat) : Window × Nat :=
  let resized := resize w.perRule listed
  let perRule :=
    if inOrder resized oldest time position then
      clearAfter (resized.set position (some time)) position
    else resized
  ({ w with perRule := perRule }, (perRule.takeWhile (recent oldest)).length)

/-! One match. -/

def groupKey (groupBy : List String) (fields : SigmaEvent) : Option (List String) :=
  groupBy.mapM (fun field => (fields.lookup field).filter (fun value => value ≠ ""))

def CorrelationRule.valueOf (r : CorrelationRule) (fields : SigmaEvent) : Option String :=
  (r.valueField.bind (fun field => fields.lookup field)).filter (fun value => value ≠ "")

/-- The groups to count a match in, and whether there is room for its own. When the table is
    full and the group is not in it, the groups without a recent match are forgotten. -/
def makeRoom (groups : Groups) (key : List String) (oldest : Int) : Groups × Bool :=
  if key ∉ groups ∧ maxGroups ≤ groups.size then
    let followed := groups.retain (fun _ w => recent oldest w.latest)
    (followed, decide (followed.size < maxGroups))
  else (groups, true)

/-- No count when a `value_count` match has no value. -/
def Correlation.observe (c : Correlation) (w : Window) (position : Nat) (fields : SigmaEvent)
    (time : Int) : Window × Option Nat :=
  let oldest := time - c.rule.span
  match c.rule.kind with
  | .eventCount => (w.countEvent oldest time).map id some
  | .valueCount =>
    match c.rule.valueOf fields with
    | none => (w, none)
    | some value => (w.countValue oldest time value).map id some
  | .temporal => (w.countRule oldest time c.sources.length position).map id some
  | .temporalOrdered => (w.countInOrder oldest time c.sources.length position).map id some

def Correlation.window (c : Correlation) (key : List String) : Window :=
  (c.groups.lookup key).getD Window.empty

def Correlation.hit (c : Correlation) (key : List String) (count : Nat) : CorrelationHit where
  kind := c.rule.kind
  count := count
  timespanSecs := c.rule.timespan
  group := c.rule.groupBy.zip key

def Correlation.countIn (c : Correlation) (key : List String) (position : Nat)
    (fields : SigmaEvent) (time : Int) : Correlation × Option CorrelationHit :=
  match c.observe ((c.window key).seen time) position fields time with
  | (w, none) => ({ c with groups := c.groups.insert key w }, none)
  | (w, some count) =>
    if count < c.rule.atLeast then ({ c with groups := c.groups.insert key w }, none)
    else ({ c with groups := c.groups.erase key }, some (c.hit key count))

def Correlation.count (c : Correlation) (source : Source) (fields : SigmaEvent) (time : Int) :
    Correlation × Option CorrelationHit :=
  match groupKey c.rule.groupBy fields with
  | none => (c, none)
  | some key =>
    match c.sources.idxOf? source with
    | none => (c, none)
    | some position =>
      match makeRoom c.groups key (time - c.rule.span) with
      | (groups, false) => ({ c with groups := groups }, none)
      | (groups, true) => { c with groups := groups }.countIn key position fields time

/-- The group a match is counted in. -/
def Correlation.groupOf (c : Correlation) (source : Source) (fields : SigmaEvent) :
    Option (List String) :=
  if source ∈ c.sources then groupKey c.rule.groupBy fields else none

/-! The definitions, read once. -/

theorem resize_length (perRule : List (Option Int)) (listed : Nat) :
    (resize perRule listed).length = listed := by
  simp only [resize, List.length_append, List.length_take, List.length_replicate]
  omega

theorem getD_resize (perRule : List (Option Int)) {listed i : Nat} (inside : i < listed) :
    (resize perRule listed).getD i none = perRule.getD i none := by
  unfold resize
  by_cases within : i < perRule.length
  · have taken : i < (perRule.take listed).length := by
      simp only [List.length_take]
      omega
    simp [List.getD_eq_getElem?_getD, List.getElem?_append_left taken, inside]
  · have past : perRule.length ≤ i := by omega
    have rest : (perRule.take listed).length ≤ i := by
      simp only [List.length_take]
      omega
    simp only [List.getD_eq_getElem?_getD, List.getElem?_append_right rest,
      List.getElem?_eq_none past, List.getElem?_replicate]
    split <;> rfl

theorem mem_resize {perRule : List (Option Int)} {listed : Nat} {t : Int}
    (held : some t ∈ resize perRule listed) : some t ∈ perRule := by
  rcases List.mem_append.mp held with taken | filled
  · exact List.mem_of_mem_take taken
  · cases (List.mem_replicate.mp filled).2

theorem getElem?_clearAfter (perRule : List (Option Int)) (position i : Nat) :
    (clearAfter perRule position)[i]? =
      (perRule[i]?).map (fun t => if position < i then none else t) := by
  simp [clearAfter]

theorem mem_clearAfter {perRule : List (Option Int)} {position : Nat} {t : Int}
    (held : some t ∈ clearAfter perRule position) :
    ∃ i, i ≤ position ∧ perRule[i]? = some (some t) := by
  obtain ⟨i, found⟩ := List.mem_iff_getElem?.mp held
  rw [getElem?_clearAfter] at found
  obtain ⟨u, here, equal⟩ := Option.map_eq_some_iff.mp found
  by_cases after : position < i
  · rw [if_pos after] at equal
    cases equal
  · rw [if_neg after] at equal
    exact ⟨i, by omega, by rw [here, equal]⟩

theorem mem_of_lookup_makeRoom {groups : Groups} {key other : List String} {oldest : Int}
    {w : Window} (held : (makeRoom groups key oldest).1.lookup other = some w) :
    groups.lookup other = some w := by
  unfold makeRoom at held
  split at held
  · exact (lookup_retain_eq_some.mp held).1
  · exact held

/-- What making room forgets has nothing recent in it. -/
theorem lookup_makeRoom {groups : Groups} {other : List String} {w : Window}
    (key : List String) (oldest : Int) (held : groups.lookup other = some w) :
    (makeRoom groups key oldest).1.lookup other = some w ∨
      ((makeRoom groups key oldest).1.lookup other = none ∧ recent oldest w.latest = false) := by
  unfold makeRoom
  split
  · cases fresh : recent oldest w.latest with
    | true => exact Or.inl (lookup_retain_eq_some.mpr ⟨held, fresh⟩)
    | false =>
      refine Or.inr ⟨?_, rfl⟩
      rw [lookup_retain, held, Option.filter_some, fresh]
      rfl
  · exact Or.inl held

theorem makeRoom_refused {groups : Groups} {key : List String} {oldest : Int}
    (refused : (makeRoom groups key oldest).2 = false) :
    key ∉ groups ∧
      maxGroups ≤ Map.size (groups.retain (fun _ w => recent oldest w.latest)) := by
  unfold makeRoom at refused
  split at refused
  · rename_i full
    have still := of_decide_eq_false refused
    exact ⟨full.1, by omega⟩
  · cases refused

/-- What a count can do. -/
theorem count_cases (c : Correlation) (source : Source) (fields : SigmaEvent) (time : Int) :
    (c.groupOf source fields = none ∧ c.count source fields time = (c, none)) ∨
    ∃ key position, c.groupOf source fields = some key ∧
      c.sources.idxOf? source = some position ∧
      (((makeRoom c.groups key (time - c.rule.span)).2 = false ∧
        c.count source fields time =
          ({ c with groups := (makeRoom c.groups key (time - c.rule.span)).1 }, none)) ∨
      ((makeRoom c.groups key (time - c.rule.span)).2 = true ∧
        c.count source fields time =
          { c with groups := (makeRoom c.groups key (time - c.rule.span)).1 }.countIn
            key position fields time)) := by
  unfold Correlation.count Correlation.groupOf
  cases grouped : groupKey c.rule.groupBy fields with
  | none => exact Or.inl ⟨by split <;> rfl, rfl⟩
  | some key =>
    cases listed : c.sources.idxOf? source with
    | none =>
      have unlisted := List.idxOf?_eq_none_iff.mp listed
      exact Or.inl ⟨if_neg unlisted, rfl⟩
    | some position =>
      have member : source ∈ c.sources := by
        by_contra unlisted
        rw [List.idxOf?_eq_none_iff.mpr unlisted] at listed
        cases listed
      refine Or.inr ⟨key, position, if_pos member, rfl, ?_⟩
      cases room : (makeRoom c.groups key (time - c.rule.span)).2 with
      | false =>
        refine Or.inl ⟨rfl, ?_⟩
        dsimp only
        split
        · rename_i made
          rw [made]
        · rename_i made
          rw [made] at room
          cases room
      | true =>
        refine Or.inr ⟨rfl, ?_⟩
        dsimp only
        split
        · rename_i made
          rw [made] at room
          cases room
        · rename_i made
          rw [made]

theorem observe_latest (c : Correlation) (w : Window) (position : Nat) (fields : SigmaEvent)
    (time : Int) : (c.observe w position fields time).1.latest = w.latest := by
  unfold Correlation.observe
  cases c.rule.kind with
  | valueCount => cases c.rule.valueOf fields <;> rfl
  | _ => rfl

/-! What a window holds. -/

def Window.Remembers (w : Window) (t : Int) : Prop :=
  t ∈ w.times ∨ (∃ value, w.values.lookup value = some t) ∨ some t ∈ w.perRule

theorem empty_remembers_none (t : Int) : ¬ Window.empty.Remembers t := by
  simp [Window.empty, Window.Remembers]

theorem mem_countEvent {w : Window} {oldest time t : Int}
    (held : t ∈ (w.countEvent oldest time).1.times) :
    t = time ∨ (t ∈ w.times ∧ oldest < t) := by
  rcases List.mem_append.mp held with old | new
  · obtain ⟨old, young⟩ := List.mem_filter.mp old
    exact Or.inr ⟨old, of_decide_eq_true young⟩
  · exact Or.inl (List.mem_singleton.mp new)

theorem lookup_countValue {w : Window} {oldest time t : Int} {value other : String}
    (held : (w.countValue oldest time value).1.values.lookup other = some t) :
    t = time ∨ (other ≠ value ∧ w.values.lookup other = some t ∧ oldest < t) := by
  unfold Window.countValue at held
  dsimp only at held
  split at held
  · rw [lookup_insert_eq] at held
    split at held
    · exact Or.inl (Option.some.inj held).symm
    · rename_i differs
      obtain ⟨old, young⟩ := lookup_retain_eq_some.mp held
      exact Or.inr ⟨differs, old, of_decide_eq_true young⟩
  · rename_i full
    obtain ⟨old, young⟩ := lookup_retain_eq_some.mp held
    refine Or.inr ⟨?_, old, of_decide_eq_true young⟩
    rintro rfl
    exact full (Or.inr (mem_iff_lookup.mpr ⟨t, held⟩))

theorem mem_countRule {w : Window} {oldest time t : Int} {listed position : Nat}
    (held : some t ∈ (w.countRule oldest time listed position).1.perRule) :
    t = time ∨ some t ∈ w.perRule := by
  rcases List.mem_or_eq_of_mem_set held with old | new
  · exact Or.inr (mem_resize old)
  · exact Or.inl (Option.some.inj new)

theorem mem_countInOrder {w : Window} {oldest time t : Int} {listed position : Nat}
    (held : some t ∈ (w.countInOrder oldest time listed position).1.perRule) :
    t = time ∨ some t ∈ w.perRule := by
  unfold Window.countInOrder at held
  dsimp only at held
  split at held
  · obtain ⟨i, _, found⟩ := mem_clearAfter held
    rcases List.mem_or_eq_of_mem_set (List.mem_of_getElem? found) with old | new
    · exact Or.inr (mem_resize old)
    · exact Or.inl (Option.some.inj new)
  · exact Or.inr (mem_resize held)

theorem observe_remembers (c : Correlation) (w : Window) (position : Nat) (fields : SigmaEvent)
    (time t : Int) (held : (c.observe w position fields time).1.Remembers t) :
    t = time ∨ w.Remembers t := by
  unfold Correlation.observe at held
  cases kind : c.rule.kind with
  | eventCount =>
    rw [kind] at held
    rcases held with times | values | rules
    · exact (mem_countEvent times).imp_right (fun old => Or.inl old.1)
    · exact Or.inr (Or.inr (Or.inl values))
    · exact Or.inr (Or.inr (Or.inr rules))
  | valueCount =>
    rw [kind] at held
    cases valued : c.rule.valueOf fields with
    | none =>
      rw [valued] at held
      exact Or.inr held
    | some value =>
      rw [valued] at held
      rcases held with times | ⟨other, found⟩ | rules
      · exact Or.inr (Or.inl times)
      · exact (lookup_countValue found).imp_right (fun old => Or.inr (Or.inl ⟨other, old.2.1⟩))
      · exact Or.inr (Or.inr (Or.inr rules))
  | temporal =>
    rw [kind] at held
    rcases held with times | values | rules
    · exact Or.inr (Or.inl times)
    · exact Or.inr (Or.inr (Or.inl values))
    · have held : some t ∈
          (w.countRule (time - c.rule.span) time c.sources.length position).1.perRule := rules
      exact (mem_countRule held).imp_right (fun old => Or.inr (Or.inr old))
  | temporalOrdered =>
    rw [kind] at held
    rcases held with times | values | rules
    · exact Or.inr (Or.inl times)
    · exact Or.inr (Or.inr (Or.inl values))
    · exact (mem_countInOrder rules).imp_right (fun old => Or.inr (Or.inr old))

/-! Runs of matches. -/

structure SourceMatch where
  source : Source
  fields : SigmaEvent
  time : Int

def Correlation.step (c : Correlation) (m : SourceMatch) : Correlation :=
  (c.count m.source m.fields m.time).1

/-- What the correlation reports at a match. -/
def Correlation.reports (c : Correlation) (m : SourceMatch) : Option CorrelationHit :=
  (c.count m.source m.fields m.time).2

/-- What counting in a group can do: keep the group's window, or report and forget it. -/
theorem countIn_cases (c : Correlation) (key : List String) (position : Nat)
    (fields : SigmaEvent) (time : Int) :
    ∃ w counted, c.observe ((c.window key).seen time) position fields time = (w, counted) ∧
      ((c.countIn key position fields time =
          ({ c with groups := c.groups.insert key w }, none) ∧
        ∀ count, counted = some count → count < c.rule.atLeast) ∨
      ∃ count, counted = some count ∧ c.rule.atLeast ≤ count ∧
        c.countIn key position fields time =
          ({ c with groups := c.groups.erase key }, some (c.hit key count))) := by
  unfold Correlation.countIn
  cases observed : c.observe ((c.window key).seen time) position fields time with
  | mk w counted =>
    refine ⟨w, counted, rfl, ?_⟩
    cases counted with
    | none => exact Or.inl ⟨rfl, fun count impossible => by cases impossible⟩
    | some count =>
      by_cases below : count < c.rule.atLeast
      · refine Or.inl ⟨by simp [below], fun other same => ?_⟩
        cases same
        exact below
      · exact Or.inr ⟨count, rfl, by omega, by simp [below]⟩

theorem countIn_fixed (c : Correlation) (key : List String) (position : Nat)
    (fields : SigmaEvent) (time : Int) :
    (c.countIn key position fields time).1 =
      { c with groups := (c.countIn key position fields time).1.groups } := by
  obtain ⟨w, counted, _, ⟨kept, _⟩ | ⟨count, _, _, reported⟩⟩ :=
    countIn_cases c key position fields time
  · rw [kept]
  · rw [reported]

/-- Counting changes the groups only. -/
theorem count_fixed (c : Correlation) (source : Source) (fields : SigmaEvent) (time : Int) :
    (c.count source fields time).1 =
      { c with groups := (c.count source fields time).1.groups } := by
  obtain ⟨_, same⟩ | ⟨key, position, _, _, ⟨_, refused⟩ | ⟨_, counted⟩⟩ :=
    count_cases c source fields time
  · rw [same]
  · rw [refused]
  · rw [counted, countIn_fixed]

@[simp] theorem step_rule (c : Correlation) (m : SourceMatch) : (c.step m).rule = c.rule := by
  rw [Correlation.step, count_fixed]

@[simp] theorem step_sources (c : Correlation) (m : SourceMatch) :
    (c.step m).sources = c.sources := by
  rw [Correlation.step, count_fixed]

end SentinelAgent.Scanner
