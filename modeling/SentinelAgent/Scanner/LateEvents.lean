import Mathlib.Data.List.ReduceOption
import Mathlib.Data.List.TakeWhile
import SentinelAgent.Scanner.SlidingWindow

/-!
Events read in any order. A count looks back from its own event only, so an event read late is
counted with everything its group remembers from after it, however much later that was.
-/
namespace SentinelAgent.Scanner

open Maps

/-! The times behind a count. -/

def Correlation.counted (c : Correlation) (w : Window) (oldest : Int) : Multiset Int :=
  match c.rule.kind with
  | .eventCount => w.times
  | .valueCount => w.values.entries.map (fun entry => entry.2)
  | .temporal => (w.perRule.filter (recent oldest)).reduceOption
  | .temporalOrdered => (w.perRule.takeWhile (recent oldest)).reduceOption

/-- The times counted at a match. -/
def Correlation.countedAt (c : Correlation) (m : SourceMatch) : Multiset Int :=
  match c.groupOf m.source m.fields, c.sources.idxOf? m.source with
  | some key, some position =>
    c.counted (c.observe ((c.window key).seen m.time) position m.fields m.time).1
      (m.time - c.rule.span)
  | _, _ => 0

/-- What a hit counted lies within one timespan. -/
def HitSound (c : Correlation) (m : SourceMatch) : Prop :=
  ∀ hit, c.reports m = some hit → (c.countedAt m).card = hit.count ∧
    ∀ s ∈ c.countedAt m, ∀ t ∈ c.countedAt m, t - s ≤ c.rule.span

def Correlation.follows (c : Correlation) (w : Window) (position : Nat) (m : SourceMatch) : Bool :=
  inOrder (resize w.perRule c.sources.length) (m.time - c.rule.span) m.time position

/-- A time that a window goes on holding when a match is counted: not the one of the same value
    or of the same rule, nor of the rules that have to match again after it. -/
def Correlation.Stands (c : Correlation) (w : Window) (position : Nat) (m : SourceMatch)
    (t : Int) : Prop :=
  match c.rule.kind with
  | .eventCount => t ∈ w.times
  | .valueCount => ∃ value other, c.rule.valueOf m.fields = some value ∧ other ≠ value ∧
      w.values.lookup other = some t
  | .temporal => ∃ i, i ≠ position ∧ w.perRule[i]? = some (some t)
  | .temporalOrdered => ∃ i, (c.follows w position m = true → i < position) ∧
      w.perRule[i]? = some (some t)

/-- The match is not read too late for what its group remembers: nothing that stands is later
    by more than the timespan, unless the match is out of order and not recorded. The temporal
    kinds never drop the last match of a rule, so there the match must not bring back one that
    was past for another. -/
def TimelyIn (c : Correlation) (w : Window) (position : Nat) (m : SourceMatch) : Prop :=
  ∀ t, c.Stands w position m t →
    ((c.rule.kind = .temporalOrdered → c.follows w position m = true) →
      t ≤ m.time + c.rule.span) ∧
    (c.rule.kind = .temporal ∨ c.rule.kind = .temporalOrdered →
      ∀ s, c.Stands w position m s → m.time - c.rule.span < s → t ≤ s + c.rule.span)

def Timely (c : Correlation) (m : SourceMatch) : Prop :=
  ∀ key position, c.groupOf m.source m.fields = some key →
    c.sources.idxOf? m.source = some position → TimelyIn c (c.window key) position m

theorem recent_iff {oldest : Int} {t : Option Int} :
    recent oldest t = true ↔ ∃ time, t = some time ∧ oldest < time := by
  cases t <;> simp [recent]

theorem length_reduceOption_recent {oldest : Int} {ts : List (Option Int)}
    (fresh : ∀ t ∈ ts, recent oldest t = true) : ts.reduceOption.length = ts.length := by
  refine List.reduceOption_length_eq_iff.mpr (fun t member => ?_)
  obtain ⟨time, rfl, _⟩ := recent_iff.mp (fresh t member)
  rfl

theorem counted_card {c : Correlation} {w : Window} {position : Nat} {m : SourceMatch} {n : Nat}
    (number : (c.observe w position m.fields m.time).2 = some n) :
    (c.counted (c.observe w position m.fields m.time).1 (m.time - c.rule.span)).card = n := by
  unfold Correlation.observe Correlation.counted at *
  cases kind : c.rule.kind with
  | eventCount =>
    simp only [kind] at number ⊢
    exact Option.some.inj number
  | valueCount =>
    simp only [kind] at number ⊢
    cases valued : c.rule.valueOf m.fields with
    | none =>
      rw [valued] at number
      cases number
    | some value =>
      simp only [valued] at number ⊢
      rw [← Option.some.inj number]
      simp [Window.countValue, Map.size, Finmap.keys, Multiset.keys]
  | temporal =>
    simp only [kind] at number ⊢
    rw [← Option.some.inj number]
    exact length_reduceOption_recent (fun t member => (List.mem_filter.mp member).2)
  | temporalOrdered =>
    simp only [kind] at number ⊢
    rw [← Option.some.inj number]
    exact length_reduceOption_recent (fun t member => List.mem_takeWhile_imp member)

/-! What one match leaves in a window. -/

/-- The windows that drop what is past hold no two times further apart than the timespan. -/
def Tight (c : Correlation) (w : Window) : Prop :=
  (∀ s ∈ w.times, ∀ t ∈ w.times, t ≤ s + c.rule.span) ∧
  ∀ a b s t, w.values.lookup a = some s → w.values.lookup b = some t → t ≤ s + c.rule.span

theorem tight_empty (c : Correlation) : Tight c Window.empty := by
  constructor
  · intro s member
    cases member
  · intro a b s t held
    simp [Window.empty] at held

theorem countEvent_tight {c : Correlation} {w : Window} {time : Int}
    (tight : ∀ s ∈ w.times, ∀ t ∈ w.times, t ≤ s + c.rule.span)
    (soon : ∀ t ∈ w.times, t ≤ time + c.rule.span) :
    ∀ s ∈ (w.countEvent (time - c.rule.span) time).1.times,
      ∀ t ∈ (w.countEvent (time - c.rule.span) time).1.times, t ≤ s + c.rule.span := by
  intro s from_s t from_t
  have positive := span_pos c.rule
  rcases mem_countEvent from_s with new_s | ⟨old_s, young⟩
  · rcases mem_countEvent from_t with new_t | ⟨old_t, _⟩
    · omega
    · have := soon t old_t
      omega
  · rcases mem_countEvent from_t with new_t | ⟨old_t, _⟩
    · omega
    · exact tight s old_s t old_t

theorem countValue_tight {c : Correlation} {w : Window} {time : Int} {value : String}
    (tight : ∀ a b s t, w.values.lookup a = some s → w.values.lookup b = some t →
      t ≤ s + c.rule.span)
    (soon : ∀ a t, a ≠ value → w.values.lookup a = some t → t ≤ time + c.rule.span)
    (a b : String) (s t : Int)
    (from_s : (w.countValue (time - c.rule.span) time value).1.values.lookup a = some s)
    (from_t : (w.countValue (time - c.rule.span) time value).1.values.lookup b = some t) :
    t ≤ s + c.rule.span := by
  have positive := span_pos c.rule
  rcases lookup_countValue from_s with new_s | ⟨_, old_s, young⟩
  · rcases lookup_countValue from_t with new_t | ⟨other, old_t, _⟩
    · omega
    · have := soon b t other old_t
      omega
  · rcases lookup_countValue from_t with new_t | ⟨_, old_t, _⟩
    · omega
    · exact tight a b s t old_s old_t

theorem getElem?_resize_some {perRule : List (Option Int)} {listed i : Nat} {t : Int}
    (held : (resize perRule listed)[i]? = some (some t)) : perRule[i]? = some (some t) := by
  unfold resize at held
  rcases Nat.lt_or_ge i (perRule.take listed).length with inside | outside
  · rw [List.getElem?_append_left inside, List.getElem?_take] at held
    split at held
    · exact held
    · cases held
  · rw [List.getElem?_append_right outside, List.getElem?_replicate] at held
    split at held <;> cases held

/-- A time in a temporal window after a match is the match's or of another rule. -/
theorem getElem?_countRule {w : Window} {oldest time t : Int} {listed position i : Nat}
    (held : (w.countRule oldest time listed position).1.perRule[i]? = some (some t)) :
    t = time ∨ (i ≠ position ∧ w.perRule[i]? = some (some t)) := by
  have read : ((resize w.perRule listed).set position (some time))[i]? = some (some t) := held
  rw [List.getElem?_set] at read
  split at read
  · split at read
    · exact Or.inl (Option.some.inj (Option.some.inj read)).symm
    · cases read
  · rename_i differs
    exact Or.inr ⟨Ne.symm differs, getElem?_resize_some read⟩

/-- In a temporal_ordered window it is the match's, when it was in order, or what stands. -/
theorem getElem?_countInOrder {w : Window} {oldest time t : Int} {listed position i : Nat}
    (held : (w.countInOrder oldest time listed position).1.perRule[i]? = some (some t)) :
    (inOrder (resize w.perRule listed) oldest time position = true ∧ t = time) ∨
      ((inOrder (resize w.perRule listed) oldest time position = true → i < position) ∧
        w.perRule[i]? = some (some t)) := by
  unfold Window.countInOrder at held
  dsimp only at held
  split at held
  · rename_i follows
    rw [getElem?_clearAfter, List.getElem?_set] at held
    by_cases its : position = i
    · rw [if_pos its] at held
      subst its
      by_cases inside : position < (resize w.perRule listed).length
      · rw [if_pos inside, Option.map_some, if_neg (lt_irrefl position)] at held
        exact Or.inl ⟨follows, (Option.some.inj (Option.some.inj held)).symm⟩
      · rw [if_neg inside] at held
        cases held
    · rw [if_neg its] at held
      obtain ⟨u, found, equal⟩ := Option.map_eq_some_iff.mp held
      by_cases after : position < i
      · rw [if_pos after] at equal
        cases equal
      · rw [if_neg after] at equal
        subst equal
        exact Or.inr ⟨fun _ => by omega, getElem?_resize_some found⟩
  · rename_i late
    exact Or.inr ⟨fun follows => absurd follows late, getElem?_resize_some held⟩

theorem observe_tight {c : Correlation} {w : Window} {position : Nat} {m : SourceMatch}
    (tight : Tight c w) (timely : TimelyIn c w position m) :
    Tight c (c.observe w position m.fields m.time).1 := by
  unfold Correlation.observe
  cases kind : c.rule.kind with
  | eventCount =>
    have soon : ∀ t ∈ w.times, t ≤ m.time + c.rule.span := by
      intro t member
      have stands : c.Stands w position m t := by
        rw [Correlation.Stands, kind]
        exact member
      exact (timely t stands).1 (by simp [kind])
    exact ⟨countEvent_tight tight.1 soon, tight.2⟩
  | valueCount =>
    cases valued : c.rule.valueOf m.fields with
    | none => exact tight
    | some value =>
      have soon : ∀ a t, a ≠ value → w.values.lookup a = some t → t ≤ m.time + c.rule.span := by
        intro a t other held
        have stands : c.Stands w position m t := by
          rw [Correlation.Stands, kind]
          exact ⟨value, a, valued, other, held⟩
        exact (timely t stands).1 (by simp [kind])
      exact ⟨tight.1, countValue_tight tight.2 soon⟩
  | temporal => exact tight
  | temporalOrdered => exact tight

/-- A recent time of a temporal window is the match's, or stands. -/
theorem countRule_counted {c : Correlation} {w : Window} {position : Nat} {m : SourceMatch}
    {t : Int} (kind : c.rule.kind = .temporal)
    (counted : t ∈ c.counted (c.observe w position m.fields m.time).1 (m.time - c.rule.span)) :
    m.time - c.rule.span < t ∧ (t = m.time ∨ c.Stands w position m t) := by
  simp only [Correlation.counted, Correlation.observe, kind, Multiset.mem_coe,
    List.reduceOption_mem_iff, List.mem_filter] at counted
  obtain ⟨held, fresh⟩ := counted
  obtain ⟨_, same, young⟩ := recent_iff.mp fresh
  cases same
  obtain ⟨i, found⟩ := List.mem_iff_getElem?.mp held
  have found : (w.countRule (m.time - c.rule.span) m.time c.sources.length
      position).1.perRule[i]? = some (some t) := found
  have stands := getElem?_countRule found
  constructor
  · exact young
  · rw [Correlation.Stands, kind]
    exact stands.imp_right (fun old => ⟨i, old⟩)

theorem countInOrder_counted {c : Correlation} {w : Window} {position : Nat} {m : SourceMatch}
    {t : Int} (kind : c.rule.kind = .temporalOrdered)
    (counted : t ∈ c.counted (c.observe w position m.fields m.time).1 (m.time - c.rule.span)) :
    m.time - c.rule.span < t ∧
      ((c.follows w position m = true ∧ t = m.time) ∨ c.Stands w position m t) := by
  simp only [Correlation.counted, Correlation.observe, kind, Multiset.mem_coe,
    List.reduceOption_mem_iff] at counted
  have fresh := List.mem_takeWhile_imp counted
  have held := (List.takeWhile_sublist _).subset counted
  obtain ⟨_, same, young⟩ := recent_iff.mp fresh
  cases same
  obtain ⟨i, found⟩ := List.mem_iff_getElem?.mp held
  have stands := getElem?_countInOrder found
  constructor
  · exact young
  · rw [Correlation.Stands, kind]
    exact stands.imp_right (fun old => ⟨i, old⟩)

theorem mem_counted_values {c : Correlation} {w : Window} {oldest t : Int}
    (kind : c.rule.kind = .valueCount) (counted : t ∈ c.counted w oldest) :
    ∃ value, w.values.lookup value = some t := by
  simp only [Correlation.counted, kind] at counted
  obtain ⟨entry, member, rfl⟩ := Multiset.mem_map.mp counted
  exact ⟨entry.1, Finmap.mem_lookup_iff.mpr member⟩

theorem counted_within {c : Correlation} {w : Window} {position : Nat} {m : SourceMatch}
    (tight : Tight c w) (timely : TimelyIn c w position m) {s t : Int}
    (from_s : s ∈ c.counted (c.observe w position m.fields m.time).1 (m.time - c.rule.span))
    (from_t : t ∈ c.counted (c.observe w position m.fields m.time).1 (m.time - c.rule.span)) :
    t ≤ s + c.rule.span := by
  have after := observe_tight tight timely
  have positive := span_pos c.rule
  cases kind : c.rule.kind with
  | eventCount =>
    simp only [Correlation.counted, kind, Multiset.mem_coe] at from_s from_t
    exact after.1 s from_s t from_t
  | valueCount =>
    obtain ⟨a, held_s⟩ := mem_counted_values kind from_s
    obtain ⟨b, held_t⟩ := mem_counted_values kind from_t
    exact after.2 a b s t held_s held_t
  | temporal =>
    obtain ⟨young_s, new_s | old_s⟩ := countRule_counted kind from_s
    · obtain ⟨_, new_t | old_t⟩ := countRule_counted kind from_t
      · omega
      · have := (timely t old_t).1 (by simp [kind])
        omega
    · obtain ⟨_, new_t | old_t⟩ := countRule_counted kind from_t
      · omega
      · exact (timely t old_t).2 (Or.inl kind) s old_s young_s
  | temporalOrdered =>
    obtain ⟨young_s, ⟨follows, new_s⟩ | old_s⟩ := countInOrder_counted kind from_s
    · obtain ⟨_, ⟨_, new_t⟩ | old_t⟩ := countInOrder_counted kind from_t
      · omega
      · have := (timely t old_t).1 (fun _ => follows)
        omega
    · obtain ⟨_, ⟨_, new_t⟩ | old_t⟩ := countInOrder_counted kind from_t
      · omega
      · exact (timely t old_t).2 (Or.inr kind) s old_s young_s

/-! Runs. -/

def AllTight (c : Correlation) : Prop := ∀ key w, c.groups.lookup key = some w → Tight c w

theorem allTight_window {c : Correlation} (tight : AllTight c) (key : List String) :
    Tight c (c.window key) := by
  cases held : c.groups.lookup key with
  | none =>
    rw [Correlation.window, held]
    exact tight_empty c
  | some w =>
    rw [Correlation.window, held]
    exact tight key w held

/-- Making room for a group leaves the group's own window as it was. -/
theorem window_makeRoom (c : Correlation) (key : List String) (oldest : Int) :
    ({ c with groups := (makeRoom c.groups key oldest).1 } : Correlation).window key =
      c.window key := by
  simp only [Correlation.window, makeRoom]
  split
  · rename_i full
    have gone : (c.groups.retain (fun _ w => recent oldest w.latest)).lookup key = none :=
      Finmap.lookup_eq_none.mpr (notMem_retain full.1)
    rw [gone, Finmap.lookup_eq_none.mpr full.1]
  · rfl

theorem hit_sound {c : Correlation} {m : SourceMatch} (tight : AllTight c)
    (timely : Timely c m) : HitSound c m := by
  intro hit reported
  unfold Correlation.reports at reported
  obtain ⟨_, same⟩ | ⟨key, position, grouped, listed, ⟨_, refused⟩ | ⟨_, into⟩⟩ :=
    count_cases c m.source m.fields m.time
  · rw [same] at reported
    cases reported
  · rw [refused] at reported
    cases reported
  rw [into] at reported
  obtain ⟨w, number, result, ⟨kept, _⟩ | ⟨count, enough, _, out⟩⟩ :=
    countIn_cases { c with groups := (makeRoom c.groups key (m.time - c.rule.span)).1 } key
      position m.fields m.time
  · rw [kept] at reported
    cases reported
  rw [out] at reported
  cases reported
  rw [window_makeRoom] at result
  have observed : (c.observe ((c.window key).seen m.time) position m.fields m.time).2 =
      some count := by
    have same : (c.observe ((c.window key).seen m.time) position m.fields m.time).2 = number :=
      congrArg Prod.snd result
    rw [same, enough]
  have within := allTight_window tight key
  simp only [Correlation.countedAt, grouped, listed]
  constructor
  · exact counted_card observed
  · intro s from_s t from_t
    have := counted_within (w := (c.window key).seen m.time) within
      (timely key position grouped listed) from_s from_t
    omega

theorem step_allTight {c : Correlation} {m : SourceMatch} (tight : AllTight c)
    (timely : Timely c m) : AllTight (c.step m) := by
  unfold Correlation.step
  obtain ⟨_, same⟩ | ⟨key, position, grouped, listed, out⟩ :=
    count_cases c m.source m.fields m.time
  · rw [same]
    exact tight
  have made : ∀ other w, (makeRoom c.groups key (m.time - c.rule.span)).1.lookup other = some w →
      Tight c w := fun other w held => tight other w (mem_of_lookup_makeRoom held)
  obtain ⟨_, refused⟩ | ⟨_, into⟩ := out
  · rw [refused]
    exact made
  rw [into]
  obtain ⟨w, number, result, ⟨kept, _⟩ | ⟨_, _, _, reported⟩⟩ :=
    countIn_cases { c with groups := (makeRoom c.groups key (m.time - c.rule.span)).1 } key
      position m.fields m.time
  · rw [kept]
    intro other v held
    simp only [lookup_insert_eq] at held
    split at held
    · cases held
      rw [window_makeRoom] at result
      have after := observe_tight (w := (c.window key).seen m.time) (allTight_window tight key)
        (timely key position grouped listed)
      have same : (c.observe ((c.window key).seen m.time) position m.fields m.time).1 = w :=
        congrArg Prod.fst result
      rw [same] at after
      exact after
    · exact made other v held
  · rw [reported]
    intro other v held
    simp only [lookup_erase_eq] at held
    split at held
    · cases held
    · exact made other v held

theorem hits_within_span_along {c : Correlation} (fresh : c.groups = ∅) {ms : List SourceMatch}
    (timely : Runs.Along Correlation.step Timely c ms) :
    Runs.Along Correlation.step HitSound c ms := by
  have start : AllTight c := by
    intro key w held
    rw [fresh, Finmap.lookup_empty] at held
    cases held
  exact Runs.along_imp (I := AllTight) (fun _ _ => hit_sound) (fun _ _ => step_allTight) start
    timely

theorem timely_of_times {c : Correlation} {m : SourceMatch} (kind : c.rule.kind = .eventCount)
    (soon : ∀ key, c.groupOf m.source m.fields = some key →
      ∀ t ∈ (c.window key).times, t ≤ m.time + c.rule.span) : Timely c m := by
  intro key position grouped _ t stands
  rw [Correlation.Stands, kind] at stands
  constructor
  · intro _
    exact soon key grouped t stands
  · simp [kind]

/-- A login read after one that came fifty seconds later. -/
theorem late_login_within_span :
    Runs.Along Correlation.step HitSound failedLogins [failedLogin "x" 60, failedLogin "x" 10] := by
  refine hits_within_span_along rfl ⟨timely_of_times rfl ?_, timely_of_times rfl ?_, trivial⟩
  · intro key grouped
    cases grouped
    decide
  · intro key grouped
    cases grouped
    decide

/-- A login read after one that came two hours later is counted with it. -/
theorem late_login_counted_ahead :
    ¬ Runs.Along Correlation.step HitSound failedLogins
      [failedLogin "x" 7200, failedLogin "x" 0] := by
  rintro ⟨_, second, _⟩
  have reported : ((failedLogins.step (failedLogin "x" 7200)).reports (failedLogin "x" 0)) =
      some { kind := .eventCount, count := 2, timespanSecs := 300, group := [("ip", "x")] } := by
    decide
  have within := (second _ reported).2 (0 * nanosPerSecond) (by decide) (7200 * nanosPerSecond)
    (by decide)
  exact absurd within (by decide)

end SentinelAgent.Scanner
