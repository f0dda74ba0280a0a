import SentinelAgent.Scanner.OneGroup
import SentinelAgent.Scanner.ParseCorrelation

/-!
When a correlation of distinct values fires. A group remembers so many values at most, and a
correlation that waits for more of them waits for ever.
-/
namespace SentinelAgent.Scanner

open Maps

/- The distinct values of the matches in the timespan that ends then. -/
def Correlation.distinctValues (c : Correlation) (time : Int) (ms : List SourceMatch) :
    Finset String :=
  ((c.inSpan time ms).filterMap fun m => c.rule.valueOf m.fields).toFinset

theorem mem_distinctValues {c : Correlation} {time : Int} {ms : List SourceMatch} {v : String} :
    v ∈ c.distinctValues time ms ↔
      ∃ m ∈ ms, time - c.rule.span < m.time ∧ c.rule.valueOf m.fields = some v := by
  simp only [Correlation.distinctValues, Correlation.inSpan, List.mem_toFinset,
    List.mem_filterMap, List.mem_filter, decide_eq_true_eq, and_assoc]

/-! One match. -/

theorem size_retain_le (p : String → Int → Bool) (m : Map String Int) :
    (m.retain p).size ≤ m.size := by
  refine size_le_card fun v t held => ?_
  exact Finmap.mem_keys.mpr (mem_iff_lookup.mpr ⟨t, (lookup_retain_eq_some.mp held).1⟩)

theorem size_insert_le (m : Map String Int) (v : String) (t : Int) :
    Map.size (m.insert v t) ≤ m.size + 1 := by
  have within : Map.size (m.insert v t) ≤ (insert v m.keys).card := by
    refine size_le_card fun u s held => ?_
    rw [lookup_insert_eq] at held
    split at held
    · rename_i same
      exact Finset.mem_insert.mpr (Or.inl same)
    · exact Finset.mem_insert_of_mem (Finmap.mem_keys.mpr (mem_iff_lookup.mpr ⟨s, held⟩))
  exact within.trans (Finset.card_insert_le v m.keys)

theorem size_insert_held {m : Map String Int} {v : String} (held : v ∈ m) (t : Int) :
    Map.size (m.insert v t) ≤ m.size := by
  refine size_le_card fun u s found => ?_
  rw [lookup_insert_eq] at found
  split at found
  · rename_i same
    exact Finmap.mem_keys.mpr (same ▸ held)
  · exact Finmap.mem_keys.mpr (mem_iff_lookup.mpr ⟨s, found⟩)

theorem watch_valueless {c : Correlation} (kind : c.rule.kind = .valueCount) (w : Window)
    {m : SourceMatch} (none_there : c.rule.valueOf m.fields = none) :
    c.watch w m = (w.seen m.time, none) := by
  simp only [Correlation.watch, Correlation.observe, kind, none_there]

/- What is remembered with one more value. -/
def remembered (values : Map String Int) (oldest time : Int) (v : String) : Map String Int :=
  let kept := values.retain fun _ t => decide (oldest < t)
  if kept.size < maxValues ∨ v ∈ kept then kept.insert v time else kept

theorem watch_value {c : Correlation} (kind : c.rule.kind = .valueCount) (w : Window)
    {m : SourceMatch} {v : String} (there : c.rule.valueOf m.fields = some v) :
    (c.watch w m).1.values = remembered w.values (m.time - c.rule.span) m.time v ∧
      (c.watch w m).2 =
        some (remembered w.values (m.time - c.rule.span) m.time v).size := by
  simp only [Correlation.watch, Correlation.observe, kind, there]
  exact ⟨rfl, rfl⟩

/-- A value is forgotten when it was last seen before the timespan. -/
theorem lookup_watch {c : Correlation} (kind : c.rule.kind = .valueCount) {w : Window}
    {m : SourceMatch} {u : String} {t : Int}
    (held : (c.watch w m).1.values.lookup u = some t) :
    (t = m.time ∧ c.rule.valueOf m.fields = some u) ∨ w.values.lookup u = some t := by
  cases there : c.rule.valueOf m.fields with
  | none =>
    rw [watch_valueless kind w there] at held
    exact Or.inr held
  | some v =>
    rw [(watch_value kind w there).1, remembered] at held
    split at held
    · rw [lookup_insert_eq] at held
      split at held
      · rename_i same
        exact Or.inl ⟨(Option.some.inj held).symm, by rw [same]⟩
      · exact Or.inr (lookup_retain_eq_some.mp held).1
    · exact Or.inr (lookup_retain_eq_some.mp held).1

theorem lookup_watch_kept {c : Correlation} (kind : c.rule.kind = .valueCount) {w : Window}
    {m : SourceMatch} {u : String} {t : Int} (held : w.values.lookup u = some t)
    (young : m.time - c.rule.span < t) :
    (c.watch w m).1.values.lookup u =
      some (if c.rule.valueOf m.fields = some u then m.time else t) := by
  cases there : c.rule.valueOf m.fields with
  | none =>
    rw [watch_valueless kind w there, if_neg (by simp)]
    exact held
  | some v =>
    have kept : (w.values.retain fun _ t => decide (m.time - c.rule.span < t)).lookup u =
        some t := lookup_retain_eq_some.mpr ⟨held, decide_eq_true young⟩
    rw [(watch_value kind w there).1, remembered]
    by_cases same : u = v
    · have among : v ∈ w.values.retain fun _ t => decide (m.time - c.rule.span < t) := by
        rw [mem_iff_lookup, ← same]
        exact ⟨t, kept⟩
      rw [if_pos (Or.inr among), lookup_insert_eq, if_pos same, if_pos (by rw [same])]
    · rw [if_neg fun other => same (Option.some.inj other).symm]
      split
      · rw [lookup_insert_eq, if_neg same]
        exact kept
      · exact kept

/-! What a group remembers. -/

/- Each value remembered was seen, when it is said to have been. -/
def Seen (c : Correlation) (w : Window) (since : List SourceMatch) : Prop :=
  ∀ v t, w.values.lookup v = some t →
    ∃ n ∈ since, c.rule.valueOf n.fields = some v ∧ n.time = t

theorem seen_empty (c : Correlation) : Seen c Window.empty [] := by
  intro v t held
  rw [Window.empty, Finmap.lookup_empty] at held
  cases held

theorem seen_watch {c : Correlation} (kind : c.rule.kind = .valueCount) {w : Window}
    {since : List SourceMatch} (seen : Seen c w since) (m : SourceMatch) :
    Seen c (c.watch w m).1 (since ++ [m]) := by
  intro v t held
  obtain ⟨now, there⟩ | before := lookup_watch kind held
  · exact ⟨m, List.mem_append_right since (List.mem_singleton_self m), there, now.symm⟩
  · obtain ⟨n, among, rest⟩ := seen v t before
    exact ⟨n, List.mem_append_left [m] among, rest⟩

/- All values of the timespan are remembered, and they are too few to fire. -/
structure AllSeen (c : Correlation) (w : Window) (since : List SourceMatch) : Prop where
  seen : Seen c w since
  few : w.values.size < c.rule.atLeast
  latest : ∀ n ∈ since, ∀ v, c.rule.valueOf n.fields = some v →
    (∀ k ∈ since, k.time - c.rule.span < n.time) →
      ∃ t, w.values.lookup v = some t ∧ n.time ≤ t

theorem allSeen_empty (c : Correlation) : AllSeen c Window.empty [] where
  seen := seen_empty c
  few := c.rule.atLeast_pos
  latest n among := by cases among

/-- While a group remembers fewer values than it may, it remembers one more. -/
theorem watch_room {c : Correlation} (kind : c.rule.kind = .valueCount)
    (small : c.rule.atLeast ≤ maxValues) {w : Window} (few : w.values.size < c.rule.atLeast)
    {m : SourceMatch} {v : String} (there : c.rule.valueOf m.fields = some v) :
    (c.watch w m).1.values =
        (w.values.retain fun _ t => decide (m.time - c.rule.span < t)).insert v m.time ∧
      (c.watch w m).2 = some ((c.watch w m).1.values.size) := by
  have room : (w.values.retain fun _ t => decide (m.time - c.rule.span < t)).size < maxValues := by
    have fewer := size_retain_le (fun _ t => decide (m.time - c.rule.span < t)) w.values
    omega
  rw [(watch_value kind w there).1, (watch_value kind w there).2]
  exact ⟨if_pos (Or.inl room), rfl⟩

/-- The values remembered after a match are the distinct values of the timespan. -/
theorem keys_watch {c : Correlation} (kind : c.rule.kind = .valueCount)
    (small : c.rule.atLeast ≤ maxValues) {w : Window} {since : List SourceMatch}
    (all : AllSeen c w since) {m : SourceMatch} (inOrder : InOrder (since ++ [m])) {v : String}
    (there : c.rule.valueOf m.fields = some v) :
    (c.watch w m).1.values.keys = c.distinctValues m.time (since ++ [m]) := by
  have now : m.time - c.rule.span < m.time := by
    have positive := span_pos c.rule
    omega
  rw [(watch_room kind small all.few there).1]
  ext u
  rw [Finmap.mem_keys, mem_iff_lookup, mem_distinctValues]
  simp only [lookup_insert_eq]
  constructor
  · rintro ⟨t, held⟩
    split at held
    · rename_i same
      exact ⟨m, List.mem_append_right since (List.mem_singleton_self m), now, by rw [same, there]⟩
    · obtain ⟨before, young⟩ := lookup_retain_eq_some.mp held
      obtain ⟨n, among, value, time⟩ := all.seen u t before
      exact ⟨n, List.mem_append_left [m] among, by rw [time]; exact of_decide_eq_true young, value⟩
  · rintro ⟨n, among, young, value⟩
    by_cases same : u = v
    · exact ⟨m.time, if_pos same⟩
    rw [if_neg same]
    rcases List.mem_append.mp among with old | new
    · obtain ⟨t, held, later⟩ := all.latest n old u value fun k before => by
        have order := (inOrder_append.mp inOrder).2 k before
        omega
      exact ⟨t, lookup_retain_eq_some.mpr ⟨held, decide_eq_true (by omega)⟩⟩
    · rw [List.mem_singleton.mp new, there] at value
      exact absurd (Option.some.inj value).symm same

/-- A match fires exactly when the values reach the threshold with it. -/
theorem windowHit_iff_due {c : Correlation} (kind : c.rule.kind = .valueCount)
    (small : c.rule.atLeast ≤ maxValues) {w : Window} {since : List SourceMatch}
    (all : AllSeen c w since) {m : SourceMatch} (inOrder : InOrder (since ++ [m])) :
    c.windowHit w m = true ↔
      c.rule.atLeast ≤ (c.distinctValues m.time (since ++ [m])).card := by
  cases there : c.rule.valueOf m.fields with
  | some v =>
    rw [Correlation.windowHit, (watch_room kind small all.few there).2, Option.any_some,
      decide_eq_true_iff, ← keys_watch kind small all inOrder there]
    rfl
  | none =>
    have quiet : c.windowHit w m = false := by
      rw [Correlation.windowHit, watch_valueless kind w there]
      rfl
    have within : (c.distinctValues m.time (since ++ [m])).card ≤ w.values.size := by
      refine Finset.card_le_card fun u distinct => ?_
      obtain ⟨n, among, young, value⟩ := mem_distinctValues.mp distinct
      rcases List.mem_append.mp among with old | new
      · obtain ⟨t, held, _⟩ := all.latest n old u value fun k before => by
          have order := (inOrder_append.mp inOrder).2 k before
          omega
        exact Finmap.mem_keys.mpr (mem_iff_lookup.mpr ⟨t, held⟩)
      · rw [List.mem_singleton.mp new, there] at value
        cases value
    have few := all.few
    rw [quiet]
    simp only [Bool.false_eq_true, false_iff]
    omega

theorem allSeen_watch {c : Correlation} (kind : c.rule.kind = .valueCount)
    (small : c.rule.atLeast ≤ maxValues) {w : Window} {since : List SourceMatch}
    (all : AllSeen c w since) {m : SourceMatch} (inOrder : InOrder (since ++ [m]))
    (quiet : c.windowHit w m = false) : AllSeen c (c.watch w m).1 (since ++ [m]) where
  seen := seen_watch kind all.seen m
  few := by
    cases there : c.rule.valueOf m.fields with
    | none =>
      rw [watch_valueless kind w there]
      exact all.few
    | some v =>
      rw [Correlation.windowHit, (watch_room kind small all.few there).2, Option.any_some,
        decide_eq_false_iff_not] at quiet
      exact Nat.lt_of_not_le quiet
  latest n among v value young := by
    rcases List.mem_append.mp among with old | new
    · have before : ∀ k ∈ since, k.time - c.rule.span < n.time := fun k listed =>
        young k (List.mem_append_left [m] listed)
      have still := young m (List.mem_append_right since (List.mem_singleton_self m))
      obtain ⟨t, held, later⟩ := all.latest n old v value before
      have order := (inOrder_append.mp inOrder).2 n old
      refine ⟨_, lookup_watch_kept kind held (by omega), ?_⟩
      split <;> omega
    · have its : n = m := List.mem_singleton.mp new
      rw [its] at value ⊢
      refine ⟨m.time, ?_, le_refl m.time⟩
      rw [(watch_room kind small all.few value).1, lookup_insert_eq, if_pos rfl]

end SentinelAgent.Scanner
