import SentinelAgent.Scanner.RepeatedReferences
import SentinelAgent.Scanner.ValueCountFires

/-!
A rule that a correlation lists more than once is counted more than once, or never fills the
second of its positions.
-/
namespace SentinelAgent.Scanner

open Maps

section Twice

variable {c live : Correlation} {key : List String} {m : SourceMatch} {w : Window}

theorem alone_single (c : Correlation) (key : List String) (w : Window) :
    Alone c key w { c with groups := Finmap.singleton key w } where
  rule := rfl
  sources := rfl
  window := by
    rw [Correlation.window, Finmap.lookup_singleton_eq]
    rfl
  others other differs := by
    by_contra held
    obtain ⟨v, found⟩ := Option.ne_none_iff_exists'.mp held
    exact differs ((Finmap.mem_singleton other key w).mp (mem_iff_lookup.mpr ⟨v, found⟩))

theorem alone_watch (alone : Alone c key w live) (u : Window) (n : SourceMatch) :
    live.watch u n = c.watch u n := by
  simp only [Correlation.watch, Correlation.observe, alone.rule, alone.sources]

theorem alone_heldAt (alone : Alone c key w live) :
    live.heldAt key m = c.held w (m.time - c.rule.span) := by
  rw [Correlation.heldAt, alone.window, alone.rule, Correlation.held, Correlation.held, alone.rule]

theorem alone_grouped (alone : Alone c key w live)
    (grouped : c.groupOf m.source m.fields = some key) :
    live.groupOf m.source m.fields = some key := by
  rw [Correlation.groupOf, alone.rule, alone.sources]
  exact grouped

/-- A match is never refused by a correlation with no other group. -/
theorem alone_counting (alone : Alone c key w live)
    (grouped : c.groupOf m.source m.fields = some key) :
    (c.windowHit w m = false ∧ live.reports m = none ∧
        Alone c key (c.watch w m).1 (live.step m)) ∨
      ∃ hit, live.reports m = some hit ∧ (c.watch w m).2 = some hit.count ∧
        c.rule.atLeast ≤ hit.count ∧ Alone c key Window.empty (live.step m) := by
  obtain ⟨hit, after⟩ := alone_step alone grouped
  cases counting_cases (alone_grouped alone grouped) with
  | refused full =>
    rw [(alone_room alone (m.time - live.rule.span)).1] at full
    cases full
  | quiet below silent watched =>
    rw [silent] at hit
    rw [Correlation.windowAfter, ← hit, if_neg (by simp)] at after
    exact Or.inl ⟨hit.symm, silent, after⟩
  | loud hits reported count enough forgotten =>
    rw [reported] at hit
    rw [Correlation.windowAfter, ← hit, Option.isSome_some, if_pos rfl] at after
    rw [alone.window, alone_watch alone] at count
    rw [alone.rule] at enough
    exact Or.inr ⟨hits, reported, count, enough, after⟩

/-- An event counts as often as it is handed on. -/
theorem comesTo_events (kind : c.rule.kind = .eventCount)
    (grouped : c.groupOf m.source m.fields = some key) (alone : Alone c key w live) (n : Nat) :
    live.comesTo key m n = c.held w (m.time - c.rule.span) + n := by
  have watched : ∀ w : Window, (c.watch w m).1.times =
      w.times.filter (fun t => decide (m.time - c.rule.span < t)) ++ [m.time] ∧
        (c.watch w m).2 =
          some (w.times.filter (fun t => decide (m.time - c.rule.span < t)) ++ [m.time]).length := by
    intro w
    simp only [Correlation.watch, Correlation.observe, kind]
    exact ⟨rfl, rfl⟩
  have young : m.time - c.rule.span < m.time := by
    have positive := span_pos c.rule
    omega
  induction n generalizing live w with
  | zero => exact alone_heldAt alone
  | succ n ih =>
    rw [Correlation.comesTo]
    obtain ⟨_, silent, after⟩ | ⟨hit, reported, count, _, after⟩ := alone_counting alone grouped
    · have one_more : c.held (c.watch w m).1 (m.time - c.rule.span) =
          c.held w (m.time - c.rule.span) + 1 := by
        simp only [Correlation.held, kind, (watched w).1]
        rw [List.filter_append, List.filter_filter, List.length_append]
        simp [young]
      rw [silent, Option.elim_none, ih after, one_more]
      omega
    · have counted : hit.count = c.held w (m.time - c.rule.span) + 1 := by
        rw [(watched w).2, Option.some.injEq, List.length_append, List.length_singleton] at count
        rw [← count]
        simp only [Correlation.held, kind]
      rw [reported, Option.elim_some, ih after, held_empty, counted]
      omega

/-- What an empty window counts of a match is still counted after it is handed on again. -/
theorem comesTo_fresh (kind : c.rule.kind ≠ .eventCount)
    (grouped : c.groupOf m.source m.fields = some key) (alone : Alone c key Window.empty live)
    (some_count : 0 < c.held (c.watch Window.empty m).1 (m.time - c.rule.span)) (n : Nat) :
    0 < live.comesTo key m (n + 1) := by
  rw [Correlation.comesTo]
  obtain ⟨below, silent, after⟩ | ⟨hit, reported, _, enough, _⟩ := alone_counting alone grouped
  · have settled : (live.step m).comesTo key m n = (live.step m).heldAt key m := by
      have again := watch_again kind Window.empty m
      refine comesTo_settled (alone_grouped after grouped) ?_ ?_ n
      · rw [after.window, alone_watch after, again]
      · rw [after.window, Correlation.windowHit, alone_watch after, again, after.rule]
        exact below
    rw [silent, Option.elim_none, Nat.zero_add, settled, alone_heldAt after]
    exact some_count
  · have positive := c.rule.atLeast_pos
    rw [reported, Option.elim_some]
    omega

/-- A hit at a match that is handed on again counts it twice. -/
theorem comesTo_twice (kind : c.rule.kind ≠ .eventCount)
    (grouped : c.groupOf m.source m.fields = some key) (alone : Alone c key w live) {count : Nat}
    (counted : (c.watch w m).2 = some count) (enough : c.rule.atLeast ≤ count)
    (more : c.held w (m.time - c.rule.span) < count)
    (some_count : 0 < c.held (c.watch Window.empty m).1 (m.time - c.rule.span)) {n : Nat}
    (twice : 2 ≤ n) : live.heldAt key m + 1 < live.comesTo key m n := by
  obtain ⟨n, rfl⟩ := Nat.exists_eq_add_of_le' twice
  rw [Correlation.comesTo, alone_heldAt alone]
  obtain ⟨below, _⟩ | ⟨hit, reported, count_too, _, after⟩ := alone_counting alone grouped
  · rw [Correlation.windowHit, counted, Option.any_some, decide_eq_true enough] at below
    cases below
  · have again := comesTo_fresh kind grouped after some_count n
    rw [counted, Option.some.injEq] at count_too
    rw [reported, Option.elim_some, ← count_too]
    omega

end Twice

/-! What is handed on twice. -/

/- A match of this rule, in the group and with the value of `x`. -/
def matchOf (c : Correlation) (s : Source) : SourceMatch where
  source := s
  fields := valueEvent c.rule.groupBy "" "x"
  time := 0

def groupOfX (c : Correlation) : List String :=
  c.rule.groupBy.map fun other => if other = "" then "x" else "x"

theorem matchOf_grouped {c : Correlation} {s : Source} (listed : s ∈ c.sources) :
    c.groupOf (matchOf c s).source (matchOf c s).fields = some (groupOfX c) := by
  have filled : "x" ≠ "" := by decide
  exact (if_pos listed).trans (groupKey_valueEvent filled)

section Violations

variable {c : Correlation} {s : Source} {copies : SourceMatch → Nat}

theorem zero_young (c : Correlation) : (0 : Int) - c.rule.span < 0 := by
  have positive := span_pos c.rule
  omega

theorem events_not_once (kind : c.rule.kind = .eventCount) (listed : s ∈ c.sources)
    (twice : 2 ≤ copies (matchOf c s)) : ¬ CountsOnce c copies := by
  intro once
  have most := once.adds (Finmap.singleton (groupOfX c) Window.empty) (groupOfX c) (matchOf c s)
    (matchOf_grouped listed)
  have alone := alone_single c (groupOfX c) Window.empty
  rw [comesTo_events kind (matchOf_grouped listed) alone, alone_heldAt alone, held_empty] at most
  omega

/- The correlation with all its rules matched but the one at this place. -/
def allBut (c : Correlation) (position : Nat) : Window :=
  { Window.empty with perRule := (List.replicate c.sources.length (some 0)).set position none }

theorem temporal_not_once (kind : c.rule.kind = .temporal) (listed : s ∈ c.sources)
    (enough : c.rule.atLeast ≤ c.sources.length) (twice : 2 ≤ copies (matchOf c s)) :
    ¬ CountsOnce c copies := by
  intro once
  have grouped := matchOf_grouped listed
  obtain ⟨position, place⟩ : ∃ position, c.sources.idxOf? s = some position :=
    ⟨_, listed_of_group grouped⟩
  have inside : position < c.sources.length :=
    (List.getElem?_eq_some_iff.mp (idxOf?_listed place)).1
  have most := once.adds (Finmap.singleton (groupOfX c) (allBut c position)) (groupOfX c)
    (matchOf c s) grouped
  have watched : ∀ w : Window, (c.watch w (matchOf c s)).1.perRule =
      (resize w.perRule c.sources.length).set position (some 0) ∧
        (c.watch w (matchOf c s)).2 = some ((c.watch w (matchOf c s)).1.perRule.filter
          (recent (0 - c.rule.span))).length := by
    intro w
    simp only [Correlation.watch, Correlation.observe, kind, matchOf, place, Option.getD_some]
    exact ⟨rfl, rfl⟩
  have young : recent (0 - c.rule.span) (some 0) = true := decide_eq_true (zero_young c)
  have counted : (c.watch (allBut c position) (matchOf c s)).2 = some c.sources.length := by
    have all : (c.watch (allBut c position) (matchOf c s)).1.perRule =
        List.replicate c.sources.length (some 0) := by
      rw [(watched _).1, allBut, resize_of_length (by rw [List.length_set, List.length_replicate]),
        List.set_set, List.set_replicate_self]
    rw [(watched _).2, all, List.filter_eq_self.mpr, List.length_replicate]
    intro t copy
    rw [List.eq_of_mem_replicate copy]
    exact young
  have fewer : c.held (allBut c position) ((matchOf c s).time - c.rule.span) <
      c.sources.length := by
    have size : (allBut c position).perRule.length = c.sources.length := by
      rw [allBut, List.length_set, List.length_replicate]
    have without : none ∈ (allBut c position).perRule :=
      List.mem_set (by rwa [List.length_replicate]) none
    simp only [Correlation.held, kind]
    rw [← size]
    exact List.length_filter_lt_length_iff_exists.mpr ⟨none, without, Bool.false_ne_true⟩
  have some_count :
      0 < c.held (c.watch Window.empty (matchOf c s)).1 ((matchOf c s).time - c.rule.span) := by
    simp only [Correlation.held, kind, (watched _).1]
    exact List.length_pos_of_mem (List.mem_filter.mpr
      ⟨List.mem_set (by rwa [resize_length]) (some 0), young⟩)
  have more := comesTo_twice (by rw [kind]; exact CorrelationKind.noConfusion) grouped
    (alone_single c (groupOfX c) (allBut c position)) counted enough fewer some_count twice
  omega

/-- The first rule of an ordered list, waited for alone. -/
theorem first_not_once (kind : c.rule.kind = .temporalOrdered) (one : c.rule.atLeast = 1)
    (first : c.sources.head? = some s) (twice : 2 ≤ copies (matchOf c s)) :
    ¬ CountsOnce c copies := by
  intro once
  have listed : s ∈ c.sources := List.mem_of_mem_head? first
  have grouped := matchOf_grouped listed
  have most := once.adds (Finmap.singleton (groupOfX c) Window.empty) (groupOfX c) (matchOf c s)
    grouped
  have place : c.sources.idxOf? s = some 0 := by
    obtain ⟨rest, whole⟩ := List.head?_eq_some_iff.mp first
    rw [whole, List.idxOf?_cons, beq_self_eq_true, if_pos rfl]
  have size : 0 < c.sources.length := List.length_pos_of_mem listed
  have watched := watch_ordered kind Window.empty (matchOf c s)
  have kept : (c.watch Window.empty (matchOf c s)).1.perRule =
      clearAfter ((resize Window.empty.perRule c.sources.length).set 0 (some 0)) 0 := by
    rw [watched.1]
    simp only [matchOf, place, Option.getD_some]
    rfl
  have some_rule : 0 < ((c.watch Window.empty (matchOf c s)).1.perRule.takeWhile
      (recent ((matchOf c s).time - c.rule.span))).length := by
    refine le_takeWhile fun i only => ?_
    have zero : i = 0 := by omega
    rw [zero, kept, getD_clearAfter_set _ (by rwa [resize_length]) (le_refl 0), if_pos rfl]
    exact decide_eq_true (zero_young c)
  have more := comesTo_twice (by rw [kind]; exact CorrelationKind.noConfusion) grouped
    (alone_single c (groupOfX c) Window.empty) watched.2 (by omega)
    (by rw [held_empty]; exact some_rule)
    (by simp only [Correlation.held, kind]; exact some_rule) twice
  omega

/- The values before this one. -/
def valuesBefore (k : Nat) : Map String Int :=
  insertAll nthValue (fun _ => 0) (List.range k) ∅

theorem lookup_valuesBefore {k i : Nat} (before : i < k) :
    (valuesBefore k).lookup (nthValue i) = some 0 :=
  lookup_insertAll_some ⟨i, List.mem_range.mpr before, rfl⟩ (fun _ _ _ => rfl) ∅

theorem valuesBefore_only {k : Nat} {v : String} {t : Int}
    (held : (valuesBefore k).lookup v = some t) : ∃ i, i < k ∧ nthValue i = v := by
  by_contra none_there
  have absent : (valuesBefore k).lookup v = none :=
    lookup_insertAll_none (fun i among same => none_there ⟨i, List.mem_range.mp among, same⟩) ∅
  rw [absent] at held
  cases held

theorem size_valuesBefore (k : Nat) : (valuesBefore k).size ≤ k := by
  refine (size_le_card (s := (Finset.range k).image nthValue) fun v t held => ?_).trans ?_
  · obtain ⟨i, inside, its⟩ := valuesBefore_only held
    exact Finset.mem_image.mpr ⟨i, Finset.mem_range.mpr inside, its⟩
  · exact Finset.card_image_le.trans (Finset.card_range k).le

theorem remembered_held {values : Map String Int} {oldest time : Int} (v : String)
    (room : (values.retain fun _ t => decide (oldest < t)).size < maxValues) {u : String} {t : Int}
    (held : values.lookup u = some t) (young : oldest < t) : u ∈ remembered values oldest time v := by
  have kept : u ∈ values.retain fun _ t => decide (oldest < t) :=
    mem_iff_lookup.mpr ⟨t, lookup_retain_eq_some.mpr ⟨held, decide_eq_true young⟩⟩
  rw [remembered, if_pos (Or.inl room)]
  exact Finmap.mem_insert.mpr (Or.inr kept)

theorem remembered_new {values : Map String Int} {oldest time : Int} (v : String)
    (room : (values.retain fun _ t => decide (oldest < t)).size < maxValues) :
    (remembered values oldest time v).lookup v = some time := by
  rw [remembered, if_pos (Or.inl room)]
  exact Finmap.lookup_insert _

theorem values_not_once (kind : c.rule.kind = .valueCount) (small : c.rule.atLeast ≤ maxValues)
    {field : String} (counts : c.rule.valueField = some field) (listed : s ∈ c.sources)
    (twice : ∀ m : SourceMatch, m.source = s → 2 ≤ copies m) : ¬ CountsOnce c copies := by
  intro once
  have positive := c.rule.atLeast_pos
  let m := valueMatch c s field (c.rule.atLeast - 1)
  have there : c.rule.valueOf m.fields = some (nthValue (c.rule.atLeast - 1)) :=
    valueOf_valueMatch counts s _
  let w : Window := { Window.empty with values := valuesBefore (c.rule.atLeast - 1) }
  obtain ⟨key, grouped⟩ : ∃ key, c.groupOf m.source m.fields = some key :=
    ⟨_, (if_pos listed).trans (groupKey_valueEvent (nthValue_ne_empty _))⟩
  have young : m.time - c.rule.span < 0 := zero_young c
  have few : (w.values.retain fun _ t => decide (m.time - c.rule.span < t)).size ≤
      c.rule.atLeast - 1 := (size_retain_le _ _).trans (size_valuesBefore _)
  have counted : c.rule.atLeast ≤
      (remembered w.values (m.time - c.rule.span) m.time (nthValue (c.rule.atLeast - 1))).size := by
    have all : (Finset.range c.rule.atLeast).image nthValue ⊆ (remembered w.values
        (m.time - c.rule.span) m.time (nthValue (c.rule.atLeast - 1))).keys := by
      intro v among
      obtain ⟨i, inside, rfl⟩ := Finset.mem_image.mp among
      rw [Finset.mem_range] at inside
      rw [Finmap.mem_keys]
      by_cases last : i = c.rule.atLeast - 1
      · rw [last]
        exact mem_iff_lookup.mpr ⟨m.time, remembered_new _ (by omega)⟩
      · exact remembered_held _ (by omega) (lookup_valuesBefore (by omega)) young
    have sizes := Finset.card_le_card all
    rwa [Finset.card_image_of_injective _ nthValue_injective, Finset.card_range] at sizes
  have some_count : 0 < c.held (c.watch Window.empty m).1 (m.time - c.rule.span) := by
    have room : (Map.retain (fun _ t => decide (m.time - c.rule.span < t))
        Window.empty.values).size < maxValues := by
      have none_held := size_retain_le (fun _ t => decide (m.time - c.rule.span < t))
        Window.empty.values
      exact none_held.trans_lt (by decide)
    have kept := @remembered_new _ _ m.time (nthValue (c.rule.atLeast - 1)) room
    simp only [Correlation.held, kind, (watch_value kind Window.empty there).1]
    exact Finset.card_pos.mpr ⟨nthValue (c.rule.atLeast - 1), Finmap.mem_keys.mpr
      (mem_iff_lookup.mpr ⟨m.time, lookup_retain_eq_some.mpr ⟨kept, decide_eq_true young⟩⟩)⟩
  have most := once.adds (Finmap.singleton key w) key m grouped
  have more := comesTo_twice (by rw [kind]; exact CorrelationKind.noConfusion) grouped
    (alone_single c key w) (watch_value kind w there).2 counted
    (by simp only [Correlation.held, kind]; omega) some_count (twice m rfl)
  omega

/-! A position that is never filled. -/

/-- No rule is counted at a place where one already listed is listed again. -/
theorem never_at_repeat {i j : Nat} (before : i < j) (first : c.sources[i]? = some s)
    (again : c.sources[j]? = some s) (other : Source) : c.sources.idxOf? other ≠ some j := by
  intro place
  have its := idxOf?_listed place
  rw [again] at its
  cases its
  exact absurd (idxOf?_le place first) (Nat.not_le_of_lt before)

theorem unfilled_watch (kind : c.rule.kind = .temporalOrdered) {j : Nat}
    (never : ∀ other, c.sources.idxOf? other ≠ some j) {w : Window} {m : SourceMatch}
    {key : List String} (grouped : c.groupOf m.source m.fields = some key)
    (unfilled : w.perRule.getD j none = none) :
    (c.watch w m).1.perRule.getD j none = none := by
  have listed := listed_of_group grouped
  have still := getD_resize_of_none unfilled c.sources.length
  rw [(watch_ordered kind w m).1]
  by_cases turn : inOrder (resize w.perRule c.sources.length) (m.time - c.rule.span) m.time
      ((c.sources.idxOf? m.source).getD 0) = true
  · have kept : ((w.seen m.time).countInOrder (m.time - c.rule.span) m.time c.sources.length
        ((c.sources.idxOf? m.source).getD 0)).1.perRule = clearAfter
          ((resize w.perRule c.sources.length).set ((c.sources.idxOf? m.source).getD 0)
            (some m.time)) ((c.sources.idxOf? m.source).getD 0) := if_pos turn
    have differs : (c.sources.idxOf? m.source).getD 0 ≠ j := fun same => never _ (same ▸ listed)
    rw [kept, List.getD_eq_getElem?_getD, getElem?_clearAfter, List.getElem?_set_ne differs]
    rw [List.getD_eq_getElem?_getD] at still
    cases found : (resize w.perRule c.sources.length)[j]? with
    | none => rfl
    | some t =>
      rw [found] at still
      rw [Option.map_some, Option.getD_some, show t = none from still, ite_self]
  · have kept : ((w.seen m.time).countInOrder (m.time - c.rule.span) m.time c.sources.length
        ((c.sources.idxOf? m.source).getD 0)).1.perRule = resize w.perRule c.sources.length :=
      if_neg turn
    rw [kept]
    exact still

/-- While a place waited for is not filled, nothing is reported. -/
theorem unfilled_silent (kind : c.rule.kind = .temporalOrdered) {j : Nat}
    (waited : j < c.rule.atLeast) (never : ∀ other, c.sources.idxOf? other ≠ some j)
    {key : List String} {live : Correlation} {w : Window} (alone : Alone c key w live)
    (unfilled : w.perRule.getD j none = none) {ms : List SourceMatch} (grouped : InGroup c key ms) :
    reportsIn live ms = false := by
  induction ms generalizing live w with
  | nil => rfl
  | cons m ms ih =>
    have here := grouped m List.mem_cons_self
    have still := unfilled_watch kind never here unfilled
    obtain ⟨hit, after⟩ := alone_step alone here
    have quiet : c.windowHit w m = false := by
      rw [Correlation.windowHit, (watch_ordered kind w m).2, Option.any_some,
        decide_eq_false_iff_not]
      intro enough
      have filled := getD_of_lt_takeWhile (waited.trans_le enough)
      rw [still] at filled
      cases filled
    rw [Correlation.windowAfter, quiet, if_neg Bool.false_ne_true] at after
    rw [reportsIn, hit, quiet, ih after still fun n later => grouped n (List.mem_cons_of_mem m later)]
    rfl

/-- All rules in the order listed, and the correlation waits for one of them a second time. -/
theorem ordered_not_once (kind : c.rule.kind = .temporalOrdered) (fresh : c.groups = ∅)
    (enough : c.rule.atLeast ≤ c.sources.length)
    (again : ¬ (c.sources.take c.rule.atLeast).Nodup) : ¬ CountsOnce c copies := by
  intro once
  have positive := c.rule.atLeast_pos
  obtain ⟨i, j, before, waited, s, first, second⟩ : ∃ i j, i < j ∧ j < c.rule.atLeast ∧
      ∃ s, c.sources[i]? = some s ∧ c.sources[j]? = some s := by
    by_contra none_there
    refine again (List.nodup_iff_getElem?_ne_getElem?.mpr fun i j before inside same => ?_)
    rw [List.length_take] at inside
    rw [List.getElem?_take_of_lt (by omega), List.getElem?_take_of_lt (by omega)] at same
    have found := List.getElem?_eq_getElem (show j < c.sources.length by omega)
    exact none_there ⟨i, j, before, by omega, _, same.trans found, found⟩
  let ms := (firstsOf c.sources).map (matchOf c)
  have grouped : InGroup c (groupOfX c) ms := by
    intro m among
    obtain ⟨s, listed, rfl⟩ := List.mem_map.mp among
    exact matchOf_grouped (mem_firstsOf.mp listed)
  have time : ∀ m ∈ ms, m.time = 0 := by
    intro m among
    obtain ⟨s, _, rfl⟩ := List.mem_map.mp among
    rfl
  have some_rule : 0 < (firstsOf c.sources).length := by
    obtain ⟨s, listed⟩ := List.exists_mem_of_length_pos (positive.trans_le enough)
    exact List.length_pos_of_mem (mem_firstsOf.mpr listed)
  have reads : ∀ k, ms[k]? = ((firstsOf c.sources)[k]?).map (matchOf c) := fun k =>
    List.getElem?_map
  have matched : MatchedInOrder c (firstsOf c.sources) ms id := by
    refine ⟨fun k inside => ?_, fun k _ => Nat.lt_succ_self k, ?_, fun k m last _ found is_last => ?_⟩
    · have found := List.getElem?_eq_getElem inside
      exact ⟨matchOf c (firstsOf c.sources)[k], by rw [id, reads, found]; rfl, found⟩
    · rw [List.length_map]
      exact Nat.sub_add_cancel some_rule
    · rw [time m (List.mem_of_getElem? found), time last (List.mem_of_getLast? is_last)]
      exact zero_young c
  have unrepeated : Unrepeated (firstsOf c.sources) ms id := by
    intro k l m inside later found same
    rw [reads] at found
    obtain ⟨s, listed, rfl⟩ := Option.map_eq_some_iff.mp found
    have equal : k = l := (List.getElem?_inj (by omega) (firstsOf_nodup c.sources)).mp
      (same.trans listed.symm)
    simp only [id] at later
    omega
  have ordered : InOrder ([] ++ ms) :=
    List.pairwise_iff_forall_sublist.mpr fun {a b} pair => by
      rw [time a (pair.subset (by simp)), time b (pair.subset (by simp))]
  have reported := once.holds (by rw [kind]; rfl) (groupOfX c) [] ms ordered grouped
    (by rw [AllMatched, if_pos kind]; exact ⟨id, matched, unrepeated⟩)
  have silent := unfilled_silent kind waited (never_at_repeat before first second)
    (alone_fresh (groupOfX c) fresh) rfl (inGroup_repeated copies grouped)
  exact absurd (reported.symm.trans silent) Bool.noConfusion

end Violations

/-! The engine's correlations. -/

/- What is known of a correlation of an engine that was built of what was read. -/
structure Loaded (c : Correlation) (copies : SourceMatch → Nat) : Prop where
  copies_eq : copies = fun m => c.sources.count m.source
  fresh : c.groups = ∅
  enough : Sigma.isTemporal c.rule.kind = true → c.rule.atLeast ≤ c.sources.length
  field : c.rule.kind = .valueCount → ∃ field, c.rule.valueField = some field

theorem loaded_of_built {rules : List SigmaRule} {correlations : List CorrelationRule}
    {absent : Finset String} {j : Nat} {c : Correlation} {document : Sigma.Yaml}
    (there : (withAbsent rules correlations absent).1.correlations[j]? = some c)
    (read : Sigma.parseCorrelation document = .ok c.rule) :
    Loaded c ((withAbsent rules correlations absent).1.copies j) := by
  have resolved := (withAbsent_wellBuilt rules correlations absent).resolved c
    (List.mem_of_getElem? there)
  obtain ⟨kept, _, _, same⟩ := withAbsent_kept rules correlations absent
  have accepted := Sigma.parsed_accepted read
  rw [same] at there ⊢
  rw [build_correlation] at there
  obtain ⟨r, found, rfl⟩ := Option.map_eq_some_iff.mp there
  refine ⟨funext fun m => ?_, rfl, fun temporal => ?_, accepted.field⟩
  · rw [LogRuleEngine.copies, count_counting_build, listedBy, List.getElem?_map, found]
    rfl
  · rw [← resolved.length_eq]
    exact (accepted.temporal temporal).2

theorem counts_once {c : Correlation} {copies : SourceMatch → Nat} (loaded : Loaded c copies)
    (refers : RefersOnce c) : CountsOnce c copies := by
  have some_copy : ∀ m : SourceMatch, m.source ∈ c.sources → c.sources.count m.source ≠ 0 :=
    fun m listed => Nat.ne_of_gt (List.count_pos_iff.mpr listed)
  rw [loaded.copies_eq]
  constructor
  · intro groups key m grouped
    let live : Correlation := { c with groups := groups }
    have its : live.groupOf m.source m.fields = some key := grouped
    obtain once | ⟨kind, large⟩ | ⟨kind, _, alone⟩ := refers
    · rw [List.count_eq_one_of_mem once (listed_of_grouped grouped)]
      exact comesTo_once its
    · exact @comesTo_value live key m kind large its _
    · exact @comesTo_ordered live key m kind alone its
  · intro temporal key before ms ordered grouped all
    have enough := loaded.enough temporal
    cases kind : c.rule.kind with
    | eventCount | valueCount =>
      rw [kind] at temporal
      cases temporal
    | temporal =>
      have once : c.sources.Nodup := by
        obtain once | ⟨other, _⟩ | ⟨other, _⟩ := refers
        · exact once
        · rw [kind] at other
          cases other
        · rw [kind] at other
          cases other
      have one_copy : ∀ more : List SourceMatch, InGroup c key more →
          repeated (fun m => c.sources.count m.source) more = more := by
        intro more in_group
        induction more with
        | nil => rfl
        | cons m more ih =>
          have its := listed_of_grouped (in_group m List.mem_cons_self)
          rw [repeated, List.flatMap_cons, List.count_eq_one_of_mem once its]
          exact congrArg (m :: ·) (ih fun n later => in_group n (List.mem_cons_of_mem m later))
      have each : ∀ s ∈ c.sources, ∃ m ∈ ms, m.source = s ∧
          ∀ last, ms.getLast? = some last → last.time - c.rule.span < m.time := by
        rwa [AllMatched, if_neg (by rw [kind]; exact CorrelationKind.noConfusion)] at all
      rw [one_copy before fun n among => grouped n (List.mem_append_left ms among),
        one_copy ms fun n among => grouped n (List.mem_append_right before among)]
      exact temporal_reported kind once enough loaded.fresh ordered grouped each
    | temporalOrdered =>
      have once : (c.sources.take c.rule.atLeast).Nodup := by
        obtain once | ⟨other, _⟩ | ⟨_, once, _⟩ := refers
        · exact once.sublist (List.take_sublist _ _)
        · rw [kind] at other
          cases other
        · exact once
      rw [AllMatched, if_pos kind] at all
      obtain ⟨place, matched, unrepeated⟩ := all
      exact ordered_reported kind once enough loaded.fresh some_copy ordered grouped matched
        unrepeated

theorem refers_once {c : Correlation} {copies : SourceMatch → Nat} (loaded : Loaded c copies)
    (once : CountsOnce c copies) : RefersOnce c := by
  by_contra refers
  obtain ⟨some_twice, not_value, not_ordered⟩ : ¬ c.sources.Nodup ∧
      ¬ (c.rule.kind = .valueCount ∧ maxValues < c.rule.atLeast) ∧
      ¬ (c.rule.kind = .temporalOrdered ∧ (c.sources.take c.rule.atLeast).Nodup ∧
        (c.rule.atLeast = 1 → ∀ s, c.sources.head? = some s → c.sources.count s = 1)) := by
    rw [RefersOnce] at refers
    tauto
  obtain ⟨s, twice⟩ : ∃ s, 2 ≤ c.sources.count s := by
    by_contra none_twice
    refine some_twice (List.nodup_iff_count_le_one.mpr fun s => ?_)
    by_contra more
    exact none_twice ⟨s, Nat.lt_of_not_le more⟩
  have listed : s ∈ c.sources := List.count_pos_iff.mp (by omega)
  have copied : ∀ m : SourceMatch, m.source = s → 2 ≤ copies m := by
    intro m its
    rw [loaded.copies_eq]
    change 2 ≤ c.sources.count m.source
    rw [its]
    exact twice
  cases kind : c.rule.kind with
  | eventCount => exact events_not_once kind listed (copied (matchOf c s) rfl) once
  | valueCount =>
    obtain ⟨field, counts⟩ := loaded.field kind
    exact values_not_once kind (Nat.le_of_not_lt fun large => not_value ⟨kind, large⟩) counts
      listed copied once
  | temporal =>
    exact temporal_not_once kind listed (loaded.enough (by rw [kind]; rfl))
      (copied (matchOf c s) rfl) once
  | temporalOrdered =>
    have enough := loaded.enough (by rw [kind]; rfl)
    by_cases apart : (c.sources.take c.rule.atLeast).Nodup
    · refine not_ordered ⟨kind, apart, fun one first is_first => ?_⟩
      by_contra several
      have there := List.count_pos_iff.mpr (List.mem_of_mem_head? is_first)
      refine first_not_once kind one is_first ?_ once
      rw [loaded.copies_eq]
      change 2 ≤ c.sources.count first
      omega
    · exact ordered_not_once kind loaded.fresh enough apart once

/-- A correlation of the engine counts each match once exactly when its list refers to no rule
    twice, or where that makes no difference. -/
theorem counts_once_iff {rules : List SigmaRule} {correlations : List CorrelationRule}
    {absent : Finset String} {j : Nat} {c : Correlation} {document : Sigma.Yaml}
    (there : (withAbsent rules correlations absent).1.correlations[j]? = some c)
    (read : Sigma.parseCorrelation document = .ok c.rule) :
    CountsOnce c ((withAbsent rules correlations absent).1.copies j) ↔ RefersOnce c := by
  have loaded := loaded_of_built there read
  exact ⟨refers_once loaded, counts_once loaded⟩

/- A failed login and a login, and the failed login by its id as well. -/
def loginAfterFailure (listed : List String) : Sigma.Yaml :=
  .hash
    [(.string "title", .string "Login after a failure"),
      (.string "correlation", .hash
        [(.string "type", .string "temporal"),
          (.string "rules", .array (listed.map Sigma.Yaml.string)),
          (.string "group-by", .array [.string "user"]),
          (.string "timespan", .string "1m")])]

def loginRule (listed : List String) (some_rule : 0 < listed.length) : CorrelationRule where
  id := "Login after a failure"
  title := "Login after a failure"
  description := ""
  level := .medium
  tags := []
  name := none
  kind := .temporal
  rules := listed
  groupBy := ["user"]
  timespan := 60
  atLeast := listed.length
  valueField := none
  generate := false
  timespan_pos := by decide
  atLeast_pos := some_rule

def loginRules : List SigmaRule :=
  [anyEvent "f1" (some "ssh_failed"), anyEvent "l1" (some "ssh_login")]

theorem built_login (listed : List String) (some_rule : 0 < listed.length)
    (kept : (withAbsent loginRules [loginRule listed some_rule] ∅).1.kept =
      [loginRule listed some_rule]) :
    ∃ c, (withAbsent loginRules [loginRule listed some_rule] ∅).1.correlations[0]? = some c ∧
      c.rule = loginRule listed some_rule ∧
      c.sources = sourcesOf (namesOf loginRules [loginRule listed some_rule])
        (loginRule listed some_rule) := by
  obtain ⟨all, _, _, same⟩ := withAbsent_kept loginRules [loginRule listed some_rule] ∅
  rw [same, LogRuleEngine.kept, build_kept] at kept
  rw [same, build_correlation, kept]
  exact ⟨_, rfl, rfl, rfl⟩

def loginEngine : LogRuleEngine :=
  (withAbsent loginRules [loginRule ["ssh_failed", "ssh_login"] (by decide)] ∅).1

theorem counts_once_two_rules :
    ∃ c, loginEngine.correlations[0]? = some c ∧ c.sources = [.rule 0, .rule 1] ∧
      (CountsOnce c (loginEngine.copies 0) ↔ RefersOnce c) := by
  obtain ⟨c, there, rule, sources⟩ :=
    built_login ["ssh_failed", "ssh_login"] (by decide) (by decide +kernel)
  have read : Sigma.parseCorrelation (loginAfterFailure ["ssh_failed", "ssh_login"]) =
      .ok c.rule := by
    rw [rule]
    rfl
  exact ⟨c, there, sources.trans (by decide), counts_once_iff there read⟩

/-- A rule listed by its name and by its id never fills the second place. -/
theorem counts_not_once :
    ¬ ∀ (rules : List SigmaRule) (correlations : List CorrelationRule) (absent : Finset String)
      (j : Nat) (c : Correlation) (document : Sigma.Yaml),
      (withAbsent rules correlations absent).1.correlations[j]? = some c →
      Sigma.parseCorrelation document = .ok c.rule →
        CountsOnce c ((withAbsent rules correlations absent).1.copies j) := by
  intro claimed
  obtain ⟨c, there, rule, sources⟩ :=
    built_login ["ssh_failed", "f1"] (by decide) (by decide +kernel)
  have read : Sigma.parseCorrelation (loginAfterFailure ["ssh_failed", "f1"]) = .ok c.rule := by
    rw [rule]
    rfl
  have refers := refers_once (loaded_of_built there read) (claimed _ _ _ 0 c _ there read)
  have kind : c.rule.kind = .temporal := by rw [rule]; rfl
  have twice : c.sources = [.rule 0, .rule 0] := sources.trans (by decide)
  obtain once | ⟨other, _⟩ | ⟨other, _⟩ := refers
  · rw [twice] at once
    exact absurd once (by decide)
  · rw [kind] at other
    cases other
  · rw [kind] at other
    cases other

end SentinelAgent.Scanner
