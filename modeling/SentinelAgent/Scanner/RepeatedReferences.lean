import SentinelAgent.Scanner.CountedOnce

/-!
Correlations whose list refers to a rule more than once, by its id, by its name or twice by the
same. The engine hands a match of the rule to the correlation once for each reference, and the
correlation counts all of them at the first of its positions.
-/
namespace SentinelAgent.Scanner

open Maps

/- How often the engine hands a match to the correlation. -/
def LogRuleEngine.copies (e : LogRuleEngine) (j : Nat) (m : SourceMatch) : Nat :=
  (counting e.countedBy m.source).count j

/-- What the correlation is fed when an event is evaluated. -/
theorem fedTo_repeated (e : LogRuleEngine) (ev : LogEvent) (taken : List Source) (j : Nat) :
    (fedTo e.countedBy taken j).map ev.matchOf = repeated (e.copies j) (taken.map ev.matchOf) := by
  rw [fedTo, repeated, List.map_flatMap, List.flatMap_map]
  exact List.flatMap_congr fun s _ => List.map_replicate

/- The distinct rules, in the order in which they are first listed. -/
def firstsOf : List Source → List Source
  | [] => []
  | s :: sources => s :: (firstsOf sources).filter fun other => other ≠ s

theorem mem_firstsOf {s : Source} {sources : List Source} :
    s ∈ firstsOf sources ↔ s ∈ sources := by
  induction sources with
  | nil => rfl
  | cons first sources ih =>
    rw [firstsOf, List.mem_cons, List.mem_cons, List.mem_filter, ih, decide_eq_true_iff]
    tauto

theorem firstsOf_nodup (sources : List Source) : (firstsOf sources).Nodup := by
  induction sources with
  | nil => exact List.nodup_nil
  | cons first sources ih =>
    refine List.nodup_cons.mpr ⟨fun again => ?_, ih.filter _⟩
    exact absurd rfl (of_decide_eq_true (List.mem_filter.mp again).2)

theorem take_filter_of_all {p : Source → Bool} {sources : List Source} {k : Nat}
    (all : ∀ s ∈ sources.take k, p s = true) : (sources.filter p).take k = sources.take k := by
  induction sources generalizing k with
  | nil => rfl
  | cons s sources ih =>
    cases k with
    | zero => rfl
    | succ k =>
      rw [List.take_succ_cons, List.forall_mem_cons] at all
      rw [List.filter_cons_of_pos all.1, List.take_succ_cons, List.take_succ_cons, ih all.2]

theorem take_firstsOf {sources : List Source} {k : Nat} (once : (sources.take k).Nodup) :
    (firstsOf sources).take k = sources.take k := by
  induction sources generalizing k with
  | nil => rfl
  | cons s sources ih =>
    cases k with
    | zero => rfl
    | succ k =>
      obtain ⟨absent, rest⟩ := List.nodup_cons.mp once
      have same := ih rest
      rw [firstsOf, List.take_succ_cons, List.take_succ_cons, take_filter_of_all, same]
      intro other among
      rw [same] at among
      exact decide_eq_true fun equal => absent (equal ▸ among)

/- Each rule the list refers to has matched within one timespan, in the order listed if the
   correlation is ordered. -/
def AllMatched (c : Correlation) (ms : List SourceMatch) : Prop :=
  if c.rule.kind = .temporalOrdered then
    ∃ place, MatchedInOrder c (firstsOf c.sources) ms place ∧
      Unrepeated (firstsOf c.sources) ms place
  else
    ∀ s ∈ c.sources, ∃ m ∈ ms, m.source = s ∧
      ∀ last, ms.getLast? = some last → last.time - c.rule.span < m.time

/- What is asked of a correlation that is handed each match so many times: whatever its groups
   hold, a match adds at most one, and when all its rules have matched it holds. -/
structure CountsOnce (c : Correlation) (copies : SourceMatch → Nat) : Prop where
  adds : ∀ groups key m, c.groupOf m.source m.fields = some key →
    ({ c with groups := groups } : Correlation).comesTo key m (copies m) ≤
      ({ c with groups := groups } : Correlation).heldAt key m + 1
  holds : Sigma.isTemporal c.rule.kind = true → ∀ key before ms, InOrder (before ++ ms) →
    InGroup c key (before ++ ms) → AllMatched c ms →
      reportsIn (Runs.run Correlation.step c (repeated copies before)) (repeated copies ms) = true

/- No rule is referred to twice, or it makes no difference: the values waited for are more than
   are remembered, or the rules waited for are told apart. -/
def RefersOnce (c : Correlation) : Prop :=
  c.sources.Nodup ∨
    (c.rule.kind = .valueCount ∧ maxValues < c.rule.atLeast) ∨
    (c.rule.kind = .temporalOrdered ∧ (c.sources.take c.rule.atLeast).Nodup ∧
      (c.rule.atLeast = 1 → ∀ s, c.sources.head? = some s → c.sources.count s = 1))

section Once

variable {c : Correlation} {key : List String} {m : SourceMatch}

theorem listed_of_grouped (grouped : c.groupOf m.source m.fields = some key) :
    m.source ∈ c.sources :=
  (Option.ite_none_right_eq_some.mp grouped).1

/-- More values than are remembered are never waited for in vain twice. -/
theorem comesTo_value (kind : c.rule.kind = .valueCount) (large : maxValues < c.rule.atLeast)
    (grouped : c.groupOf m.source m.fields = some key) (n : Nat) :
    c.comesTo key m n ≤ c.heldAt key m + 1 := by
  have other_kind : c.rule.kind ≠ .eventCount := by
    rw [kind]
    exact CorrelationKind.noConfusion
  -- A count that reaches the threshold has not grown.
  have no_more : ∀ w count, (c.watch w m).2 = some count → c.rule.atLeast ≤ count →
      count ≤ c.held w (m.time - c.rule.span) := by
    intro w count counted enough
    cases there : c.rule.valueOf m.fields with
    | none =>
      rw [watch_valueless kind w there] at counted
      cases counted
    | some v =>
      rw [(watch_value kind w there).2, Option.some.injEq] at counted
      rw [← counted] at enough ⊢
      simp only [Correlation.held, kind]
      unfold remembered at enough ⊢
      dsimp only at enough ⊢
      split
      · rename_i room
        rw [if_pos room] at enough
        rcases room with below | among
        · have one_more := size_insert_le
            (w.values.retain fun _ t => decide (m.time - c.rule.span < t)) v m.time
          omega
        · exact size_insert_held among m.time
      · exact le_refl _
  refine comesTo_le other_kind grouped (fun count live n counted enough rule sources empty => ?_) n
  have most := no_more _ count counted enough
  have few : live.comesTo key m n ≤ live.heldAt key m + 1 := by
    refine comesTo_le (by rwa [rule]) (by rwa [Correlation.groupOf, rule, sources])
      (fun other again _ counted enough _ _ _ => ?_) n
    have bound := (held_watch_le live (live.window key) m).2 other counted
    rw [empty, held_empty] at bound
    rw [rule] at enough
    have many : 1 < maxValues := by decide
    omega
  have none_held : live.heldAt key m = 0 := by rw [Correlation.heldAt, empty, held_empty]
  rw [Correlation.heldAt] at *
  omega

theorem watch_ordered (kind : c.rule.kind = .temporalOrdered) (w : Window) (m : SourceMatch) :
    (c.watch w m).1.perRule = ((w.seen m.time).countInOrder (m.time - c.rule.span) m.time
        c.sources.length ((c.sources.idxOf? m.source).getD 0)).1.perRule ∧
      (c.watch w m).2 = some
        ((c.watch w m).1.perRule.takeWhile (recent (m.time - c.rule.span))).length := by
  simp only [Correlation.watch, Correlation.observe, kind]
  exact ⟨rfl, rfl⟩

/- A window in which no rule has matched. -/
def Blank (w : Window) : Prop := ∀ i, w.perRule.getD i none = none

theorem blank_empty : Blank Window.empty := fun _ => rfl

theorem getD_resize_of_none {perRule : List (Option Int)} {i : Nat}
    (absent : perRule.getD i none = none) (listed : Nat) :
    (resize perRule listed).getD i none = none := by
  by_cases inside : i < listed
  · rw [getD_resize perRule inside, absent]
  · rw [List.getD_eq_getElem?_getD, List.getElem?_eq_none (by rw [resize_length]; omega)]
    rfl

/-- Only the first rule of the list can match in an empty window. -/
theorem blank_watch (kind : c.rule.kind = .temporalOrdered) {w : Window} (blank : Blank w)
    (later : (c.sources.idxOf? m.source).getD 0 ≠ 0) :
    Blank (c.watch w m).1 ∧ (c.watch w m).2 = some 0 := by
  obtain ⟨i, next⟩ := Nat.exists_eq_succ_of_ne_zero later
  have watched := watch_ordered kind w m
  have not_turn : ¬ inOrder (resize w.perRule c.sources.length) (m.time - c.rule.span) m.time
      ((c.sources.idxOf? m.source).getD 0) = true := by
    rw [next, inOrder, Nat.succ_eq_add_one, Nat.add_sub_cancel,
      getD_resize_of_none (blank i) c.sources.length]
    exact Bool.false_ne_true
  have kept : (c.watch w m).1.perRule = resize w.perRule c.sources.length :=
    watched.1.trans (if_neg not_turn)
  have still : Blank (c.watch w m).1 := by
    intro k
    rw [kept]
    exact getD_resize_of_none (blank k) c.sources.length
  refine ⟨still, ?_⟩
  rw [watched.2]
  by_contra some_rule
  have inside : 0 < ((c.watch w m).1.perRule.takeWhile (recent (m.time - c.rule.span))).length :=
    Nat.pos_of_ne_zero fun none_there => some_rule (congrArg some none_there)
  have first := getD_of_lt_takeWhile inside
  rw [still 0] at first
  cases first

theorem held_blank (kind : c.rule.kind = .temporalOrdered) {w : Window} (blank : Blank w)
    (oldest : Int) : c.held w oldest = 0 := by
  simp only [Correlation.held, kind]
  by_contra some_rule
  have first := getD_of_lt_takeWhile (Nat.pos_of_ne_zero some_rule)
  rw [blank 0] at first
  cases first

theorem comesTo_blank (kind : c.rule.kind = .temporalOrdered)
    (grouped : c.groupOf m.source m.fields = some key)
    (later : (c.sources.idxOf? m.source).getD 0 ≠ 0) (blank : Blank (c.window key)) (n : Nat) :
    c.comesTo key m n = 0 := by
  induction n generalizing c with
  | zero => exact held_blank kind blank _
  | succ n ih =>
    have next : Blank ((c.step m).window key) → (c.step m).comesTo key m n = 0 := fun still =>
      ih (by rwa [step_rule]) (by rwa [step_groupOf]) (by rwa [step_sources]) still
    obtain ⟨still, none_counted⟩ := blank_watch (m := m) kind blank later
    rw [Correlation.comesTo]
    cases counting_cases grouped with
    | refused _ silent after =>
      rw [silent, Option.elim_none, next (after ▸ blank)]
    | quiet _ silent after =>
      rw [silent, Option.elim_none, next (after ▸ still)]
    | loud hit _ count enough =>
      rw [none_counted] at count
      have positive := c.rule.atLeast_pos
      have zero := Option.some.inj count
      omega

/-- The first rule of an ordered list is never more than one. -/
theorem first_counts_one (kind : c.rule.kind = .temporalOrdered)
    (first : (c.sources.idxOf? m.source).getD 0 = 0) {w : Window} {count : Nat}
    (counted : (c.watch w m).2 = some count) : count ≤ 1 := by
  have watched := watch_ordered kind w m
  rw [watched.2, Option.some.injEq] at counted
  rw [← counted]
  by_contra more
  have second := getD_of_lt_takeWhile (Nat.lt_of_not_le more)
  have kept : (c.watch w m).1.perRule =
      clearAfter ((resize w.perRule c.sources.length).set 0 (some m.time)) 0 := by
    rw [watched.1, first]
    rfl
  rw [kept, List.getD_eq_getElem?_getD, getElem?_clearAfter] at second
  cases found : ((resize w.perRule c.sources.length).set 0 (some m.time))[1]? with
  | none =>
    rw [found] at second
    cases second
  | some t =>
    rw [found] at second
    cases second

theorem comesTo_ordered (kind : c.rule.kind = .temporalOrdered)
    (alone : c.rule.atLeast = 1 → ∀ s, c.sources.head? = some s → c.sources.count s = 1)
    (grouped : c.groupOf m.source m.fields = some key) :
    c.comesTo key m (c.sources.count m.source) ≤ c.heldAt key m + 1 := by
  have other_kind : c.rule.kind ≠ .eventCount := by
    rw [kind]
    exact CorrelationKind.noConfusion
  by_cases once : c.sources.count m.source = 1
  · rw [once]
    exact comesTo_once grouped
  refine comesTo_le other_kind grouped (fun count live n counted enough rule sources empty => ?_) _
  by_cases first : (c.sources.idxOf? m.source).getD 0 = 0
  · have one := first_counts_one kind first counted
    have positive := c.rule.atLeast_pos
    have its := idxOf?_listed (listed_of_group grouped)
    rw [first, ← List.head?_eq_getElem?] at its
    exact absurd (alone (by omega) m.source its) once
  · have nothing : live.comesTo key m n = 0 :=
      comesTo_blank (by rwa [rule]) (by rwa [Correlation.groupOf, rule, sources])
        (by rwa [sources]) (empty ▸ blank_empty) n
    have bound := (held_watch_le c (c.window key) m).2 count counted
    rw [nothing]
    exact bound

end Once

/-! Holding. -/

theorem sinceReport_append {c : Correlation} {before ms : List SourceMatch}
    (quiet : reportsIn (Runs.run Correlation.step c before) ms = false) :
    sinceReport c (before ++ ms) = sinceReport c before ++ ms := by
  induction ms using List.reverseRecOn with
  | nil => rw [List.append_nil, List.append_nil]
  | append_singleton ms m ih =>
    rw [reportsIn_append, Bool.or_eq_false_iff, ← Runs.run_append] at quiet
    have silent := (Bool.or_eq_false_iff.mp quiet.2).1
    have earlier := ih quiet.1
    unfold sinceReport at earlier ⊢
    rw [← List.append_assoc, followed_append, Followed.step, followed_live, silent, earlier,
      List.append_assoc]
    rfl

/- Each rule that has matched is counted from its last match on. -/
def Slots (c : Correlation) (w : Window) (since : List SourceMatch) : Prop :=
  ∀ n ∈ since, ∀ position, c.sources.idxOf? n.source = some position →
    ∃ t, w.perRule.getD position none = some t ∧ n.time ≤ t

theorem getD_set {perRule : List (Option Int)} {i position : Nat} {t : Option Int}
    (inside : i < perRule.length) :
    (perRule.set position t).getD i none = if position = i then t else perRule.getD i none := by
  rw [List.getD_eq_getElem?_getD, List.getElem?_set, List.getD_eq_getElem?_getD]
  split
  · rename_i same
    rw [if_pos (same ▸ inside)]
    rfl
  · rfl

theorem slots_watch {c : Correlation} (kind : c.rule.kind = .temporal) {w : Window}
    {since : List SourceMatch} (slots : Slots c w since) {m : SourceMatch} {key : List String}
    (grouped : c.groupOf m.source m.fields = some key) (ordered : InOrder (since ++ [m])) :
    Slots c (c.watch w m).1 (since ++ [m]) := by
  have watched : (c.watch w m).1.perRule = (resize w.perRule c.sources.length).set
      ((c.sources.idxOf? m.source).getD 0) (some m.time) := by
    simp only [Correlation.watch, Correlation.observe, kind]
    rfl
  have listed := listed_of_group grouped
  intro n among position its
  have inside : position < c.sources.length :=
    (List.getElem?_eq_some_iff.mp (idxOf?_listed its)).1
  have before : n.time ≤ m.time := by
    rcases List.mem_append.mp among with old | new
    · exact (inOrder_append.mp ordered).2 n old
    · exact (congrArg SourceMatch.time (List.mem_singleton.mp new)).le
  rw [watched, getD_set (by rwa [resize_length]), getD_resize w.perRule inside]
  split
  · exact ⟨m.time, rfl, before⟩
  · rename_i differs
    rcases List.mem_append.mp among with old | new
    · exact slots n old position its
    · rw [List.mem_singleton.mp new] at its
      rw [its] at differs
      exact absurd rfl differs

/-- Rules that have all matched within the timespan are reported. -/
theorem temporal_reported {c : Correlation} (kind : c.rule.kind = .temporal)
    (once : c.sources.Nodup) (enough : c.rule.atLeast ≤ c.sources.length) (fresh : c.groups = ∅)
    {key : List String} {before ms : List SourceMatch} (ordered : InOrder (before ++ ms))
    (grouped : InGroup c key (before ++ ms))
    (all : ∀ s ∈ c.sources, ∃ m ∈ ms, m.source = s ∧
      ∀ last, ms.getLast? = some last → last.time - c.rule.span < m.time) :
    reportsIn (Runs.run Correlation.step c before) ms = true := by
  by_contra silent
  have quiet := Bool.eq_false_iff.mpr silent
  have positive := c.rule.atLeast_pos
  obtain ⟨s, some_source⟩ : ∃ s, s ∈ c.sources :=
    List.exists_mem_of_length_pos (positive.trans_le enough)
  obtain ⟨first, m, split⟩ : ∃ first m, ms = first ++ [m] := by
    obtain ⟨n, some_match, _⟩ := all s some_source
    have filled : ms ≠ [] := List.ne_nil_of_mem some_match
    exact ⟨ms.dropLast, ms.getLast filled, (List.dropLast_append_getLast filled).symm⟩
  subst split
  rw [reportsIn_append, Bool.or_eq_false_iff, ← Runs.run_append] at quiet
  rw [← List.append_assoc] at ordered grouped
  obtain ⟨w, _, slots, order, hit, _⟩ := run_split (I := Slots c)
    (fun n among => by cases among)
    (fun w since m slots grouped order _ => slots_watch kind slots grouped order)
    fresh ordered grouped
  rw [sinceReport_append quiet.1] at slots order
  have its_group := grouped m (List.mem_append_right _ (List.mem_singleton_self m))
  have now := slots_watch kind slots its_group order
  have watched : (c.watch w m).1.perRule = (resize w.perRule c.sources.length).set
        ((c.sources.idxOf? m.source).getD 0) (some m.time) ∧
      (c.watch w m).2 = some
        ((c.watch w m).1.perRule.filter (recent (m.time - c.rule.span))).length := by
    simp only [Correlation.watch, Correlation.observe, kind]
    exact ⟨rfl, rfl⟩
  have size : (c.watch w m).1.perRule.length = c.sources.length := by
    rw [watched.1, List.length_set, resize_length]
  have each : ∀ t ∈ (c.watch w m).1.perRule, recent (m.time - c.rule.span) t = true := by
    intro t among
    obtain ⟨i, inside, held⟩ := List.mem_iff_getElem.mp among
    have listed : i < c.sources.length := by omega
    obtain ⟨n, matched, source, young⟩ := all c.sources[i] (List.getElem_mem listed)
    have its : c.sources.idxOf? n.source = some i := by
      rw [source, List.idxOf?_eq_some_iff]
      exact ⟨listed, rfl, fun j earlier same =>
        absurd ((List.Nodup.getElem_inj_iff once).mp same) (Nat.ne_of_lt earlier)⟩
    obtain ⟨u, kept, later⟩ := now n (by
      rw [List.append_assoc]
      exact List.mem_append_right _ matched) i its
    have close := young m (List.getLast?_concat)
    rw [List.getD_eq_getElem?_getD, List.getElem?_eq_getElem inside, held, Option.getD_some] at kept
    rw [kept]
    exact decide_eq_true (by omega)
  have loud : c.windowHit w m = true := by
    rw [Correlation.windowHit, watched.2, List.filter_eq_self.mpr each, size]
    exact decide_eq_true enough
  rw [← hit] at loud
  rw [reportsIn, loud] at quiet
  cases quiet.2

/-- The rules waited for are among the first listed, and they are told apart. -/
theorem ordered_reported {c : Correlation} (kind : c.rule.kind = .temporalOrdered)
    (once : (c.sources.take c.rule.atLeast).Nodup) (enough : c.rule.atLeast ≤ c.sources.length)
    (fresh : c.groups = ∅) {copies : SourceMatch → Nat}
    (some_copy : ∀ m, m.source ∈ c.sources → copies m ≠ 0) {key : List String}
    {before ms : List SourceMatch} (ordered : InOrder (before ++ ms))
    (grouped : InGroup c key (before ++ ms)) {place : Nat → Nat}
    (matched : MatchedInOrder c (firstsOf c.sources) ms place)
    (unrepeated : Unrepeated (firstsOf c.sources) ms place) :
    reportsIn (Runs.run Correlation.step c (repeated copies before)) (repeated copies ms) = true := by
  have positive := c.rule.atLeast_pos
  have same := take_firstsOf once
  have size : (c.sources.take c.rule.atLeast).length = c.rule.atLeast := by
    rw [List.length_take, Nat.min_eq_left enough]
  have within : c.rule.atLeast ≤ (firstsOf c.sources).length := by
    rw [← size, ← same]
    exact List.length_take_le' _ _
  have reads : ∀ i, i < c.rule.atLeast →
      (c.sources.take c.rule.atLeast)[i]? = (firstsOf c.sources)[i]? := by
    intro i inside
    rw [← same, List.getElem?_take_of_lt inside]
  -- The run up to the match of the last rule waited for.
  let ends := place (c.rule.atLeast - 1) + 1
  obtain ⟨last_match, last_found, _⟩ := matched.source (c.rule.atLeast - 1) (by omega)
  have ends_inside : ends ≤ ms.length := (List.getElem?_eq_some_iff.mp last_found).1
  have placed : ∀ i, i < c.rule.atLeast → place i < ends := by
    intro i inside
    have before_last := matched.apart (show i ≤ c.rule.atLeast - 1 by omega) (by omega)
    omega
  have in_order := (List.pairwise_append.mp ordered).2.1
  have whole : ms.take ends ++ ms.drop ends = ms := List.take_append_drop ends ms
  have part : MatchedInOrder c (c.sources.take c.rule.atLeast) (ms.take ends) place := by
    refine ⟨fun i inside => ?_, fun i inside => ?_, ?_, fun i m last inside found is_last => ?_⟩
    · rw [size] at inside
      rw [List.getElem?_take_of_lt (placed i inside), reads i inside]
      exact matched.source i (by omega)
    · rw [size] at inside
      exact matched.increasing i (by omega)
    · rw [size, List.length_take, Nat.min_eq_left ends_inside]
    · rw [size] at inside
      rw [List.getElem?_take_of_lt (placed i inside)] at found
      have last_there : ms[ends - 1]? = some last := by
        rw [List.getLast?_eq_getElem?, List.length_take, Nat.min_eq_left ends_inside,
          List.getElem?_take_of_lt (by omega)] at is_last
        exact is_last
      exact still_young matched in_order last_there (by omega) found
  have still : Unrepeated (c.sources.take c.rule.atLeast) (ms.take ends) place := by
    intro i j m inside later found
    rw [size] at inside
    rw [reads i (by omega)]
    rw [List.getElem?_take] at found
    split at found
    · exact unrepeated i j m (by omega) later found
    · cases found
  rw [← whole] at ordered grouped
  rw [← List.append_assoc] at ordered grouped
  have first_order := (List.pairwise_append.mp ordered).1
  have first_group : InGroup c key (before ++ ms.take ends) := fun n among =>
    grouped n (List.mem_append_left _ among)
  have reported := reported_in_turn kind ⟨List.take_prefix _ _, once⟩ (by rw [size]) fresh
    first_order first_group
    (fun m among => some_copy m (listed_of_grouped (first_group m (List.mem_append_right _ among))))
    part still
  rw [← whole, repeated_append, reportsIn_append, reported, Bool.true_or]

end SentinelAgent.Scanner
