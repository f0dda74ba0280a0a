import SentinelAgent.Scanner.ValueCounts

/-!
Which correlations of distinct values fire when they should: those that wait for no more values
than a group remembers, and do not count the values of a field that tells the groups apart.
-/
namespace SentinelAgent.Scanner

open Maps

/- What is asked of a correlation of distinct values, over runs in one group. -/
structure FiresWhenItShould (c : Correlation) : Prop where
  can_fire : ∃ key ms m, InOrder (ms ++ [m]) ∧ InGroup c key (ms ++ [m]) ∧
    ((Runs.run Correlation.step c ms).reports m).isSome = true
  when_due : ∀ key ms m, InOrder (ms ++ [m]) → InGroup c key (ms ++ [m]) →
    (((Runs.run Correlation.step c ms).reports m).isSome = true ↔
      c.rule.atLeast ≤ (c.distinctValues m.time (sinceReport c ms ++ [m])).card)
  remembers_longer : ∀ key ms m, InOrder (ms ++ [m]) → InGroup c key (ms ++ [m]) →
    (Runs.run Correlation.step c ms).reports m = none →
      ∀ v t, ((Runs.run Correlation.step c ms).window key).values.lookup v = some t →
        m.time - c.rule.span < t →
          ∃ t', ((Runs.run Correlation.step c (ms ++ [m])).window key).values.lookup v = some t' ∧
            t ≤ t' ∧ (c.rule.valueOf m.fields = some v → t' = m.time)

section Runs

variable {c : Correlation} {key : List String} {ms : List SourceMatch} {m : SourceMatch}

theorem fires_when_due (kind : c.rule.kind = .valueCount) (fresh : c.groups = ∅)
    (small : c.rule.atLeast ≤ maxValues) (inOrder : InOrder (ms ++ [m]))
    (grouped : InGroup c key (ms ++ [m])) :
    ((Runs.run Correlation.step c ms).reports m).isSome = true ↔
      c.rule.atLeast ≤ (c.distinctValues m.time (sinceReport c ms ++ [m])).card := by
  obtain ⟨w, _, all, order, hit, _⟩ := run_split (I := AllSeen c) (allSeen_empty c)
    (fun w since m all _ order quiet => allSeen_watch kind small all order quiet)
    fresh inOrder grouped
  rw [hit]
  exact windowHit_iff_due kind small all order

theorem remembers_longer (kind : c.rule.kind = .valueCount) (fresh : c.groups = ∅)
    (inOrder : InOrder (ms ++ [m])) (grouped : InGroup c key (ms ++ [m]))
    (quiet : (Runs.run Correlation.step c ms).reports m = none) {v : String} {t : Int}
    (held : ((Runs.run Correlation.step c ms).window key).values.lookup v = some t)
    (young : m.time - c.rule.span < t) :
    ∃ t', ((Runs.run Correlation.step c (ms ++ [m])).window key).values.lookup v = some t' ∧
      t ≤ t' ∧ (c.rule.valueOf m.fields = some v → t' = m.time) := by
  obtain ⟨w, alone, seen, order, hit, after⟩ := run_split (I := Seen c) (seen_empty c)
    (fun w since m seen _ _ _ => seen_watch kind seen m) fresh inOrder grouped
  rw [quiet] at hit
  rw [alone.window] at held
  rw [after.window, Correlation.windowAfter, ← hit, if_neg (by simp),
    lookup_watch_kept kind held young]
  refine ⟨_, rfl, ?_, fun there => if_pos there⟩
  obtain ⟨n, among, _, time⟩ := seen v t held
  have before := (inOrder_append.mp order).2 n among
  split <;> omega

/-! What never fires. -/

theorem remembered_le {values : Map String Int} (few : values.size ≤ maxValues)
    (oldest time : Int) (v : String) : (remembered values oldest time v).size ≤ maxValues := by
  have fewer := size_retain_le (fun _ t => decide (oldest < t)) values
  unfold remembered
  dsimp only
  split
  · rename_i room
    rcases room with below | held
    · have one_more := size_insert_le (values.retain fun _ t => decide (oldest < t)) v time
      omega
    · exact (size_insert_held held time).trans (fewer.trans few)
  · exact fewer.trans few

theorem windowHit_value (kind : c.rule.kind = .valueCount) {w : Window}
    (loud : c.windowHit w m = true) :
    ∃ v, c.rule.valueOf m.fields = some v ∧ c.rule.atLeast ≤ (c.watch w m).1.values.size := by
  cases there : c.rule.valueOf m.fields with
  | none =>
    rw [Correlation.windowHit, watch_valueless kind w there] at loud
    cases loud
  | some v =>
    rw [Correlation.windowHit, (watch_value kind w there).2, Option.any_some,
      decide_eq_true_iff] at loud
    rw [(watch_value kind w there).1]
    exact ⟨v, rfl, loud⟩

/-- A threshold above what is remembered is never reached. -/
theorem never_reached (kind : c.rule.kind = .valueCount) (fresh : c.groups = ∅)
    (large : maxValues < c.rule.atLeast) (inOrder : InOrder (ms ++ [m]))
    (grouped : InGroup c key (ms ++ [m])) :
    ((Runs.run Correlation.step c ms).reports m).isSome = false := by
  have watched : ∀ (w : Window) (m : SourceMatch), w.values.size ≤ maxValues →
      (c.watch w m).1.values.size ≤ maxValues := by
    intro w m few
    cases there : c.rule.valueOf m.fields with
    | none =>
      rw [watch_valueless kind w there]
      exact few
    | some v =>
      rw [(watch_value kind w there).1]
      exact remembered_le few _ _ v
  obtain ⟨w, _, few, _, hit, _⟩ :=
    run_split (I := fun w _ => w.values.size ≤ maxValues) (Nat.zero_le maxValues)
      (fun w _ m few _ _ _ => watched w m few) fresh inOrder grouped
  rw [hit]
  by_contra loud
  obtain ⟨_, _, reached⟩ := windowHit_value kind (Bool.eq_true_of_not_eq_false loud)
  have bound := watched w m few
  omega

theorem mapM_agree {f g : String → Option String} {fields key : List String}
    (first : fields.mapM f = some key) (second : fields.mapM g = some key) {field : String}
    (listed : field ∈ fields) : f field = g field := by
  induction fields generalizing key with
  | nil => cases listed
  | cons head fields ih =>
    simp only [List.mapM_cons, Option.bind_eq_bind, Option.bind_eq_some_iff, Option.pure_def,
      Option.some.injEq] at first second
    obtain ⟨a, head_first, rest, fields_first, rfl⟩ := first
    obtain ⟨b, head_second, others, fields_second, same⟩ := second
    obtain ⟨rfl, rfl⟩ := List.cons.inj same
    rcases List.mem_cons.mp listed with rfl | later
    · rw [head_first, head_second]
    · exact ih fields_first fields_second later

/-- The matches of one group have one value of a field that tells the groups apart. -/
theorem valueOf_group {field : String} (counts : c.rule.valueField = some field)
    (grouping : field ∈ c.rule.groupBy) {n : SourceMatch}
    (first : c.groupOf m.source m.fields = some key)
    (second : c.groupOf n.source n.fields = some key) :
    c.rule.valueOf m.fields = c.rule.valueOf n.fields := by
  unfold Correlation.groupOf at first second
  obtain ⟨_, first⟩ := Option.ite_none_right_eq_some.mp first
  obtain ⟨_, second⟩ := Option.ite_none_right_eq_some.mp second
  simp only [CorrelationRule.valueOf, counts, Option.bind_some]
  exact mapM_agree first second grouping

theorem one_value_never_enough (kind : c.rule.kind = .valueCount) (fresh : c.groups = ∅)
    {field : String} (counts : c.rule.valueField = some field)
    (grouping : field ∈ c.rule.groupBy) (several : 1 < c.rule.atLeast)
    (inOrder : InOrder (ms ++ [m])) (grouped : InGroup c key (ms ++ [m])) :
    ((Runs.run Correlation.step c ms).reports m).isSome = false := by
  obtain ⟨w, _, seen, _, hit, _⟩ := run_split (I := Seen c) (seen_empty c)
    (fun w since m seen _ _ _ => seen_watch kind seen m) fresh inOrder grouped
  rw [hit]
  by_contra loud
  obtain ⟨v, there, reached⟩ := windowHit_value kind (Bool.eq_true_of_not_eq_false loud)
  have here := grouped m (List.mem_append_right ms (List.mem_singleton_self m))
  have one : (c.watch w m).1.values.size ≤ ({v} : Finset String).card := by
    refine size_le_card fun u t held => Finset.mem_singleton.mpr ?_
    obtain ⟨n, among, value, _⟩ := seen_watch kind seen m u t held
    have its : c.groupOf n.source n.fields = some key := by
      rcases List.mem_append.mp among with old | new
      · exact grouped n (List.mem_append_left [m] ((sinceReport_suffix c ms).subset old))
      · rw [List.mem_singleton.mp new]
        exact here
    rw [valueOf_group counts grouping its here, there] at value
    exact (Option.some.inj value).symm
  rw [Finset.card_singleton] at one
  omega

end Runs

/-! A run that fires. -/

/- The first of so many letters, one more each time. -/
def nthValue (i : Nat) : String := String.ofList (List.replicate (i + 1) 'a')

theorem nthValue_injective : Function.Injective nthValue := by
  intro i j same
  have lengths := congrArg (fun text => text.toList.length) same
  simpa [nthValue] using lengths

theorem nthValue_ne_empty (i : Nat) : nthValue i ≠ "" := by
  intro empty
  have lengths := congrArg (fun text => text.toList.length) empty
  simp [nthValue] at lengths

/- An event with this value of one field, and `x` in the fields that tell the groups apart. -/
def valueEvent (groupBy : List String) (field value : String) : SigmaEvent :=
  Finmap.insert field value (insertAll id (fun _ => "x") groupBy ∅)

theorem lookup_valueEvent {groupBy : List String} {field value other : String}
    (grouping : other ∈ groupBy) :
    (valueEvent groupBy field value).lookup other = some (if other = field then value else "x") := by
  unfold valueEvent
  rw [lookup_insert_eq]
  split
  · rfl
  · exact lookup_insertAll_some ⟨other, grouping, rfl⟩ (fun _ _ _ => rfl) ∅

theorem groupKey_valueEvent {groupBy : List String} {field value : String} (filled : value ≠ "") :
    groupKey groupBy (valueEvent groupBy field value) =
      some (groupBy.map fun other => if other = field then value else "x") := by
  have each : ∀ other ∈ groupBy,
      ((valueEvent groupBy field value).lookup other).filter (fun value => value ≠ "") =
        some (if other = field then value else "x") := by
    intro other grouping
    rw [lookup_valueEvent grouping, Option.filter_some]
    have some_text : (if other = field then value else "x") ≠ "" := by
      split
      · exact filled
      · decide
    exact if_pos (decide_eq_true some_text)
  have all : ∀ names : List String, (∀ other ∈ names, other ∈ groupBy) →
      names.mapM (fun other =>
        ((valueEvent groupBy field value).lookup other).filter fun value => value ≠ "") =
          some (names.map fun other => if other = field then value else "x") := by
    intro names within
    induction names with
    | nil => rfl
    | cons other names ih =>
      rw [List.mapM_cons, each other (within other List.mem_cons_self),
        ih fun name among => within name (List.mem_cons_of_mem other among)]
      rfl
  exact all groupBy fun _ listed => listed

def valueMatch (c : Correlation) (source : Source) (field : String) (i : Nat) : SourceMatch where
  source := source
  fields := valueEvent c.rule.groupBy field (nthValue i)
  time := 0

theorem valueOf_valueMatch {c : Correlation} {field : String}
    (counts : c.rule.valueField = some field) (source : Source) (i : Nat) :
    c.rule.valueOf (valueMatch c source field i).fields = some (nthValue i) := by
  simp only [CorrelationRule.valueOf, counts, Option.bind_some, valueMatch, valueEvent,
    Finmap.lookup_insert, Option.filter_some]
  exact if_pos (decide_eq_true (nthValue_ne_empty i))

theorem sinceReport_of_silent {c : Correlation} {ms : List SourceMatch}
    (silent : ∀ before m, before ++ [m] <+: ms →
      ((Runs.run Correlation.step c before).reports m).isSome = false) :
    sinceReport c ms = ms := by
  induction ms using List.reverseRecOn with
  | nil => rfl
  | append_singleton ms m ih =>
    have before := ih fun earlier n first => silent earlier n
      (first.trans (List.prefix_append ms [m]))
    unfold sinceReport at before
    rw [sinceReport, followed_append, Followed.step, followed_live, before,
      silent ms m (List.prefix_refl _)]
    rfl

/-- As many values as the rule waits for, one after the other. -/
theorem fires_on_enough {c : Correlation} (kind : c.rule.kind = .valueCount)
    (fresh : c.groups = ∅) (listed : c.sources ≠ []) {field : String}
    (counts : c.rule.valueField = some field) (small : c.rule.atLeast ≤ maxValues)
    (apart : c.rule.atLeast = 1 ∨ field ∉ c.rule.groupBy) :
    ∃ key ms m, InOrder (ms ++ [m]) ∧ InGroup c key (ms ++ [m]) ∧
      ((Runs.run Correlation.step c ms).reports m).isSome = true := by
  obtain ⟨source, among⟩ := List.exists_mem_of_ne_nil _ listed
  let matchAt := valueMatch c source field
  have group : ∀ i, i < c.rule.atLeast →
      c.groupOf (matchAt i).source (matchAt i).fields =
        some (c.rule.groupBy.map fun other => if other = field then nthValue 0 else "x") := by
    intro i inside
    have its : c.groupOf (matchAt i).source (matchAt i).fields =
        some (c.rule.groupBy.map fun other => if other = field then nthValue i else "x") :=
      (if_pos among).trans (groupKey_valueEvent (nthValue_ne_empty i))
    rw [its]
    rcases apart with one | absent
    · have only : i = 0 := by omega
      rw [only]
    · congr 1
      refine List.map_congr_left fun other grouping => ?_
      have differs : other ≠ field := fun same => absent (same ▸ grouping)
      rw [if_neg differs, if_neg differs]
  have positive := c.rule.atLeast_pos
  have whole : (List.range (c.rule.atLeast - 1)).map matchAt ++ [matchAt (c.rule.atLeast - 1)] =
      (List.range c.rule.atLeast).map matchAt := by
    have size : c.rule.atLeast = c.rule.atLeast - 1 + 1 := by omega
    rw [size, List.range_succ, List.map_append, List.map_singleton, ← size]
  have inOrder : InOrder ((List.range c.rule.atLeast).map matchAt) :=
    List.pairwise_map.mpr (List.pairwise_of_forall fun _ _ => le_refl (0 : Int))
  have grouped : InGroup c (c.rule.groupBy.map fun other => if other = field then nthValue 0 else "x")
      ((List.range c.rule.atLeast).map matchAt) := by
    intro m among
    obtain ⟨i, inside, rfl⟩ := List.mem_map.mp among
    exact group i (List.mem_range.mp inside)
  by_contra silent
  have quiet : ∀ before m, before ++ [m] <+: (List.range c.rule.atLeast).map matchAt →
      ((Runs.run Correlation.step c before).reports m).isSome = false := by
    intro before m first
    by_contra loud
    exact silent ⟨_, before, m, inOrder.sublist first.sublist,
      fun n member => grouped n (first.subset member), Bool.eq_true_of_not_eq_false loud⟩
  rw [← whole] at inOrder grouped quiet
  have last := quiet _ _ (List.prefix_refl _)
  have since := sinceReport_of_silent fun before m first =>
    quiet before m (first.trans (List.prefix_append _ _))
  have due := fires_when_due kind fresh small inOrder grouped
  rw [since, whole, last] at due
  have values : (Finset.range c.rule.atLeast).image nthValue ⊆
      c.distinctValues (matchAt (c.rule.atLeast - 1)).time
        ((List.range c.rule.atLeast).map matchAt) := by
    intro v among
    obtain ⟨i, inside, rfl⟩ := Finset.mem_image.mp among
    refine mem_distinctValues.mpr ⟨matchAt i, ?_, ?_, valueOf_valueMatch counts source i⟩
    · exact List.mem_map.mpr ⟨i, List.mem_range.mpr (Finset.mem_range.mp inside), rfl⟩
    · have span := span_pos c.rule
      have now : (matchAt (c.rule.atLeast - 1)).time = 0 := rfl
      have then_too : (matchAt i).time = 0 := rfl
      omega
  have many := Finset.card_le_card values
  rw [Finset.card_image_of_injective _ nthValue_injective, Finset.card_range] at many
  exact absurd (due.mpr many) Bool.false_ne_true

/-- A correlation of distinct values that is accepted fires when it should exactly when it waits
    for no more values than a group remembers, and for one only if the groups are told apart by
    the field it counts. -/
theorem value_count_fires_iff {document : Sigma.Yaml} {c : Correlation}
    (read : Sigma.parseCorrelation document = .ok c.rule) (kind : c.rule.kind = .valueCount)
    (fresh : c.groups = ∅) (listed : c.sources ≠ []) :
    FiresWhenItShould c ↔ c.rule.atLeast ≤ maxValues ∧
      (c.rule.atLeast = 1 ∨ ∀ field, c.rule.valueField = some field → field ∉ c.rule.groupBy) := by
  obtain ⟨field, counts⟩ := (Sigma.parsed_accepted read).field kind
  constructor
  · rintro ⟨⟨key, ms, m, inOrder, grouped, fires⟩, _, _⟩
    constructor
    · by_contra large
      rw [never_reached kind fresh (Nat.lt_of_not_le large) inOrder grouped] at fires
      cases fires
    · by_contra neither
      obtain ⟨several, grouping⟩ := not_or.mp neither
      simp only [counts, Option.some.injEq, forall_eq', not_not] at grouping
      have positive := c.rule.atLeast_pos
      rw [one_value_never_enough kind fresh counts grouping (by omega) inOrder grouped] at fires
      cases fires
  · rintro ⟨small, apart⟩
    refine ⟨fires_on_enough kind fresh listed counts small (apart.imp id fun all => all _ counts),
      fun key ms m inOrder grouped => fires_when_due kind fresh small inOrder grouped,
      fun key ms m inOrder grouped quiet v t held young =>
        remembers_longer kind fresh inOrder grouped quiet held young⟩

deriving instance DecidableEq for CorrelationRule

/- Many accounts tried from one address. -/
def passwordSpraying (accounts : Int) : Sigma.Yaml :=
  .hash
    [(.string "title", .string "Password spraying"),
      (.string "correlation", .hash
        [(.string "type", .string "value_count"),
          (.string "rules", .array [.string "ssh_failed_login"]),
          (.string "group-by", .array [.string "src_ip"]),
          (.string "timespan", .string "10m"),
          (.string "condition", .hash
            [(.string "field", .string "user"), (.string "gte", .integer accounts)])])]

def sprayingRule (accounts : Nat) (some_account : 0 < accounts) : CorrelationRule where
  id := "Password spraying"
  title := "Password spraying"
  description := ""
  level := .medium
  tags := []
  name := none
  kind := .valueCount
  rules := ["ssh_failed_login"]
  groupBy := ["src_ip"]
  timespan := 600
  atLeast := accounts
  valueField := some "user"
  generate := false
  timespan_pos := by decide
  atLeast_pos := some_account

def spraying (accounts : Nat) (some_account : 0 < accounts) : Correlation where
  rule := sprayingRule accounts some_account
  sources := [.rule 0]
  alerts := true
  groups := ∅

theorem value_count_fires_six :
    FiresWhenItShould (spraying 6 (by decide)) ↔ 6 ≤ maxValues ∧
      (6 = 1 ∨ ∀ field, some "user" = some field → field ∉ ["src_ip"]) := by
  have read : Sigma.parseCorrelation (passwordSpraying 6) =
      .ok (spraying 6 (by decide)).rule := by decide
  exact value_count_fires_iff read rfl rfl (List.cons_ne_nil _ _)

/-- A thousand and one accounts are accepted as a threshold and never counted. -/
theorem value_count_not_firing :
    ¬ ∀ (document : Sigma.Yaml) (c : Correlation), Sigma.parseCorrelation document = .ok c.rule →
      c.rule.kind = .valueCount → c.groups = ∅ → c.sources ≠ [] → FiresWhenItShould c := by
  intro claimed
  have read : Sigma.parseCorrelation (passwordSpraying 1001) =
      .ok (spraying 1001 (by decide)).rule := by decide
  obtain ⟨⟨key, ms, m, inOrder, grouped, fires⟩, _, _⟩ :=
    claimed _ _ read rfl rfl (List.cons_ne_nil _ _)
  rw [never_reached rfl rfl (by decide) inOrder grouped] at fires
  cases fires

end SentinelAgent.Scanner
