import SentinelAgent.Scanner.Correlation

/-!
What a correlation counts, against a window that forgets nothing: each group keeps its matches
since its last hit, and a match is looked at with those inside the timespan that ends at it.
For event times that do not decrease the two report the same hits.
-/
namespace SentinelAgent.Scanner

open Maps

/-! The reference. -/

abbrev History := List String → List SourceMatch

def Correlation.inSpan (c : Correlation) (time : Int) (ms : List SourceMatch) :
    List SourceMatch :=
  ms.filter (fun m => decide (time - c.rule.span < m.time))

/-- The listed rules that are among the matches. -/
def Correlation.covered (c : Correlation) (ms : List SourceMatch) : List Source :=
  c.sources.filter (fun source => ms.any (fun m => decide (m.source = source)))

def Correlation.reached (c : Correlation) (ms : List SourceMatch) : Nat :=
  if c.rule.kind = .eventCount then ms.length else (c.covered ms).length

def slidingHit (c : Correlation) (since : History) (m : SourceMatch) : Option CorrelationHit :=
  match c.groupOf m.source m.fields with
  | none => none
  | some key =>
    let count := c.reached (c.inSpan m.time (since key ++ [m]))
    if count < c.rule.atLeast then none else some (c.hit key count)

def slide (c : Correlation) (since : History) (m : SourceMatch) : History :=
  match c.groupOf m.source m.fields with
  | none => since
  | some key =>
    Function.update since key (if (slidingHit c since m).isSome then [] else since key ++ [m])

def sinceHit (c : Correlation) (ms : List SourceMatch) : History :=
  Runs.run (slide c) (fun _ => []) ms

def Correlation.groupsInSpan (c : Correlation) (time : Int) (ms : List SourceMatch) :
    Finset (List String) :=
  ((c.inSpan time ms).filterMap (fun n => c.groupOf n.source n.fields)).toFinset

/-- At each match there is room for its group beside the others with a match in the timespan
    that ends at it. -/
def Uncrowded (c : Correlation) (ms : List SourceMatch) : Prop :=
  ∀ before m key, before ++ [m] <+: ms → c.groupOf m.source m.fields = some key →
    ((c.groupsInSpan m.time before).erase key).card < maxGroups

def InOrder (ms : List SourceMatch) : Prop := ms.Pairwise (fun m n => m.time ≤ n.time)

/-! One window. -/

/-- The window and the matches say the same of every timespan that starts at `oldest`. -/
def Agrees (c : Correlation) (oldest : Int) (w : Window) (ms : List SourceMatch) : Prop :=
  match c.rule.kind with
  | .eventCount =>
    w.times.filter (fun t => decide (oldest < t)) =
      (ms.map (fun m => m.time)).filter (fun t => decide (oldest < t))
  | _ =>
    ∀ i source, c.sources[i]? = some source →
      (recent oldest (w.perRule.getD i none) = true ↔
        ∃ m ∈ ms, m.source = source ∧ oldest < m.time)

theorem agrees_empty_of_past {c : Correlation} {oldest : Int} {ms : List SourceMatch}
    (past : ∀ m ∈ ms, m.time ≤ oldest) : Agrees c oldest Window.empty ms := by
  have none_recent : ∀ i source, c.sources[i]? = some source →
      (recent oldest (Window.empty.perRule.getD i none) = true ↔
        ∃ m ∈ ms, m.source = source ∧ oldest < m.time) := by
    intro i source _
    constructor
    · intro fresh
      simp [Window.empty, recent] at fresh
    · rintro ⟨m, member, _, young⟩
      have := past m member
      omega
  unfold Agrees
  split
  · simp only [Window.empty, List.filter_nil]
    refine (List.filter_eq_nil_iff.mpr ?_).symm
    intro t member
    obtain ⟨m, among, rfl⟩ := List.mem_map.mp member
    have := past m among
    simp only [decide_eq_true_eq]
    omega
  · exact none_recent

theorem length_filter_of_index {α β : Type} {p : α → Bool} {q : β → Bool} {as : List α}
    {bs : List β} (same : as.length = bs.length)
    (index : ∀ (i : Nat) a b, as[i]? = some a → bs[i]? = some b → p a = q b) :
    (as.filter p).length = (bs.filter q).length := by
  induction as generalizing bs with
  | nil =>
    have none_left : bs = [] := List.length_eq_zero_iff.mp same.symm
    simp [none_left]
  | cons a as ih =>
    cases bs with
    | nil => cases same
    | cons b bs =>
      have first : p a = q b := index 0 a b rfl rfl
      have rest : (as.filter p).length = (bs.filter q).length :=
        ih (by simpa using same) (fun i a b here there => index (i + 1) a b here there)
      simp only [List.filter_cons, first]
      split <;> simp [rest]

theorem inSpan_append (c : Correlation) (time : Int) (ms : List SourceMatch) (m : SourceMatch)
    (young : time - c.rule.span < m.time) :
    c.inSpan time (ms ++ [m]) = c.inSpan time ms ++ [m] := by
  simp [Correlation.inSpan, young]

theorem agrees_seen (c : Correlation) (oldest time : Int) (w : Window) (ms : List SourceMatch) :
    Agrees c oldest (w.seen time) ms ↔ Agrees c oldest w ms := Iff.rfl

theorem idxOf?_listed {sources : List Source} {source : Source} {position : Nat}
    (listed : sources.idxOf? source = some position) : sources[position]? = some source := by
  obtain ⟨inside, same, _⟩ := List.idxOf?_eq_some_iff.mp listed
  rw [List.getElem?_eq_getElem inside, same]

/-- One more match in a window: the count is the reference's, and the window goes on saying
    what the matches say of every later timespan. -/
theorem countEvent_agrees {c : Correlation} {w : Window} {ms : List SourceMatch}
    {m : SourceMatch} (kind : c.rule.kind = .eventCount)
    (agrees : Agrees c (m.time - c.rule.span) w ms) :
    (w.countEvent (m.time - c.rule.span) m.time).2 =
        c.reached (c.inSpan m.time (ms ++ [m])) ∧
      ∀ oldest, m.time - c.rule.span ≤ oldest → Agrees c oldest w ms →
        Agrees c oldest (w.countEvent (m.time - c.rule.span) m.time).1 (ms ++ [m]) := by
  have young : m.time - c.rule.span < m.time := by
    have := span_pos c.rule
    omega
  simp only [Agrees, kind] at agrees ⊢
  constructor
  · rw [inSpan_append c m.time ms m young]
    have lengths := congrArg List.length agrees
    rw [List.filter_map, List.length_map] at lengths
    simp only [Window.countEvent, Correlation.reached, kind, if_true, List.length_append,
      List.length_singleton, lengths]
    rfl
  · intro oldest later same
    have narrower : ∀ t : Int,
        (decide (oldest < t) && decide (m.time - c.rule.span < t)) = decide (oldest < t) := by
      intro t
      rw [← Bool.decide_and]
      exact decide_eq_decide.mpr ⟨fun both => both.1, fun above => ⟨above, by omega⟩⟩
    simp only [Window.countEvent, List.filter_append, List.map_append, List.filter_filter,
      narrower, same, List.map_cons, List.map_nil]

theorem countRule_agrees {c : Correlation} {w : Window} {ms : List SourceMatch}
    {m : SourceMatch} {position : Nat} (kind : c.rule.kind = .temporal) (once : c.sources.Nodup)
    (listed : c.sources[position]? = some m.source) (inOrder : ∀ n ∈ ms, n.time ≤ m.time)
    (agrees : Agrees c (m.time - c.rule.span) w ms) :
    (w.countRule (m.time - c.rule.span) m.time c.sources.length position).2 =
        c.reached (c.inSpan m.time (ms ++ [m])) ∧
      ∀ oldest, m.time - c.rule.span ≤ oldest → Agrees c oldest w ms →
        Agrees c oldest
          (w.countRule (m.time - c.rule.span) m.time c.sources.length position).1
          (ms ++ [m]) := by
  have young : m.time - c.rule.span < m.time := by
    have := span_pos c.rule
    omega
  have position_inside : position < c.sources.length := (List.getElem?_eq_some_iff.mp listed).1
  -- The new window, read at each listed rule.
  have counted : ∀ oldest, Agrees c oldest w ms → Agrees c oldest
      (w.countRule (m.time - c.rule.span) m.time c.sources.length position).1 (ms ++ [m]) := by
    intro oldest same
    simp only [Agrees, kind] at same ⊢
    intro i source here
    have inside : i < c.sources.length := (List.getElem?_eq_some_iff.mp here).1
    have length := resize_length w.perRule c.sources.length
    by_cases its : i = position
    · subst its
      rw [listed] at here
      cases here
      simp only [Window.countRule, List.getD_eq_getElem?_getD,
        List.getElem?_set_self (by omega : i < (resize w.perRule c.sources.length).length)]
      simp only [Option.getD_some, recent, Option.any_some, decide_eq_true_eq]
      constructor
      · intro above
        exact ⟨m, List.mem_append_right ms (List.mem_singleton.mpr rfl), rfl, above⟩
      · rintro ⟨n, member, _, above⟩
        rcases List.mem_append.mp member with old | new
        · have := inOrder n old
          omega
        · rw [List.mem_singleton.mp new] at above
          exact above
    · have differs : m.source ≠ source := by
        intro equal
        rw [← equal] at here
        exact its ((List.getElem?_inj inside once).mp (here.trans listed.symm))
      have unset : (w.countRule (m.time - c.rule.span) m.time c.sources.length
          position).1.perRule.getD i none = w.perRule.getD i none := by
        rw [← getD_resize w.perRule inside]
        simp only [Window.countRule, List.getD_eq_getElem?_getD,
          List.getElem?_set_ne (Ne.symm its)]
      rw [unset, same i source here]
      constructor
      · rintro ⟨n, member, source, above⟩
        exact ⟨n, List.mem_append_left [m] member, source, above⟩
      · rintro ⟨n, member, is_source, above⟩
        rcases List.mem_append.mp member with old | new
        · exact ⟨n, old, is_source, above⟩
        · rw [List.mem_singleton.mp new] at is_source
          exact absurd is_source differs
  refine ⟨?_, fun oldest _ same => counted oldest same⟩
  have now := counted _ agrees
  simp only [Agrees, kind] at now
  have lengths : ((resize w.perRule c.sources.length).set position (some m.time)).length =
      c.sources.length := by rw [List.length_set, resize_length]
  simp only [Correlation.reached, kind, Correlation.covered, reduceCtorEq, if_false]
  refine length_filter_of_index lengths ?_
  intro i t source here there
  have reading := now i source there
  have read : (w.countRule (m.time - c.rule.span) m.time c.sources.length
      position).1.perRule.getD i none = t := by
    rw [List.getD_eq_getElem?_getD]
    exact (congrArg (fun o => o.getD none) here).trans rfl
  rw [read] at reading
  rw [Bool.eq_iff_iff, reading, List.any_eq_true]
  constructor
  · rintro ⟨n, member, is_source, above⟩
    exact ⟨n, List.mem_filter.mpr ⟨member, decide_eq_true above⟩, decide_eq_true is_source⟩
  · rintro ⟨n, member, is_source⟩
    obtain ⟨member, above⟩ := List.mem_filter.mp member
    exact ⟨n, member, of_decide_eq_true is_source, of_decide_eq_true above⟩

/-! The whole table. -/

/-- The correlation `live`, started as `c`, says what the matches it was fed say. -/
structure Tracks (c : Correlation) (fed : List SourceMatch) (live : Correlation)
    (since : History) : Prop where
  rule : live.rule = c.rule
  sources : live.sources = c.sources
  known : ∀ key, ∀ m ∈ since key, m ∈ fed
  agrees : ∀ key oldest, (∀ m ∈ fed, m.time - c.rule.span ≤ oldest) →
    Agrees c oldest (live.window key) (since key)
  latest : ∀ key w, live.groups.lookup key = some w →
    ∃ m ∈ fed, c.groupOf m.source m.fields = some key ∧ w.latest = some m.time ∧
      ∀ n ∈ since key, n.time ≤ m.time

theorem tracks_start {c : Correlation} (fresh : c.groups = ∅) :
    Tracks c [] c (fun _ => []) where
  rule := rfl
  sources := rfl
  known _ _ member := by cases member
  agrees key oldest _ := by
    have start : c.window key = Window.empty := by simp [Correlation.window, fresh]
    rw [start]
    exact agrees_empty_of_past (fun m member => by cases member)
  latest key w held := by
    rw [fresh, Finmap.lookup_empty] at held
    cases held

theorem tracks_uncounted {c live : Correlation} {fed : List SourceMatch} {since : History}
    (tracks : Tracks c fed live since) (m : SourceMatch) : Tracks c (fed ++ [m]) live since where
  rule := tracks.rule
  sources := tracks.sources
  known key n member := List.mem_append_left [m] (tracks.known key n member)
  agrees key oldest past :=
    tracks.agrees key oldest (fun n member => past n (List.mem_append_left [m] member))
  latest key w held := by
    obtain ⟨n, member, rest⟩ := tracks.latest key w held
    exact ⟨n, List.mem_append_left [m] member, rest⟩

/-- Making room for a match forgets only groups whose matches are past for it. -/
theorem tracks_makeRoom {c live : Correlation} {fed : List SourceMatch} {since : History}
    (tracks : Tracks c fed live since) (m : SourceMatch) (key : List String) :
    Tracks c (fed ++ [m])
      { live with groups := (makeRoom live.groups key (m.time - c.rule.span)).1 } since where
  rule := tracks.rule
  sources := tracks.sources
  known other n member := List.mem_append_left [m] (tracks.known other n member)
  agrees other oldest past := by
    have before := tracks.agrees other oldest
      (fun n member => past n (List.mem_append_left [m] member))
    cases held : live.groups.lookup other with
    | none =>
      have still : (makeRoom live.groups key (m.time - c.rule.span)).1.lookup other = none := by
        by_contra present
        obtain ⟨w, found⟩ := Option.ne_none_iff_exists'.mp present
        rw [mem_of_lookup_makeRoom found] at held
        cases held
      simp only [Correlation.window, held] at before
      simp only [Correlation.window, still]
      exact before
    | some w =>
      simp only [Correlation.window, held] at before
      simp only [Correlation.window]
      rcases lookup_makeRoom key (m.time - c.rule.span) held with
        kept | ⟨forgotten, stale⟩
      · rw [kept]
        exact before
      · rw [forgotten]
        refine agrees_empty_of_past (fun n member => ?_)
        obtain ⟨last, _, _, latest, bound⟩ := tracks.latest other w held
        rw [latest] at stale
        have := of_decide_eq_false stale
        have := bound n member
        have := past m (List.mem_append_right fed (List.mem_singleton.mpr rfl))
        omega
  latest other w held := by
    obtain ⟨n, member, rest⟩ := tracks.latest other w (mem_of_lookup_makeRoom held)
    exact ⟨n, List.mem_append_left [m] member, rest⟩

theorem room_made {c live : Correlation} {fed : List SourceMatch} {since : History}
    (tracks : Tracks c fed live since) {m : SourceMatch} {key : List String}
    (grouped : c.groupOf m.source m.fields = some key)
    (few : ((c.groupsInSpan m.time fed).erase key).card < maxGroups) :
    (makeRoom live.groups key (m.time - c.rule.span)).2 = true := by
  by_contra refused
  obtain ⟨absent, many⟩ := makeRoom_refused (Bool.eq_false_iff.mpr refused)
  have bounded : Map.size
      (live.groups.retain (fun _ w => recent (m.time - c.rule.span) w.latest)) ≤
        ((c.groupsInSpan m.time fed).erase key).card := by
    refine size_le_card (fun other w held => ?_)
    obtain ⟨held, fresh⟩ := lookup_retain_eq_some.mp held
    obtain ⟨n, member, its_group, latest, _⟩ := tracks.latest other w held
    rw [latest] at fresh
    have young : m.time - c.rule.span < n.time := of_decide_eq_true fresh
    refine Finset.mem_erase.mpr ⟨?_, ?_⟩
    · rintro rfl
      exact absent (mem_iff_lookup.mpr ⟨w, held⟩)
    · refine List.mem_toFinset.mpr (List.mem_filterMap.mpr ⟨n, ?_, its_group⟩)
      exact List.mem_filter.mpr ⟨member, decide_eq_true young⟩
  omega

theorem window_put {c : Correlation} {groups : Groups} {key other : List String} {w : Window} :
    ({ c with groups := groups.insert key w } : Correlation).window other =
      if other = key then w else ({ c with groups := groups } : Correlation).window other := by
  simp only [Correlation.window, lookup_insert_eq]
  split <;> rfl

theorem window_forget {c : Correlation} {groups : Groups} {key other : List String} :
    ({ c with groups := groups.erase key } : Correlation).window other =
      if other = key then Window.empty
      else ({ c with groups := groups } : Correlation).window other := by
  simp only [Correlation.window, lookup_erase_eq]
  split <;> rfl

/-- The kinds the reference is about. A temporal correlation lists no rule twice. -/
def Counted (c : Correlation) : Prop :=
  c.rule.kind = .eventCount ∨ (c.rule.kind = .temporal ∧ c.sources.Nodup)

theorem observe_agrees {c live : Correlation} {w : Window} {ms : List SourceMatch}
    {m : SourceMatch} {position : Nat} (counted : Counted c) (rule : live.rule = c.rule)
    (sources : live.sources = c.sources) (listed : c.sources[position]? = some m.source)
    (inOrder : ∀ n ∈ ms, n.time ≤ m.time) (agrees : Agrees c (m.time - c.rule.span) w ms) :
    (live.observe w position m.fields m.time).2 =
        some (c.reached (c.inSpan m.time (ms ++ [m]))) ∧
      ∀ oldest, m.time - c.rule.span ≤ oldest → Agrees c oldest w ms →
        Agrees c oldest (live.observe w position m.fields m.time).1 (ms ++ [m]) := by
  rcases counted with kind | ⟨kind, once⟩
  · have observed : live.observe w position m.fields m.time =
        (w.countEvent (m.time - c.rule.span) m.time).map id some := by
      simp only [Correlation.observe, rule, kind]
    obtain ⟨number, later⟩ := countEvent_agrees kind agrees
    rw [observed]
    exact ⟨congrArg some number, later⟩
  · have observed : live.observe w position m.fields m.time =
        (w.countRule (m.time - c.rule.span) m.time c.sources.length position).map id some := by
      simp only [Correlation.observe, rule, sources, kind]
    obtain ⟨number, later⟩ := countRule_agrees kind once listed inOrder agrees
    rw [observed]
    exact ⟨congrArg some number, later⟩

theorem tracks_put {c live : Correlation} {fed : List SourceMatch} {since : History}
    (tracks : Tracks c fed live since) {m : SourceMatch} {key : List String} {w : Window}
    (member : m ∈ fed) (grouped : c.groupOf m.source m.fields = some key)
    (last : w.latest = some m.time) (times : ∀ n ∈ since key, n.time ≤ m.time)
    (agrees : ∀ oldest, (∀ n ∈ fed, n.time - c.rule.span ≤ oldest) →
      Agrees c oldest w (since key ++ [m])) :
    Tracks c fed { live with groups := live.groups.insert key w }
      (Function.update since key (since key ++ [m])) where
  rule := tracks.rule
  sources := tracks.sources
  known other n among := by
    by_cases its : other = key
    · subst its
      rw [Function.update_self] at among
      rcases List.mem_append.mp among with old | new
      · exact tracks.known other n old
      · rw [List.mem_singleton.mp new]
        exact member
    · rw [Function.update_of_ne its] at among
      exact tracks.known other n among
  agrees other oldest past := by
    rw [window_put]
    by_cases its : other = key
    · subst its
      rw [if_pos rfl, Function.update_self]
      exact agrees oldest past
    · rw [if_neg its, Function.update_of_ne its]
      exact tracks.agrees other oldest past
  latest other v held := by
    rw [lookup_insert_eq] at held
    by_cases its : other = key
    · subst its
      rw [if_pos rfl] at held
      cases held
      refine ⟨m, member, grouped, last, fun n among => ?_⟩
      rw [Function.update_self] at among
      rcases List.mem_append.mp among with old | new
      · exact times n old
      · rw [List.mem_singleton.mp new]
    · rw [if_neg its] at held
      rw [Function.update_of_ne its]
      exact tracks.latest other v held

theorem tracks_forget {c live : Correlation} {fed : List SourceMatch} {since : History}
    (tracks : Tracks c fed live since) (key : List String) :
    Tracks c fed { live with groups := live.groups.erase key }
      (Function.update since key []) where
  rule := tracks.rule
  sources := tracks.sources
  known other n among := by
    by_cases its : other = key
    · subst its
      rw [Function.update_self] at among
      cases among
    · rw [Function.update_of_ne its] at among
      exact tracks.known other n among
  agrees other oldest past := by
    rw [window_forget]
    by_cases its : other = key
    · subst its
      rw [if_pos rfl, Function.update_self]
      exact agrees_empty_of_past (fun n among => by cases among)
    · rw [if_neg its, Function.update_of_ne its]
      exact tracks.agrees other oldest past
  latest other v held := by
    rw [lookup_erase_eq] at held
    by_cases its : other = key
    · rw [if_pos its] at held
      cases held
    · rw [if_neg its] at held
      rw [Function.update_of_ne its]
      exact tracks.latest other v held

/-- A window that was last seen no later than now is last seen now. -/
theorem seen_latest {c live : Correlation} {fed : List SourceMatch} {since : History}
    (tracks : Tracks c fed live since) {time : Int} (inOrder : ∀ n ∈ fed, n.time ≤ time)
    (key : List String) : ((live.window key).seen time).latest = some time := by
  cases held : live.groups.lookup key with
  | none => simp [Correlation.window, held, Window.seen, Window.empty]
  | some w =>
    obtain ⟨n, member, _, latest, _⟩ := tracks.latest key w held
    have before := inOrder n member
    simp [Correlation.window, held, Window.seen, latest, before]

/-- One match: the correlation and the reference report the same, and stay together. -/
theorem tracks_step {c live : Correlation} {fed : List SourceMatch} {since : History}
    (counted : Counted c) (tracks : Tracks c fed live since) {m : SourceMatch}
    (inOrder : ∀ n ∈ fed, n.time ≤ m.time)
    (few : ∀ key, c.groupOf m.source m.fields = some key →
      ((c.groupsInSpan m.time fed).erase key).card < maxGroups) :
    live.reports m = slidingHit c since m ∧
      Tracks c (fed ++ [m]) (live.step m) (slide c since m) := by
  have same_group : live.groupOf m.source m.fields = c.groupOf m.source m.fields := by
    simp only [Correlation.groupOf, tracks.rule, tracks.sources]
  unfold Correlation.reports Correlation.step
  obtain ⟨ungrouped, same⟩ | ⟨key, position, grouped, listed, out⟩ :=
    count_cases live m.source m.fields m.time
  · rw [same_group] at ungrouped
    rw [same]
    simp only [slidingHit, slide, ungrouped]
    exact ⟨trivial, tracks_uncounted tracks m⟩
  rw [same_group] at grouped
  have same_span : live.rule.span = c.rule.span := by rw [tracks.rule]
  rw [same_span] at out
  obtain ⟨refused, _⟩ | ⟨_, into⟩ := out
  · rw [room_made tracks grouped (few key grouped)] at refused
    cases refused
  rw [into]
  have made := tracks_makeRoom tracks m key
  generalize (makeRoom live.groups key (m.time - c.rule.span)).1 = groups at made ⊢
  have upTo : ∀ n ∈ fed ++ [m], n.time ≤ m.time := by
    intro n member
    rcases List.mem_append.mp member with old | new
    · exact inOrder n old
    · rw [List.mem_singleton.mp new]
  have now : m ∈ fed ++ [m] := List.mem_append_right fed (List.mem_singleton.mpr rfl)
  have listed : c.sources[position]? = some m.source := by
    rw [← tracks.sources]
    exact idxOf?_listed listed
  have times : ∀ n ∈ since key, n.time ≤ m.time :=
    fun n member => upTo n (made.known key n member)
  have agrees := made.agrees key _ (fun n member => by
    have := upTo n member
    show n.time - c.rule.span ≤ m.time - c.rule.span
    omega)
  have observed := observe_agrees counted made.rule made.sources listed times
    ((agrees_seen c _ m.time _ _).mpr agrees)
  have latest := observe_latest { live with groups := groups }
    ((({ live with groups := groups } : Correlation).window key).seen m.time) position
    m.fields m.time
  obtain ⟨w, number, result, out⟩ := countIn_cases { live with groups := groups } key position
    m.fields m.time
  rw [result] at observed latest
  rw [seen_latest made upTo key] at latest
  obtain ⟨reached, later⟩ := observed
  obtain ⟨kept, below⟩ | ⟨count, above, enough, reported⟩ := out
  · have short : c.reached (c.inSpan m.time (since key ++ [m])) < c.rule.atLeast := by
      have := below _ reached
      rwa [made.rule] at this
    have silent : slidingHit c since m = none := by simp [slidingHit, grouped, short]
    have slid : slide c since m = Function.update since key (since key ++ [m]) := by
      simp [slide, grouped, silent]
    rw [kept, silent, slid]
    refine ⟨rfl, tracks_put made now grouped latest times (fun oldest past => ?_)⟩
    exact later oldest (past m now) (made.agrees key oldest past)
  · cases above.symm.trans reached
    have enough : ¬ c.reached (c.inSpan m.time (since key ++ [m])) < c.rule.atLeast := by
      rw [made.rule] at enough
      omega
    have hit : slidingHit c since m =
        some (c.hit key (c.reached (c.inSpan m.time (since key ++ [m])))) := by
      simp [slidingHit, grouped, enough]
    have slid : slide c since m = Function.update since key [] := by
      simp [slide, grouped, hit]
    rw [reported, hit, slid]
    refine ⟨?_, tracks_forget made key⟩
    simp only [Correlation.hit, tracks.rule]

/-! A run. -/

theorem inOrder_append {ms : List SourceMatch} {m : SourceMatch} :
    InOrder (ms ++ [m]) ↔ InOrder ms ∧ ∀ n ∈ ms, n.time ≤ m.time := by
  simp [InOrder, List.pairwise_append]

theorem tracks_run {c : Correlation} (counted : Counted c) (fresh : c.groups = ∅)
    {ms : List SourceMatch} (inOrder : InOrder ms) (few : Uncrowded c ms) :
    Tracks c ms (Runs.run Correlation.step c ms) (sinceHit c ms) := by
  induction ms using List.reverseRecOn with
  | nil => exact tracks_start fresh
  | append_singleton ms m ih =>
    obtain ⟨before, last⟩ := inOrder_append.mp inOrder
    have tracks := ih before (fun earlier n key first =>
      few earlier n key (first.trans (List.prefix_append ms [m])))
    have step := tracks_step counted tracks last
      (fun key grouped => few ms m key (List.prefix_refl _) grouped)
    simp only [sinceHit, Runs.run_append] at step ⊢
    exact step.2

theorem reports_run {c : Correlation} (counted : Counted c) (fresh : c.groups = ∅)
    {ms : List SourceMatch} {m : SourceMatch} (inOrder : InOrder (ms ++ [m]))
    (few : Uncrowded c (ms ++ [m])) :
    (Runs.run Correlation.step c ms).reports m = slidingHit c (sinceHit c ms) m := by
  obtain ⟨before, last⟩ := inOrder_append.mp inOrder
  have tracks := tracks_run counted fresh before (fun earlier n key first =>
    few earlier n key (first.trans (List.prefix_append ms [m])))
  exact (tracks_step counted tracks last
    (fun key grouped => few ms m key (List.prefix_refl _) grouped)).1

/-- A group never sees the matches of the others. -/
theorem sinceHit_filter (c : Correlation) (key : List String) (ms : List SourceMatch) :
    sinceHit c ms key =
      sinceHit c (ms.filter (fun n => c.groupOf n.source n.fields = some key)) key := by
  induction ms using List.reverseRecOn with
  | nil => rfl
  | append_singleton ms m ih =>
    by_cases its : c.groupOf m.source m.fields = some key
    · simp only [List.filter_append, List.filter_cons, its, sinceHit, Runs.run_append] at ih ⊢
      simp [slide, slidingHit, its, ih]
    · simp only [List.filter_append, List.filter_cons, its, sinceHit, Runs.run_append] at ih ⊢
      simp only [Runs.run_cons, Runs.run_nil, slide]
      cases grouped : c.groupOf m.source m.fields with
      | none => simpa using ih
      | some other =>
        have differs : key ≠ other := by
          rintro rfl
          exact its grouped
        simpa [Function.update_of_ne differs] using ih

theorem mem_groupsInSpan {c : Correlation} {time : Int} {ms : List SourceMatch}
    {key : List String} (among : key ∈ c.groupsInSpan time ms) :
    ∃ m ∈ ms, c.groupOf m.source m.fields = some key := by
  obtain ⟨m, member, its⟩ := List.mem_filterMap.mp (List.mem_toFinset.mp among)
  exact ⟨m, List.mem_of_mem_filter member, its⟩

/-- A run with no more groups than the table holds is uncrowded. -/
theorem uncrowded_of_groups {c : Correlation} {ms : List SourceMatch} (groups : Finset (List String))
    (all : ∀ m ∈ ms, ∀ key, c.groupOf m.source m.fields = some key → key ∈ groups)
    (few : groups.card ≤ maxGroups) : Uncrowded c ms := by
  intro before m key first grouped
  have own : key ∈ groups := by
    refine all m (first.subset ?_) key grouped
    exact List.mem_append_right before (List.mem_singleton.mpr rfl)
  have smaller : ((c.groupsInSpan m.time before).erase key).card < groups.card := by
    refine Finset.card_lt_card (Finset.ssubset_of_subset_of_ssubset ?_ (Finset.erase_ssubset own))
    refine Finset.erase_subset_erase key (fun other among => ?_)
    obtain ⟨n, member, its⟩ := mem_groupsInSpan among
    exact all n (first.subset (List.mem_append_left [m] member)) other its
  omega

theorem groups_independent {c : Correlation} (counted : Counted c) (fresh : c.groups = ∅)
    {ms : List SourceMatch} {m : SourceMatch} {key : List String}
    (inOrder : InOrder (ms ++ [m])) (few : Uncrowded c (ms ++ [m]))
    (grouped : c.groupOf m.source m.fields = some key) :
    (Runs.run Correlation.step c ms).reports m =
      (Runs.run Correlation.step c
        (ms.filter (fun n => c.groupOf n.source n.fields = some key))).reports m := by
  have part : (ms.filter (fun n => decide (c.groupOf n.source n.fields = some key)) ++
      [m]).Sublist (ms ++ [m]) := List.Sublist.append_right List.filter_sublist [m]
  have alone : Uncrowded c
      (ms.filter (fun n => decide (c.groupOf n.source n.fields = some key)) ++ [m]) := by
    refine uncrowded_of_groups {key} (fun n member other its => ?_) (by simp [maxGroups])
    rcases List.mem_append.mp member with old | new
    · have same := of_decide_eq_true (List.mem_filter.mp old).2
      rw [same] at its
      exact Finset.mem_singleton.mpr (Option.some.inj its).symm
    · rw [List.mem_singleton.mp new, grouped] at its
      exact Finset.mem_singleton.mpr (Option.some.inj its).symm
  rw [reports_run counted fresh inOrder few,
    reports_run counted fresh (List.Pairwise.sublist part inOrder) alone]
  simp only [slidingHit, grouped, ← sinceHit_filter c key ms]

/-! What is forgotten. -/

/-- The group's last event is no earlier than anything its window holds. -/
def Bounded (groups : Groups) : Prop :=
  ∀ key w, groups.lookup key = some w → ∀ t, w.Remembers t → ∃ l, w.latest = some l ∧ t ≤ l

theorem seen_bounded {c : Correlation} (bounded : Bounded c.groups) (key : List String)
    (time : Int) :
    ∃ l, ((c.window key).seen time).latest = some l ∧ time ≤ l ∧
      ∀ t, (c.window key).Remembers t → t ≤ l := by
  cases held : c.groups.lookup key with
  | none =>
    refine ⟨time, by simp [Correlation.window, held, Window.seen, Window.empty], by omega, ?_⟩
    intro t remembered
    simp only [Correlation.window, held] at remembered
    exact absurd remembered (empty_remembers_none t)
  | some w =>
    simp only [Correlation.window, held, Option.getD_some, Window.seen, Option.some.injEq,
      exists_eq_left']
    cases last : w.latest with
    | none =>
      refine ⟨by simp, fun t remembered => ?_⟩
      obtain ⟨l, latest, _⟩ := bounded key w held t remembered
      rw [last] at latest
      cases latest
    | some l =>
      simp only [Option.elim_some]
      refine ⟨by omega, fun t remembered => ?_⟩
      obtain ⟨k, latest, bound⟩ := bounded key w held t remembered
      rw [last] at latest
      cases latest
      omega

theorem step_bounded {c : Correlation} {m : SourceMatch} (bounded : Bounded c.groups) :
    Bounded (c.step m).groups := by
  unfold Correlation.step
  obtain ⟨_, same⟩ | ⟨key, position, _, _, out⟩ := count_cases c m.source m.fields m.time
  · rw [same]
    exact bounded
  have made : Bounded (makeRoom c.groups key (m.time - c.rule.span)).1 :=
    fun other w held => bounded other w (mem_of_lookup_makeRoom held)
  obtain ⟨_, refused⟩ | ⟨_, into⟩ := out
  · rw [refused]
    exact made
  rw [into]
  generalize (makeRoom c.groups key (m.time - c.rule.span)).1 = groups at made ⊢
  obtain ⟨w, number, result, ⟨kept, _⟩ | ⟨_, _, _, reported⟩⟩ :=
    countIn_cases { c with groups := groups } key position m.fields m.time
  · rw [kept]
    intro other v held t remembered
    simp only [lookup_insert_eq] at held
    by_cases its : other = key
    · rw [if_pos its] at held
      cases held
      obtain ⟨l, latest, now, bound⟩ :=
        seen_bounded (c := { c with groups := groups }) made key m.time
      have kept_latest := observe_latest { c with groups := groups }
        ((({ c with groups := groups } : Correlation).window key).seen m.time) position
        m.fields m.time
      have before := fun t => observe_remembers { c with groups := groups }
        ((({ c with groups := groups } : Correlation).window key).seen m.time) position
        m.fields m.time t
      rw [result] at kept_latest before
      refine ⟨l, kept_latest.trans latest, ?_⟩
      rcases before t remembered with new | old
      · omega
      · exact bound t old
    · rw [if_neg its] at held
      exact made other v held t remembered
  · rw [reported]
    intro other v held t remembered
    simp only [lookup_erase_eq] at held
    split at held
    · cases held
    · exact made other v held t remembered

theorem run_bounded {c : Correlation} (fresh : c.groups = ∅) (ms : List SourceMatch) :
    Bounded (Runs.run Correlation.step c ms).groups := by
  refine Runs.run_invariant (I := fun c : Correlation => Bounded c.groups) (fun _ _ => step_bounded) ?_ ms
  intro key w held
  rw [fresh, Finmap.lookup_empty] at held
  cases held

theorem step_other_group {c : Correlation} {m : SourceMatch} {other : List String} {w : Window}
    (held : c.groups.lookup other = some w) (its : c.groupOf m.source m.fields ≠ some other) :
    (c.step m).groups.lookup other = some w ∨
      ((c.step m).groups.lookup other = none ∧
        recent (m.time - c.rule.span) w.latest = false) := by
  unfold Correlation.step
  obtain ⟨_, same⟩ | ⟨key, position, grouped, _, out⟩ := count_cases c m.source m.fields m.time
  · rw [same]
    exact Or.inl held
  have differs : other ≠ key := by
    rintro rfl
    exact its grouped
  have made := lookup_makeRoom key (m.time - c.rule.span) held
  obtain ⟨_, refused⟩ | ⟨_, into⟩ := out
  · rw [refused]
    exact made
  rw [into]
  obtain ⟨w, number, _, ⟨kept, _⟩ | ⟨_, _, _, reported⟩⟩ :=
    countIn_cases { c with groups := (makeRoom c.groups key (m.time - c.rule.span)).1 } key
      position m.fields m.time
  · rw [kept]
    simp only [lookup_insert_eq, if_neg differs]
    exact made
  · rw [reported]
    simp only [lookup_erase_eq, if_neg differs]
    exact made

/-- What the full table forgets counts at no later event. -/
theorem forgotten_past {c : Correlation} (fresh : c.groups = ∅) (ms : List SourceMatch)
    {m : SourceMatch} {other : List String} {w : Window}
    (held : (Runs.run Correlation.step c ms).groups.lookup other = some w)
    (its : c.groupOf m.source m.fields ≠ some other) :
    (Runs.run Correlation.step c (ms ++ [m])).groups.lookup other = some w ∨
      ∀ t, w.Remembers t → ∀ later, m.time ≤ later → t ≤ later - c.rule.span := by
  have fixed : (Runs.run Correlation.step c ms).rule = c.rule ∧
      (Runs.run Correlation.step c ms).sources = c.sources :=
    Runs.run_invariant (I := fun d : Correlation => d.rule = c.rule ∧ d.sources = c.sources)
      (fun d m same => by simpa using same) ⟨rfl, rfl⟩ ms
  have same_group : (Runs.run Correlation.step c ms).groupOf m.source m.fields =
      c.groupOf m.source m.fields := by
    simp only [Correlation.groupOf, fixed.1, fixed.2]
  rw [← same_group] at its
  rw [Runs.run_append]
  rcases step_other_group held its with kept | ⟨_, stale⟩
  · exact Or.inl kept
  · refine Or.inr (fun t remembered later after => ?_)
    obtain ⟨l, latest, bound⟩ := run_bounded fresh ms other w held t remembered
    rw [latest, fixed.1] at stale
    have := of_decide_eq_false stale
    omega

theorem hits_are_sliding (c : Correlation) (fresh : c.groups = ∅) (ms : List SourceMatch)
    (m : SourceMatch) :
    (Counted c → InOrder (ms ++ [m]) → Uncrowded c (ms ++ [m]) →
      (Runs.run Correlation.step c ms).reports m = slidingHit c (sinceHit c ms) m ∧
      ∀ key, c.groupOf m.source m.fields = some key →
        (Runs.run Correlation.step c ms).reports m =
          (Runs.run Correlation.step c
            (ms.filter (fun n => c.groupOf n.source n.fields = some key))).reports m) ∧
    ∀ other w, (Runs.run Correlation.step c ms).groups.lookup other = some w →
      c.groupOf m.source m.fields ≠ some other →
        (Runs.run Correlation.step c (ms ++ [m])).groups.lookup other = some w ∨
          ∀ t, w.Remembers t → ∀ later, m.time ≤ later → t ≤ later - c.rule.span := by
  constructor
  · intro counted inOrder few
    exact ⟨reports_run counted fresh inOrder few,
      fun key grouped => groups_independent counted fresh inOrder few grouped⟩
  · intro other w held its
    exact forgotten_past fresh ms held its

/-- Two failed logins from one address in five minutes. -/
def failedLogins : Correlation where
  rule :=
    { id := "c", title := "c", description := "", level := .high, tags := [], name := none,
      kind := .eventCount, rules := ["a"], groupBy := ["ip"], timespan := 300, atLeast := 2,
      valueField := none, generate := false, timespan_pos := fiveMinutes_pos,
      atLeast_pos := Nat.two_pos }
  sources := [.rule 0]
  alerts := true
  groups := ∅

def failedLogin (ip : String) (seconds : Int) : SourceMatch where
  source := .rule 0
  fields := Finmap.insert "ip" ip ∅
  time := seconds * nanosPerSecond

theorem second_login_hits :
    (Runs.run Correlation.step failedLogins [failedLogin "x" 0, failedLogin "y" 5]).reports
        (failedLogin "x" 10) =
      slidingHit failedLogins (sinceHit failedLogins [failedLogin "x" 0, failedLogin "y" 5])
        (failedLogin "x" 10) := by
  have few : Uncrowded failedLogins
      ([failedLogin "x" 0, failedLogin "y" 5] ++ [failedLogin "x" 10]) := by
    refine uncrowded_of_groups {["x"], ["y"]} ?_ (by decide)
    intro m member key grouped
    simp only [List.cons_append, List.nil_append, List.mem_cons, List.not_mem_nil,
      or_false] at member
    rcases member with rfl | rfl | rfl <;> cases grouped <;> decide
  exact ((hits_are_sliding failedLogins rfl [failedLogin "x" 0, failedLogin "y" 5]
    (failedLogin "x" 10)).1 (Or.inl rfl) (by unfold InOrder; decide) few).1

example : (slidingHit failedLogins (sinceHit failedLogins [failedLogin "x" 0, failedLogin "y" 5])
    (failedLogin "x" 10)).isSome = true := by decide

/-- Two rules, one of which is enough. -/
def anyOfTwo : Correlation where
  rule :=
    { id := "c", title := "c", description := "", level := .high, tags := [], name := none,
      kind := .temporal, rules := ["a", "b"], groupBy := [], timespan := 300, atLeast := 1,
      valueField := none, generate := false, timespan_pos := fiveMinutes_pos,
      atLeast_pos := Nat.one_pos }
  sources := [.rule 0, .rule 1]
  alerts := true
  groups := ∅

def firstOfTwo : SourceMatch := { source := .rule 0, fields := ∅, time := 0 }

/-- The hit comes with a listed rule that matched nothing. -/
theorem one_of_two_hits :
    ¬ ∀ c : Correlation, c.groups = ∅ → c.rule.kind = .temporal → c.sources.Nodup →
      ∀ ms m key, InOrder (ms ++ [m]) → Uncrowded c (ms ++ [m]) →
        c.groupOf m.source m.fields = some key →
        (((Runs.run Correlation.step c ms).reports m).isSome ↔
          ∀ source ∈ c.sources,
            source ∈ (c.inSpan m.time (sinceHit c ms key ++ [m])).map (fun n => n.source)) := by
  intro claimed
  have few : Uncrowded anyOfTwo ([] ++ [firstOfTwo]) := by
    refine uncrowded_of_groups {[]} (fun n member key grouped => ?_) (by simp [maxGroups])
    rw [List.mem_singleton.mp member] at grouped
    cases grouped
    decide
  have both := (claimed anyOfTwo rfl rfl (by decide) [] firstOfTwo [] (by simp [InOrder]) few
    (by decide)).mp (by decide)
  exact absurd (both (.rule 1) (by decide)) (by decide)

end SentinelAgent.Scanner
