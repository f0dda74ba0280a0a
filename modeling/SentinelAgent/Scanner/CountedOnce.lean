import SentinelAgent.Scanner.EventCounts
import SentinelAgent.Scanner.OrderedRuns
import SentinelAgent.Scanner.ValueCounts

/-!
What one match comes to in its group, when it is counted once and when it is counted as often as
the rule is listed: in the hits at it, and in what the group goes on counting.
-/
namespace SentinelAgent.Scanner

open Maps

/- What a group counts of the timespan that starts there. -/
def Correlation.held (c : Correlation) (w : Window) (oldest : Int) : Nat :=
  match c.rule.kind with
  | .eventCount => (w.times.filter fun t => decide (oldest < t)).length
  | .valueCount => (w.values.retain fun _ t => decide (oldest < t)).size
  | .temporal => (w.perRule.filter (recent oldest)).length
  | .temporalOrdered => (w.perRule.takeWhile (recent oldest)).length

def Correlation.heldAt (c : Correlation) (key : List String) (m : SourceMatch) : Nat :=
  c.held (c.window key) (m.time - c.rule.span)

/- What a match comes to that is counted so many times. -/
def Correlation.comesTo (key : List String) (m : SourceMatch) : Nat → Correlation → Nat
  | 0, c => c.heldAt key m
  | n + 1, c => ((c.reports m).elim 0 fun hit => hit.count) + (c.step m).comesTo key m n

theorem step_watch (c : Correlation) (m n : SourceMatch) (w : Window) :
    (c.step m).watch w n = c.watch w n := by
  simp only [Correlation.watch, Correlation.observe, step_rule, step_sources]

theorem step_held (c : Correlation) (m : SourceMatch) (w : Window) (oldest : Int) :
    (c.step m).held w oldest = c.held w oldest := by
  simp only [Correlation.held, step_rule]

theorem window_makeRoom_key (c : Correlation) (key : List String) (oldest : Int) :
    ({ c with groups := (makeRoom c.groups key oldest).1 } : Correlation).window key =
      c.window key := by
  unfold makeRoom Correlation.window
  split
  · rename_i full
    have absent : c.groups.lookup key = none := by
      by_contra held
      exact full.1 (mem_iff_lookup.mpr (Option.ne_none_iff_exists'.mp held))
    rw [lookup_retain, absent]
    rfl
  · rfl

/- What counting a match can do to the window of its group. -/
inductive Counting (c : Correlation) (key : List String) (m : SourceMatch) : Prop where
  | refused (full : (makeRoom c.groups key (m.time - c.rule.span)).2 = false)
      (silent : c.reports m = none) (same : (c.step m).window key = c.window key)
  | quiet (below : c.windowHit (c.window key) m = false) (silent : c.reports m = none)
      (watched : (c.step m).window key = (c.watch (c.window key) m).1)
  | loud (hit : CorrelationHit) (reported : c.reports m = some hit)
      (count : (c.watch (c.window key) m).2 = some hit.count) (enough : c.rule.atLeast ≤ hit.count)
      (forgotten : (c.step m).window key = Window.empty)

theorem counting_cases {c : Correlation} {key : List String} {m : SourceMatch}
    (grouped : c.groupOf m.source m.fields = some key) : Counting c key m := by
  obtain ⟨ungrouped, _⟩ | ⟨other, position, its_group, listed, out⟩ :=
    count_cases c m.source m.fields m.time
  · rw [grouped] at ungrouped
    cases ungrouped
  rw [grouped] at its_group
  cases its_group
  have kept := window_makeRoom_key c key (m.time - c.rule.span)
  obtain ⟨full, refused⟩ | ⟨_, into⟩ := out
  · refine .refused full ?_ ?_
    · rw [Correlation.reports, refused]
    · rw [Correlation.step, refused]
      exact kept
  have watched : c.watch (c.window key) m =
      ({ c with groups := (makeRoom c.groups key (m.time - c.rule.span)).1 } :
        Correlation).observe ((c.window key).seen m.time) position m.fields m.time := by
    simp only [Correlation.watch, Correlation.observe, listed, Option.getD_some]
  obtain ⟨v, counted, observed, ⟨stays, below⟩ | ⟨count, reached, enough, reported⟩⟩ :=
    countIn_cases { c with groups := (makeRoom c.groups key (m.time - c.rule.span)).1 }
      key position m.fields m.time
  · rw [kept, ← watched] at observed
    refine .quiet ?_ ?_ ?_
    · rw [Correlation.windowHit, observed, Option.any_eq_false]
      intro count same
      exact decide_eq_false (Nat.not_le_of_lt (below count same))
    · rw [Correlation.reports, into, stays]
    · rw [Correlation.step, into, stays, observed]
      exact window_put.trans (if_pos rfl)
  · rw [kept, ← watched] at observed
    refine .loud (c.hit key count) ?_ ?_ enough ?_
    · rw [Correlation.reports, into, reported]
      rfl
    · rw [observed]
      exact reached
    · rw [Correlation.step, into, reported]
      exact window_forget.trans (if_pos rfl)

theorem step_groupOf (c : Correlation) (m : SourceMatch) (source : Source) (fields : SigmaEvent) :
    (c.step m).groupOf source fields = c.groupOf source fields := by
  simp only [Correlation.groupOf, step_rule, step_sources]

/-! One match in a window. -/

theorem length_filter_set_le {α : Type} (p : α → Bool) (as : List α) (i : Nat) (a : α) :
    ((as.set i a).filter p).length ≤ (as.filter p).length + 1 := by
  induction as generalizing i with
  | nil => exact Nat.zero_le _
  | cons b as ih =>
    cases i with
    | zero =>
      rw [List.set_cons_zero, List.filter_cons, List.filter_cons]
      cases p a <;> cases p b <;>
        (simp only [Bool.false_eq_true, ↓reduceIte, List.length_cons]; omega)
    | succ i =>
      have later := ih i
      simp only [List.set_cons_succ, List.filter_cons]
      split
      · simp only [List.length_cons]
        omega
      · exact later

theorem filter_resize_le (oldest : Int) (perRule : List (Option Int)) (listed : Nat) :
    ((resize perRule listed).filter (recent oldest)).length ≤
      (perRule.filter (recent oldest)).length := by
  have none_recent : (List.replicate (listed - perRule.length) (none : Option Int)).filter
      (recent oldest) = [] := by
    rw [List.filter_eq_nil_iff]
    intro t copy
    rw [List.eq_of_mem_replicate copy]
    exact Bool.false_ne_true
  rw [resize, List.filter_append, none_recent, List.append_nil]
  exact ((List.take_sublist listed perRule).filter _).length_le

theorem getD_of_lt_takeWhile {oldest : Int} {perRule : List (Option Int)} {i : Nat}
    (inside : i < (perRule.takeWhile (recent oldest)).length) :
    recent oldest (perRule.getD i none) = true := by
  have found := List.getElem?_eq_getElem inside
  have among := List.mem_of_getElem? found
  rw [(List.takeWhile_prefix (recent oldest)).getElem inside] at among
  have within := inside.trans_le (List.takeWhile_prefix (recent oldest)).length_le
  rw [List.getD_eq_getElem?_getD, List.getElem?_eq_getElem within, Option.getD_some]
  exact List.mem_takeWhile_imp among

/-- What an ordered window counts after a match is at most one more than before. -/
theorem takeWhile_countInOrder_le (w : Window) (oldest time : Int) (listed position : Nat) :
    ((w.countInOrder oldest time listed position).1.perRule.takeWhile (recent oldest)).length ≤
      (w.perRule.takeWhile (recent oldest)).length + 1 := by
  have size := length_countInOrder w oldest time listed position
  have short := (List.takeWhile_prefix (recent oldest)
    (l := (w.countInOrder oldest time listed position).1.perRule)).length_le
  have at_each := fun i => @getD_of_lt_takeWhile oldest
    (w.countInOrder oldest time listed position).1.perRule i
  by_cases turn : inOrder (resize w.perRule listed) oldest time position = true
  · have kept : (w.countInOrder oldest time listed position).1.perRule =
        clearAfter ((resize w.perRule listed).set position (some time)) position := if_pos turn
    rw [kept] at size short at_each ⊢
    have ends : (List.takeWhile (recent oldest) (clearAfter
        ((resize w.perRule listed).set position (some time)) position)).length ≤ position + 1 := by
      by_contra past
      have cleared := at_each (position + 1) (Nat.lt_of_not_le past)
      rw [List.getD_eq_getElem?_getD, getElem?_clearAfter] at cleared
      cases found : ((resize w.perRule listed).set position (some time))[position + 1]? with
      | none =>
        rw [found] at cleared
        cases cleared
      | some t =>
        rw [found, Option.map_some, if_pos (Nat.lt_succ_self position)] at cleared
        cases cleared
    refine Nat.le_add_of_sub_le (le_takeWhile fun i inside => ?_)
    have now := at_each i (by omega)
    have within : i < (resize w.perRule listed).length := by
      rw [resize_length]
      omega
    rwa [getD_clearAfter_set _ within (by omega), if_neg (by omega),
      getD_resize w.perRule (by rwa [resize_length] at within)] at now
  · have kept : (w.countInOrder oldest time listed position).1.perRule =
        resize w.perRule listed := if_neg turn
    rw [kept] at size short at_each ⊢
    refine (le_takeWhile fun i inside => ?_).trans (Nat.le_succ _)
    have now := at_each i inside
    rwa [getD_resize w.perRule (by omega)] at now

/-- One count adds at most one. -/
theorem held_watch_le (c : Correlation) (w : Window) (m : SourceMatch) :
    c.held (c.watch w m).1 (m.time - c.rule.span) ≤ c.held w (m.time - c.rule.span) + 1 ∧
      ∀ count, (c.watch w m).2 = some count → count ≤ c.held w (m.time - c.rule.span) + 1 := by
  unfold Correlation.held
  cases kind : c.rule.kind with
  | eventCount =>
    have watched : (c.watch w m).1.times =
        w.times.filter (fun t => decide (m.time - c.rule.span < t)) ++ [m.time] ∧
          (c.watch w m).2 =
            some (w.times.filter (fun t => decide (m.time - c.rule.span < t)) ++ [m.time]).length := by
      simp only [Correlation.watch, Correlation.observe, kind]
      exact ⟨rfl, rfl⟩
    rw [watched.1, watched.2]
    constructor
    · refine (List.length_filter_le _ _).trans ?_
      rw [List.length_append, List.length_singleton]
    · intro count same
      rw [← Option.some.inj same, List.length_append, List.length_singleton]
  | valueCount =>
    cases there : c.rule.valueOf m.fields with
    | none =>
      rw [watch_valueless kind w there]
      exact ⟨Nat.le_succ _, fun count absent => by cases absent⟩
    | some v =>
      have more : (remembered w.values (m.time - c.rule.span) m.time v).size ≤
          (w.values.retain fun _ t => decide (m.time - c.rule.span < t)).size + 1 := by
        unfold remembered
        dsimp only
        split
        · exact size_insert_le _ v m.time
        · exact Nat.le_succ _
      rw [(watch_value kind w there).1, (watch_value kind w there).2]
      refine ⟨(size_retain_le _ _).trans more, fun count same => ?_⟩
      rw [← Option.some.inj same]
      exact more
  | temporal =>
    have watched : (c.watch w m).1.perRule = (resize w.perRule c.sources.length).set
        ((c.sources.idxOf? m.source).getD 0) (some m.time) ∧
          (c.watch w m).2 = some ((c.watch w m).1.perRule.filter
            (recent (m.time - c.rule.span))).length := by
      simp only [Correlation.watch, Correlation.observe, kind]
      exact ⟨rfl, rfl⟩
    have more : ((c.watch w m).1.perRule.filter (recent (m.time - c.rule.span))).length ≤
        (w.perRule.filter (recent (m.time - c.rule.span))).length + 1 := by
      rw [watched.1]
      exact (length_filter_set_le _ _ _ _).trans
        (Nat.succ_le_succ (filter_resize_le _ w.perRule c.sources.length))
    refine ⟨more, fun count same => ?_⟩
    rw [watched.2] at same
    rw [← Option.some.inj same]
    exact more
  | temporalOrdered =>
    have watched : (c.watch w m).1.perRule = ((w.seen m.time).countInOrder (m.time - c.rule.span)
        m.time c.sources.length ((c.sources.idxOf? m.source).getD 0)).1.perRule ∧
          (c.watch w m).2 = some ((c.watch w m).1.perRule.takeWhile
            (recent (m.time - c.rule.span))).length := by
      simp only [Correlation.watch, Correlation.observe, kind]
      exact ⟨rfl, rfl⟩
    have more : ((c.watch w m).1.perRule.takeWhile (recent (m.time - c.rule.span))).length ≤
        (w.perRule.takeWhile (recent (m.time - c.rule.span))).length + 1 := by
      rw [watched.1]
      exact takeWhile_countInOrder_le (w.seen m.time) _ _ _ _
    refine ⟨more, fun count same => ?_⟩
    rw [watched.2] at same
    rw [← Option.some.inj same]
    exact more

theorem held_empty (c : Correlation) (oldest : Int) : c.held Window.empty oldest = 0 := by
  unfold Correlation.held
  cases c.rule.kind with
  | valueCount =>
    have none_held := size_retain_le (fun _ t => decide (oldest < t)) (∅ : Map String Int)
    exact Nat.le_zero.mp none_held
  | _ => rfl

/-- A match that is counted once adds at most one. -/
theorem comesTo_once {c : Correlation} {key : List String} {m : SourceMatch}
    (grouped : c.groupOf m.source m.fields = some key) :
    c.comesTo key m 1 ≤ c.heldAt key m + 1 := by
  obtain ⟨watched, counted⟩ := held_watch_le c (c.window key) m
  simp only [Correlation.comesTo, Correlation.heldAt, step_held, step_rule]
  cases counting_cases grouped with
  | refused _ silent same =>
    rw [silent, same, Option.elim_none]
    omega
  | quiet _ silent after =>
    rw [silent, after, Option.elim_none]
    omega
  | loud hit reported count _ forgotten =>
    have most := counted hit.count count
    rw [reported, forgotten, held_empty, Option.elim_some]
    exact most

/-! The same match again. -/

theorem seen_again {w v : Window} {time : Int} (latest : v.latest = (w.seen time).latest) :
    v.seen time = v := by
  have most : v.latest = some (w.latest.elim time fun latest => max latest time) := latest
  have same : v.latest.elim time (fun latest => max latest time) =
      w.latest.elim time (fun latest => max latest time) := by
    rw [most, Option.elim_some]
    cases w.latest with
    | none => exact max_self time
    | some t => exact max_eq_left (le_max_right t time)
  rw [Window.seen, same, ← most]

theorem resize_of_length {perRule : List (Option Int)} {listed : Nat}
    (size : perRule.length = listed) : resize perRule listed = perRule := by
  rw [resize, ← size, List.take_length, Nat.sub_self, List.replicate_zero, List.append_nil]

theorem remembered_again (values : Map String Int) {oldest time : Int} (young : oldest < time)
    (v : String) :
    remembered (remembered values oldest time v) oldest time v =
      remembered values oldest time v := by
  have recent_all : ∀ kept : Map String Int, (∀ u t, kept.lookup u = some t → oldest < t) →
      kept.retain (fun _ t => decide (oldest < t)) = kept := by
    intro kept all
    refine Finmap.ext_lookup fun u => ?_
    rw [lookup_retain]
    cases held : kept.lookup u with
    | none => rfl
    | some t => rw [Option.filter_some, if_pos (decide_eq_true (all u t held))]
  have kept_young : ∀ u t, (values.retain fun _ t => decide (oldest < t)).lookup u = some t →
      oldest < t := fun u t held => of_decide_eq_true (lookup_retain_eq_some.mp held).2
  by_cases room : (values.retain fun _ t => decide (oldest < t)).size < maxValues ∨
      v ∈ values.retain fun _ t => decide (oldest < t)
  · have once : remembered values oldest time v =
        (values.retain fun _ t => decide (oldest < t)).insert v time := if_pos room
    have all : ∀ u t, ((values.retain fun _ t => decide (oldest < t)).insert v time).lookup u =
        some t → oldest < t := by
      intro u t held
      rw [lookup_insert_eq] at held
      split at held
      · exact Option.some.inj held ▸ young
      · exact kept_young u t held
    rw [once, remembered, recent_all _ all, if_pos (Or.inr (Finmap.mem_insert.mpr (Or.inl rfl))),
      Finmap.insert_insert]
  · have once : remembered values oldest time v =
        values.retain fun _ t => decide (oldest < t) := if_neg room
    rw [once, remembered, recent_all _ kept_young, if_neg room]

theorem clearAfter_again (perRule : List (Option Int)) (position : Nat) (t : Option Int) :
    clearAfter ((clearAfter (perRule.set position t) position).set position t) position =
      clearAfter (perRule.set position t) position := by
  refine List.ext_getElem? fun i => ?_
  rw [getElem?_clearAfter, List.getElem?_set, getElem?_clearAfter, List.getElem?_set, clearAfter,
    List.length_mapIdx, List.length_set]
  by_cases same : position = i
  · subst same
    rw [if_pos rfl, if_pos rfl]
  · rw [if_neg same, if_neg same]
    cases perRule[i]? with
    | none => rfl
    | some u =>
      simp only [Option.map_some]
      split <;> rfl

theorem perRule_again (w : Window) (oldest time : Int) (listed position : Nat) :
    ((w.countInOrder oldest time listed position).1.countInOrder oldest time listed
      position).1.perRule = (w.countInOrder oldest time listed position).1.perRule := by
  have size := length_countInOrder w oldest time listed position
  by_cases turn : inOrder (resize w.perRule listed) oldest time position = true
  · have kept : (w.countInOrder oldest time listed position).1.perRule =
        clearAfter ((resize w.perRule listed).set position (some time)) position := if_pos turn
    rw [kept] at size
    have still : inOrder (clearAfter ((resize w.perRule listed).set position (some time)) position)
        oldest time position = true := by
      cases position with
      | zero => rfl
      | succ i =>
        have within : i < (resize w.perRule listed).length := by
          by_contra past
          rw [inOrder, Nat.add_sub_cancel, List.getD_eq_getElem?_getD,
            List.getElem?_eq_none (Nat.le_of_not_lt past)] at turn
          cases turn
        rw [inOrder, Nat.add_sub_cancel, getD_clearAfter_set _ within (Nat.le_succ i),
          if_neg (Nat.ne_of_lt (Nat.lt_succ_self i))]
        exact turn
    have again : ((w.countInOrder oldest time listed position).1.countInOrder oldest time listed
        position).1.perRule = clearAfter ((clearAfter ((resize w.perRule listed).set position
          (some time)) position).set position (some time)) position := by
      have reads : resize (w.countInOrder oldest time listed position).1.perRule listed =
          clearAfter ((resize w.perRule listed).set position (some time)) position := by
        rw [kept, resize_of_length size]
      rw [← reads] at still ⊢
      exact if_pos still
    rw [again, kept, clearAfter_again]
  · have kept : (w.countInOrder oldest time listed position).1.perRule = resize w.perRule listed :=
      if_neg turn
    rw [kept] at size
    have reads : resize (w.countInOrder oldest time listed position).1.perRule listed =
        resize w.perRule listed := by
      rw [kept, resize_of_length size]
    rw [← reads] at turn
    have again : ((w.countInOrder oldest time listed position).1.countInOrder oldest time listed
        position).1.perRule = resize (w.countInOrder oldest time listed position).1.perRule listed :=
      if_neg turn
    rw [again, reads, kept]

theorem countInOrder_again (w : Window) (oldest time : Int) (listed position : Nat) :
    (w.countInOrder oldest time listed position).1.countInOrder oldest time listed position =
      w.countInOrder oldest time listed position := by
  have made : ∀ v : Window, v.countInOrder oldest time listed position =
      ({ v with perRule := (v.countInOrder oldest time listed position).1.perRule },
        ((v.countInOrder oldest time listed position).1.perRule.takeWhile
          (recent oldest)).length) := fun _ => rfl
  rw [made (w.countInOrder oldest time listed position).1, perRule_again]
  rfl

theorem countRule_again (w : Window) (oldest time : Int) (listed position : Nat) :
    (w.countRule oldest time listed position).1.countRule oldest time listed position =
      w.countRule oldest time listed position := by
  have size : ((resize w.perRule listed).set position (some time)).length = listed := by
    rw [List.length_set, resize_length]
  simp only [Window.countRule, resize_of_length size, List.set_set]

theorem countValue_again (w : Window) {oldest time : Int} (young : oldest < time) (v : String) :
    (w.countValue oldest time v).1.countValue oldest time v = w.countValue oldest time v := by
  have made : ∀ u : Window, u.countValue oldest time v =
      ({ u with values := remembered u.values oldest time v },
        (remembered u.values oldest time v).size) := fun _ => rfl
  rw [made w, made, remembered_again _ young]

/-- Only an event counts again. -/
theorem watch_again {c : Correlation} (kind : c.rule.kind ≠ .eventCount) (w : Window)
    (m : SourceMatch) : c.watch (c.watch w m).1 m = c.watch w m := by
  have still : (c.watch w m).1.seen m.time = (c.watch w m).1 :=
    seen_again (observe_latest c (w.seen m.time) _ m.fields m.time)
  have young : m.time - c.rule.span < m.time := by
    have positive := span_pos c.rule
    omega
  cases its_kind : c.rule.kind with
  | eventCount => exact absurd its_kind kind
  | valueCount =>
    cases there : c.rule.valueOf m.fields with
    | none =>
      rw [watch_valueless its_kind _ there, still, watch_valueless its_kind w there]
    | some v =>
      have made : ∀ u, c.watch u m =
          ((u.seen m.time).countValue (m.time - c.rule.span) m.time v).map id some := by
        intro u
        simp only [Correlation.watch, Correlation.observe, its_kind, there]
      rw [made, still, made]
      exact congrArg (Prod.map id some) (countValue_again _ young v)
  | temporal =>
    have made : ∀ u, c.watch u m = ((u.seen m.time).countRule (m.time - c.rule.span) m.time
        c.sources.length ((c.sources.idxOf? m.source).getD 0)).map id some := by
      intro u
      simp only [Correlation.watch, Correlation.observe, its_kind]
    rw [made, still, made]
    exact congrArg (Prod.map id some) (countRule_again _ _ _ _ _)
  | temporalOrdered =>
    have made : ∀ u, c.watch u m = ((u.seen m.time).countInOrder (m.time - c.rule.span) m.time
        c.sources.length ((c.sources.idxOf? m.source).getD 0)).map id some := by
      intro u
      simp only [Correlation.watch, Correlation.observe, its_kind]
    rw [made, still, made]
    exact congrArg (Prod.map id some) (countInOrder_again _ _ _ _ _)

/-- Without a hit, a match that has been counted adds nothing more. -/
theorem comesTo_settled {c : Correlation} {key : List String} {m : SourceMatch}
    (grouped : c.groupOf m.source m.fields = some key)
    (same : (c.watch (c.window key) m).1 = c.window key)
    (quiet : c.windowHit (c.window key) m = false) (n : Nat) :
    c.comesTo key m n = c.heldAt key m := by
  induction n generalizing c with
  | zero => rfl
  | succ n ih =>
    have next : ∀ w, w = c.window key → (c.step m).window key = w →
        (c.step m).comesTo key m n = c.heldAt key m := by
      intro w its after
      have still := ih (c := c.step m) (by rw [step_groupOf]; exact grouped)
        (by rw [step_watch, after, its]; exact same)
        (by rw [Correlation.windowHit, step_watch, step_rule, after, its]; exact quiet)
      rw [still, Correlation.heldAt, Correlation.heldAt, step_held, step_rule, after, its]
    rw [Correlation.comesTo]
    cases counting_cases grouped with
    | refused _ silent after =>
      rw [silent, Option.elim_none, Nat.zero_add]
      exact next _ rfl after
    | quiet _ silent after =>
      rw [silent, Option.elim_none, Nat.zero_add]
      exact next _ same after
    | loud hit _ count enough =>
      rw [Correlation.windowHit, count, Option.any_some, decide_eq_true enough] at quiet
      cases quiet

/-- What a match comes to that is counted over and over is decided by what its first hit leaves. -/
theorem comesTo_le {c : Correlation} {key : List String} {m : SourceMatch}
    (kind : c.rule.kind ≠ .eventCount) (grouped : c.groupOf m.source m.fields = some key)
    (after_hit : ∀ count (live : Correlation) n, (c.watch (c.window key) m).2 = some count →
      c.rule.atLeast ≤ count → live.rule = c.rule → live.sources = c.sources →
      live.window key = Window.empty → count + live.comesTo key m n ≤ c.heldAt key m + 1) (n : Nat) :
    c.comesTo key m n ≤ c.heldAt key m + 1 := by
  induction n generalizing c with
  | zero => exact Nat.le_succ _
  | succ n ih =>
    have held : (c.step m).window key = c.window key → (c.step m).heldAt key m = c.heldAt key m := by
      intro after
      rw [Correlation.heldAt, Correlation.heldAt, step_held, step_rule, after]
    rw [Correlation.comesTo]
    cases counting_cases grouped with
    | refused _ silent after =>
      rw [silent, Option.elim_none, Nat.zero_add]
      rw [← held after]
      refine ih (by rwa [step_rule]) (by rwa [step_groupOf]) fun count live k counted enough rule
        sources empty => ?_
      rw [held after]
      rw [step_watch, after] at counted
      rw [step_rule] at enough rule
      rw [step_sources] at sources
      exact after_hit count live k counted enough rule sources empty
    | quiet below silent after =>
      rw [silent, Option.elim_none, Nat.zero_add,
        comesTo_settled (by rwa [step_groupOf]) (by rw [step_watch, after, watch_again kind])
          (by rwa [Correlation.windowHit, step_watch, step_rule, after, watch_again kind]),
        Correlation.heldAt, step_held, step_rule, after]
      exact (held_watch_le c (c.window key) m).1
    | loud hit reported count enough forgotten =>
      rw [reported, Option.elim_some]
      exact after_hit hit.count (c.step m) n count enough (step_rule c m) (step_sources c m)
        forgotten

end SentinelAgent.Scanner
