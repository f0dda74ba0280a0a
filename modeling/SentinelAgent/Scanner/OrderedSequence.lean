import Mathlib.Data.List.TakeWhile
import SentinelAgent.Scanner.OneGroup
import SentinelAgent.Scanner.ParseCorrelation

/-!
When an ordered correlation holds. A window keeps one time for each listed rule, and a rule that
matches again takes the times of the rules listed after it away.
-/
namespace SentinelAgent.Scanner

/- Where these rules match in a run, each after the one listed before it, the last of them at the
   end of the run and all within one timespan. -/
structure MatchedInOrder (c : Correlation) (listed : List Source) (ms : List SourceMatch)
    (place : Nat → Nat) : Prop where
  source : ∀ i, i < listed.length → ∃ m, ms[place i]? = some m ∧ listed[i]? = some m.source
  increasing : ∀ i, i + 1 < listed.length → place i < place (i + 1)
  ends : place (listed.length - 1) + 1 = ms.length
  close : ∀ i m last, i < listed.length → ms[place i]? = some m → ms.getLast? = some last →
    last.time - c.rule.span < m.time

/- No rule matches again once the one listed after it has. -/
def Unrepeated (listed : List Source) (ms : List SourceMatch) (place : Nat → Nat) : Prop :=
  ∀ i j m, i + 1 < listed.length → place (i + 1) < j → ms[j]? = some m →
    listed[i]? ≠ some m.source

/- Whether one of these matches is reported. -/
def reportsIn : Correlation → List SourceMatch → Bool
  | _, [] => false
  | c, m :: ms => (c.reports m).isSome || reportsIn (c.step m) ms

/- The matches as they are counted, each so many times. -/
def repeated (copies : SourceMatch → Nat) (ms : List SourceMatch) : List SourceMatch :=
  ms.flatMap fun m => List.replicate (copies m) m

theorem reportsIn_append (c : Correlation) (ms more : List SourceMatch) :
    reportsIn c (ms ++ more) =
      (reportsIn c ms || reportsIn (Runs.run Correlation.step c ms) more) := by
  induction ms generalizing c with
  | nil => rfl
  | cons m ms ih => simp only [List.cons_append, reportsIn, ih, Runs.run_cons, Bool.or_assoc]

theorem repeated_append (copies : SourceMatch → Nat) (ms more : List SourceMatch) :
    repeated copies (ms ++ more) = repeated copies ms ++ repeated copies more :=
  List.flatMap_append

theorem repeated_one (ms : List SourceMatch) : repeated (fun _ => 1) ms = ms :=
  List.flatMap_singleton' ms

theorem repeated_singleton (copies : SourceMatch → Nat) (m : SourceMatch) :
    repeated copies [m] = List.replicate (copies m) m :=
  List.append_nil _

theorem mem_of_repeated {copies : SourceMatch → Nat} {ms : List SourceMatch} {m : SourceMatch}
    (counted : m ∈ repeated copies ms) : m ∈ ms := by
  obtain ⟨n, among, copy⟩ := List.mem_flatMap.mp counted
  rw [List.eq_of_mem_replicate copy]
  exact among

theorem inOrder_repeated (copies : SourceMatch → Nat) {ms : List SourceMatch}
    (ordered : InOrder ms) : InOrder (repeated copies ms) := by
  induction ms with
  | nil => exact List.Pairwise.nil
  | cons m ms ih =>
    obtain ⟨first, rest⟩ := List.pairwise_cons.mp ordered
    refine List.pairwise_append.mpr ⟨?_, ih rest, ?_⟩
    · exact List.pairwise_replicate.mpr (Or.inr (le_refl m.time))
    · intro a copy b later
      rw [List.eq_of_mem_replicate copy]
      exact first b (mem_of_repeated later)

theorem inGroup_repeated (copies : SourceMatch → Nat) {c : Correlation} {key : List String}
    {ms : List SourceMatch} (grouped : InGroup c key ms) : InGroup c key (repeated copies ms) :=
  fun m counted => grouped m (mem_of_repeated counted)

theorem MatchedInOrder.apart {c : Correlation} {listed : List Source} {ms : List SourceMatch}
    {place : Nat → Nat} (matched : MatchedInOrder c listed ms place) {i j : Nat} (before : i ≤ j)
    (inside : j < listed.length) : place i ≤ place j := by
  induction j, before using Nat.le_induction with
  | base => exact Nat.le_refl _
  | succ j _ ih =>
    have next := matched.increasing j inside
    exact (ih (by omega)).trans next.le

/-! One match. -/

theorem watch_inOrder {c : Correlation} (kind : c.rule.kind = .temporalOrdered) (w : Window)
    (m : SourceMatch) {position : Nat} (listed : c.sources.idxOf? m.source = some position) :
    c.watch w m = ((w.seen m.time).countInOrder (m.time - c.rule.span) m.time c.sources.length
      position).map id some := by
  simp only [Correlation.watch, Correlation.observe, kind, listed, Option.getD_some]

theorem length_countInOrder (w : Window) (oldest time : Int) (listed position : Nat) :
    (w.countInOrder oldest time listed position).1.perRule.length = listed := by
  unfold Window.countInOrder
  dsimp only
  split
  · rw [clearAfter, List.length_mapIdx, List.length_set, resize_length]
  · exact resize_length _ _

/- Each time kept is that of a match. -/
def Dated (w : Window) (fed : List SourceMatch) : Prop :=
  ∀ t, some t ∈ w.perRule → ∃ n ∈ fed, n.time = t

theorem dated_mono {w : Window} {fed more : List SourceMatch} (all : ∀ n ∈ fed, n ∈ more)
    (dated : Dated w fed) : Dated w more := by
  intro t held
  obtain ⟨n, among, time⟩ := dated t held
  exact ⟨n, all n among, time⟩

theorem dated_watch {c : Correlation} (kind : c.rule.kind = .temporalOrdered) {w : Window}
    {fed : List SourceMatch} (dated : Dated w fed) {m : SourceMatch} {position : Nat}
    (listed : c.sources.idxOf? m.source = some position) :
    Dated (c.watch w m).1 (fed ++ [m]) := by
  intro t held
  rw [watch_inOrder kind w m listed] at held
  rcases mem_countInOrder held with now | old
  · exact ⟨m, List.mem_append_right fed (List.mem_singleton_self m), now.symm⟩
  · obtain ⟨n, among, time⟩ := dated t old
    exact ⟨n, List.mem_append_left [m] among, time⟩

/- The rules that matched before place `l` of the run are counted, each from its place on. -/
def CountedTo (listed : List Source) (ms : List SourceMatch) (place : Nat → Nat) (l : Nat)
    (w : Window) : Prop :=
  ∀ i m, i < listed.length → place i < l → ms[place i]? = some m →
    ∃ t, w.perRule.getD i none = some t ∧ m.time ≤ t

theorem countedTo_mono {listed : List Source} {ms : List SourceMatch} {place : Nat → Nat}
    {l k : Nat} {w : Window} (fewer : k ≤ l) (counted : CountedTo listed ms place l w) :
    CountedTo listed ms place k w :=
  fun i m inside placed found => counted i m inside (placed.trans_le fewer) found

theorem getD_clearAfter_set {perRule : List (Option Int)} {position i : Nat} (t : Option Int)
    (inside : i < perRule.length) (before : i ≤ position) :
    (clearAfter (perRule.set position t) position).getD i none =
      if i = position then t else perRule.getD i none := by
  have not_cleared : ¬ position < i := Nat.not_lt_of_le before
  rw [List.getD_eq_getElem?_getD, getElem?_clearAfter, List.getElem?_set,
    List.getD_eq_getElem?_getD, List.getElem?_eq_getElem inside]
  by_cases same : i = position
  · subst same
    rw [if_pos rfl, if_pos inside, if_pos rfl, Option.map_some, if_neg not_cleared]
    rfl
  · rw [if_neg (Ne.symm same), if_neg same, Option.map_some, if_neg not_cleared]

theorem mem_of_getD {perRule : List (Option Int)} {i : Nat} {t : Int}
    (held : perRule.getD i none = some t) : some t ∈ perRule := by
  rw [List.getD_eq_getElem?_getD] at held
  cases found : perRule[i]? with
  | none =>
    rw [found] at held
    cases held
  | some u =>
    rw [found, Option.getD_some] at held
    exact held ▸ List.mem_of_getElem? found

theorem time_le {ms : List SourceMatch} (ordered : InOrder ms) {i j : Nat} {m n : SourceMatch}
    (first : ms[i]? = some m) (second : ms[j]? = some n) (before : i ≤ j) : m.time ≤ n.time := by
  rcases Nat.lt_or_eq_of_le before with earlier | same
  · obtain ⟨inside, rfl⟩ := List.getElem?_eq_some_iff.mp first
    obtain ⟨inside_too, rfl⟩ := List.getElem?_eq_some_iff.mp second
    exact List.pairwise_iff_getElem.mp ordered i j inside inside_too earlier
  · rw [same, second] at first
    rw [Option.some.inj first]

/-- The first matches are recent until the end. -/
theorem still_young {c : Correlation} {listed : List Source} {ms : List SourceMatch}
    {place : Nat → Nat} (matched : MatchedInOrder c listed ms place) (ordered : InOrder ms)
    {l i : Nat} {m n : SourceMatch} (here : ms[l]? = some m) (inside : i < listed.length)
    (found : ms[place i]? = some n) : m.time - c.rule.span < n.time := by
  have within := (List.getElem?_eq_some_iff.mp here).1
  have last_inside : ms.length - 1 < ms.length := by omega
  have some_last : ms[ms.length - 1]? = some ms[ms.length - 1] :=
    List.getElem?_eq_getElem last_inside
  have close := matched.close i n _ inside found (List.getLast?_eq_getElem?.trans some_last)
  have later := time_le ordered here some_last (by omega)
  omega

/- The match at place `l` of a run, of the rule at this position. -/
structure MatchAt (c : Correlation) (ms : List SourceMatch) (l : Nat) (m : SourceMatch)
    (position : Nat) : Prop where
  here : ms[l]? = some m
  listed : c.sources.idxOf? m.source = some position

theorem idxOf?_le {sources : List Source} {source : Source} {position i : Nat}
    (listed : sources.idxOf? source = some position) (found : sources[i]? = some source) :
    position ≤ i := by
  obtain ⟨_, _, first⟩ := List.idxOf?_eq_some_iff.mp listed
  by_contra before
  obtain ⟨inside, same⟩ := List.getElem?_eq_some_iff.mp found
  exact absurd same (first i (Nat.lt_of_not_le before))

/- The rules that have to match are the first of those listed. -/
structure FirstListed (c : Correlation) (listed : List Source) : Prop where
  first : listed <+: c.sources
  once : listed.Nodup

section Match

variable {c : Correlation} {listed : List Source} {ms fed : List SourceMatch} {place : Nat → Nat}
  {l position : Nat} {m : SourceMatch} {w : Window}

theorem FirstListed.getElem? (firsts : FirstListed c listed) {i : Nat}
    (inside : i < listed.length) : c.sources[i]? = listed[i]? := by
  obtain ⟨rest, whole⟩ := firsts.first
  rw [← whole, List.getElem?_append_left inside]

/-- Only the place of the rule that matches is taken. -/
theorem taken_place (firsts : FirstListed c listed) (matched : MatchedInOrder c listed ms place)
    (now : MatchAt c ms l m position) {i : Nat} (inside : i < listed.length)
    (same : place i = l) : i = position := by
  obtain ⟨n, found, source⟩ := matched.source i inside
  rw [same, now.here] at found
  cases found
  have before := idxOf?_le now.listed ((firsts.getElem? inside).trans source)
  have its := idxOf?_listed now.listed
  rw [firsts.getElem? (before.trans_lt inside)] at its
  exact (List.getElem?_inj inside firsts.once).mp (source.trans its.symm)

/-- A rule that has matched by now is not listed after the one that matches. -/
theorem not_listed_after (firsts : FirstListed c listed)
    (matched : MatchedInOrder c listed ms place) (unrepeated : Unrepeated listed ms place)
    (now : MatchAt c ms l m position) {i : Nat} (inside : i < listed.length)
    (placed : place i < l + 1) : i ≤ position := by
  by_contra after
  have next : place (position + 1) ≤ place i := matched.apart (Nat.lt_of_not_le after) inside
  by_cases taken : place (position + 1) = l
  · have same := taken_place firsts matched now (by omega) taken
    omega
  · have its := idxOf?_listed now.listed
    rw [firsts.getElem? (by omega)] at its
    exact unrepeated position l m (by omega) (by omega) now.here its

/-- The rule whose turn it is finds the one before it counted. -/
theorem in_turn (firsts : FirstListed c listed) (matched : MatchedInOrder c listed ms place)
    (ordered : InOrder ms) (now : MatchAt c ms l m position) (dated : Dated w fed)
    (past : ∀ n ∈ fed, n.time ≤ m.time) (counted : CountedTo listed ms place l w)
    (inside : position < listed.length) (turn : place position = l) :
    inOrder (resize w.perRule c.sources.length) (m.time - c.rule.span) m.time position = true := by
  cases position with
  | zero => rfl
  | succ i =>
    have size := firsts.first.length_le
    have earlier := matched.increasing i inside
    obtain ⟨n, found, _⟩ := matched.source i (by omega)
    obtain ⟨t, held, later⟩ := counted i n (by omega) (by omega) found
    obtain ⟨k, fed_too, time⟩ := dated t (mem_of_getD held)
    have before := past k fed_too
    have young := still_young matched ordered now.here (by omega) found
    simp only [inOrder, Nat.add_sub_cancel, held, recent, Option.any_some, Bool.or_eq_true,
      getD_resize w.perRule (show i < c.sources.length by omega), Bool.and_eq_true,
      decide_eq_true_eq]
    exact Or.inr ⟨by omega, by omega⟩

theorem countedTo_watch (kind : c.rule.kind = .temporalOrdered) (firsts : FirstListed c listed)
    (matched : MatchedInOrder c listed ms place) (unrepeated : Unrepeated listed ms place)
    (ordered : InOrder ms) (now : MatchAt c ms l m position) (dated : Dated w fed)
    (past : ∀ n ∈ fed, n.time ≤ m.time) (counted : CountedTo listed ms place l w) :
    CountedTo listed ms place (l + 1) (c.watch w m).1 := by
  intro i n inside placed found
  have behind := not_listed_after firsts matched unrepeated now inside placed
  have within : i < c.sources.length := inside.trans_le firsts.first.length_le
  have room : i < (resize w.perRule c.sources.length).length := by rwa [resize_length]
  have earlier : n.time ≤ m.time := time_le ordered found now.here (Nat.le_of_lt_succ placed)
  rw [watch_inOrder kind w m now.listed]
  by_cases turn : inOrder (resize w.perRule c.sources.length) (m.time - c.rule.span) m.time
      position = true
  · have kept : ((w.seen m.time).countInOrder (m.time - c.rule.span) m.time c.sources.length
        position).1.perRule = clearAfter ((resize w.perRule c.sources.length).set position
          (some m.time)) position := if_pos turn
    change ∃ t, (((w.seen m.time).countInOrder _ _ _ _).1.perRule).getD i none = some t ∧ _
    rw [kept, getD_clearAfter_set _ room behind, getD_resize w.perRule within]
    split
    · exact ⟨m.time, rfl, earlier⟩
    · rename_i differs
      have before : place i ≠ l := fun same => differs (taken_place firsts matched now inside same)
      exact counted i n inside (by omega) found
  · have kept : ((w.seen m.time).countInOrder (m.time - c.rule.span) m.time c.sources.length
        position).1.perRule = resize w.perRule c.sources.length := if_neg turn
    change ∃ t, (((w.seen m.time).countInOrder _ _ _ _).1.perRule).getD i none = some t ∧ _
    rw [kept, getD_resize w.perRule within]
    have before : place i ≠ l := by
      intro same
      have its := taken_place firsts matched now inside same
      rw [its] at same inside
      exact turn (in_turn firsts matched ordered now dated past counted inside same)
    exact counted i n inside (by omega) found

theorem le_takeWhile {oldest : Int} {perRule : List (Option Int)} {k : Nat}
    (all : ∀ i, i < k → recent oldest (perRule.getD i none) = true) :
    k ≤ (perRule.takeWhile (recent oldest)).length := by
  induction perRule generalizing k with
  | nil =>
    by_contra some_rule
    have none_there := all 0 (Nat.pos_of_ne_zero fun no_rule => some_rule (no_rule ▸ Nat.zero_le _))
    cases none_there
  | cons t perRule ih =>
    cases k with
    | zero => exact Nat.zero_le _
    | succ k =>
      have here : recent oldest t = true := all 0 (Nat.succ_pos k)
      rw [List.takeWhile_cons, if_pos here, List.length_cons]
      exact Nat.succ_le_succ (ih fun i inside => all (i + 1) (Nat.succ_lt_succ inside))

/-- With all of these rules counted, the correlation holds. -/
theorem full_hit (kind : c.rule.kind = .temporalOrdered) (enough : c.rule.atLeast ≤ listed.length)
    (matched : MatchedInOrder c listed ms place) (ordered : InOrder ms)
    (now : MatchAt c ms l m position) (ends : l + 1 = ms.length)
    (counted : CountedTo listed ms place (l + 1) (c.watch w m).1) :
    c.windowHit w m = true := by
  rw [watch_inOrder kind w m now.listed] at counted
  let perRule := ((w.seen m.time).countInOrder (m.time - c.rule.span) m.time c.sources.length
    position).1.perRule
  have all : ∀ i, i < listed.length →
      recent (m.time - c.rule.span) (perRule.getD i none) = true := by
    intro i inside
    obtain ⟨n, found, _⟩ := matched.source i inside
    have placed : place i < l + 1 := by
      have last := matched.apart (show i ≤ listed.length - 1 by omega) (by omega)
      have at_end := matched.ends
      omega
    obtain ⟨u, kept, later⟩ := counted i n inside placed found
    have young := still_young matched ordered now.here inside found
    rw [show perRule.getD i none = some u from kept]
    exact decide_eq_true (by omega)
  rw [Correlation.windowHit, watch_inOrder kind w m now.listed]
  exact decide_eq_true (enough.trans (le_takeWhile all))

end Match

end SentinelAgent.Scanner
