import SentinelAgent.Scanner.SlidingWindow

/-!
A run whose matches are all of one group. The correlation keeps one window at most, so what it
does is what its window does, match after match, and starts again with each hit.
-/
namespace SentinelAgent.Scanner

open Maps

/- What the group's window and a match come to. -/
def Correlation.watch (c : Correlation) (w : Window) (m : SourceMatch) : Window × Option Nat :=
  c.observe (w.seen m.time) ((c.sources.idxOf? m.source).getD 0) m.fields m.time

def Correlation.windowHit (c : Correlation) (w : Window) (m : SourceMatch) : Bool :=
  (c.watch w m).2.any fun count => decide (c.rule.atLeast ≤ count)

def Correlation.windowAfter (c : Correlation) (w : Window) (m : SourceMatch) : Window :=
  if c.windowHit w m then Window.empty else (c.watch w m).1

/- A correlation and the matches since it last reported. -/
structure Followed where
  live : Correlation
  since : List SourceMatch

def Followed.step (s : Followed) (m : SourceMatch) : Followed where
  live := s.live.step m
  since := if (s.live.reports m).isSome then [] else s.since ++ [m]

def followed (c : Correlation) (ms : List SourceMatch) : Followed :=
  Runs.run Followed.step { live := c, since := [] } ms

/- The matches since the last hit. -/
def sinceReport (c : Correlation) (ms : List SourceMatch) : List SourceMatch :=
  (followed c ms).since

def InGroup (c : Correlation) (key : List String) (ms : List SourceMatch) : Prop :=
  ∀ m ∈ ms, c.groupOf m.source m.fields = some key

theorem followed_append (c : Correlation) (ms : List SourceMatch) (m : SourceMatch) :
    followed c (ms ++ [m]) = (followed c ms).step m := by
  rw [followed, Runs.run_append]
  rfl

theorem followed_live (c : Correlation) (ms : List SourceMatch) :
    (followed c ms).live = Runs.run Correlation.step c ms := by
  induction ms using List.reverseRecOn with
  | nil => rfl
  | append_singleton ms m ih =>
    rw [followed_append, Runs.run_append, ← ih]
    rfl

theorem sinceReport_suffix (c : Correlation) (ms : List SourceMatch) :
    sinceReport c ms <:+ ms := by
  unfold sinceReport
  induction ms using List.reverseRecOn with
  | nil => exact List.suffix_refl []
  | append_singleton ms m ih =>
    rw [followed_append, Followed.step]
    split
    · exact List.nil_suffix
    · obtain ⟨before, split⟩ := ih
      exact ⟨before, by rw [← List.append_assoc, split]⟩

/- The correlation `live`, started as `c`, keeps this window of this group and no other. -/
structure Alone (c : Correlation) (key : List String) (w : Window) (live : Correlation) : Prop where
  rule : live.rule = c.rule
  sources : live.sources = c.sources
  window : live.window key = w
  others : ∀ other, other ≠ key → live.groups.lookup other = none

theorem alone_fresh {c : Correlation} (key : List String) (fresh : c.groups = ∅) :
    Alone c key Window.empty c where
  rule := rfl
  sources := rfl
  window := by rw [Correlation.window, fresh, Finmap.lookup_empty]; rfl
  others other _ := by rw [fresh, Finmap.lookup_empty]

/-- There is always room for one group, and making it forgets nothing. -/
theorem alone_room {c live : Correlation} {key : List String} {w : Window}
    (alone : Alone c key w live) (oldest : Int) :
    (makeRoom live.groups key oldest).2 = true ∧
      Alone c key w { live with groups := (makeRoom live.groups key oldest).1 } := by
  constructor
  · by_contra refused
    obtain ⟨_, many⟩ := makeRoom_refused (Bool.eq_false_iff.mpr refused)
    have one : Map.size (live.groups.retain fun _ w => recent oldest w.latest) ≤
        ({key} : Finset (List String)).card := by
      refine size_le_card fun other v held => Finset.mem_singleton.mpr ?_
      by_contra differs
      have absent := alone.others other differs
      rw [(lookup_retain_eq_some.mp held).1] at absent
      cases absent
    rw [Finset.card_singleton] at one
    have larger : 1 < maxGroups := by decide
    omega
  · refine ⟨alone.rule, alone.sources, ?_, fun other differs => ?_⟩
    · rw [← alone.window]
      unfold makeRoom Correlation.window
      split
      · rename_i full
        have absent : live.groups.lookup key = none := by
          by_contra held
          exact full.1 (mem_iff_lookup.mpr (Option.ne_none_iff_exists'.mp held))
        rw [lookup_retain, absent]
        rfl
      · rfl
    · by_contra held
      obtain ⟨v, found⟩ := Option.ne_none_iff_exists'.mp held
      have before := mem_of_lookup_makeRoom found
      rw [alone.others other differs] at before
      cases before

/-- One match of the group. -/
theorem alone_step {c live : Correlation} {key : List String} {w : Window} {m : SourceMatch}
    (alone : Alone c key w live) (grouped : c.groupOf m.source m.fields = some key) :
    (live.reports m).isSome = c.windowHit w m ∧ Alone c key (c.windowAfter w m) (live.step m) := by
  have same_group : live.groupOf m.source m.fields = some key := by
    rw [← grouped, Correlation.groupOf, Correlation.groupOf, alone.rule, alone.sources]
  unfold Correlation.reports Correlation.step
  obtain ⟨ungrouped, _⟩ | ⟨other, position, its_group, listed, out⟩ :=
    count_cases live m.source m.fields m.time
  · rw [same_group] at ungrouped
    cases ungrouped
  rw [same_group] at its_group
  cases its_group
  obtain ⟨room, kept⟩ := alone_room alone (m.time - live.rule.span)
  obtain ⟨refused, _⟩ | ⟨_, into⟩ := out
  · rw [room] at refused
    cases refused
  rw [into]
  have watched : c.watch w m =
      ({ live with groups := (makeRoom live.groups key (m.time - live.rule.span)).1 } :
        Correlation).observe (w.seen m.time) position m.fields m.time := by
    rw [alone.sources] at listed
    simp only [Correlation.watch, Correlation.observe, listed, Option.getD_some, alone.rule,
      alone.sources]
  obtain ⟨v, counted, observed, ⟨stays, below⟩ | ⟨count, reached, enough, reported⟩⟩ :=
    countIn_cases { live with groups := (makeRoom live.groups key (m.time - live.rule.span)).1 }
      key position m.fields m.time
  · rw [kept.window, ← watched] at observed
    have quiet : c.windowHit w m = false := by
      rw [Correlation.windowHit, observed, Option.any_eq_false]
      intro count same
      have small := below count same
      rw [← alone.rule, decide_eq_false_iff_not]
      exact Nat.not_le_of_lt small
    rw [stays, quiet, Correlation.windowAfter, quiet, observed]
    refine ⟨rfl, alone.rule, alone.sources, ?_, fun other differs => ?_⟩
    · exact window_put.trans (if_pos rfl)
    · rw [lookup_insert_eq, if_neg differs]
      exact kept.others other differs
  · rw [kept.window, ← watched] at observed
    have loud : c.windowHit w m = true := by
      rw [Correlation.windowHit, observed, reached, Option.any_some, ← alone.rule,
        decide_eq_true_iff]
      exact enough
    rw [reported, loud, Correlation.windowAfter, loud]
    refine ⟨rfl, alone.rule, alone.sources, ?_, fun other differs => ?_⟩
    · exact window_forget.trans (if_pos rfl)
    · rw [lookup_erase_eq, if_neg differs]
      exact kept.others other differs

/-- What holds of the empty window, and of a window and the matches since the last hit after each
    match that is no hit, holds in every run in one group. -/
theorem one_group_invariant {c : Correlation} {key : List String}
    {I : Window → List SourceMatch → Prop} (start : I Window.empty [])
    (keep : ∀ w since m, I w since → c.groupOf m.source m.fields = some key →
      InOrder (since ++ [m]) → c.windowHit w m = false → I (c.watch w m).1 (since ++ [m]))
    (fresh : c.groups = ∅) {ms : List SourceMatch} (inOrder : InOrder ms)
    (grouped : InGroup c key ms) :
    ∃ w, Alone c key w (Runs.run Correlation.step c ms) ∧ I w (sinceReport c ms) := by
  induction ms using List.reverseRecOn with
  | nil => exact ⟨Window.empty, alone_fresh key fresh, start⟩
  | append_singleton ms m ih =>
    have here := grouped m (List.mem_append_right ms (List.mem_singleton_self m))
    obtain ⟨w, alone, holds⟩ := ih (inOrder_append.mp inOrder).1
      fun n among => grouped n (List.mem_append_left [m] among)
    obtain ⟨hit, after⟩ := alone_step alone here
    refine ⟨c.windowAfter w m, ?_, ?_⟩
    · rw [Runs.run_append]
      exact after
    · rw [sinceReport, followed_append, Followed.step, followed_live, hit]
      unfold Correlation.windowAfter
      cases loud : c.windowHit w m with
      | true => exact start
      | false =>
        refine keep w _ m holds here ?_ loud
        obtain ⟨before, split⟩ := sinceReport_suffix c ms
        rw [← split, List.append_assoc] at inOrder
        exact (List.pairwise_append.mp inOrder).2.1

/-- The parts of a run in one group, for its last match. -/
theorem run_split {c : Correlation} {key : List String} {ms : List SourceMatch} {m : SourceMatch}
    {I : Window → List SourceMatch → Prop} (start : I Window.empty [])
    (keep : ∀ w since m, I w since → c.groupOf m.source m.fields = some key →
      InOrder (since ++ [m]) → c.windowHit w m = false → I (c.watch w m).1 (since ++ [m]))
    (fresh : c.groups = ∅) (inOrder : InOrder (ms ++ [m])) (grouped : InGroup c key (ms ++ [m])) :
    ∃ w, Alone c key w (Runs.run Correlation.step c ms) ∧ I w (sinceReport c ms) ∧
      InOrder (sinceReport c ms ++ [m]) ∧
      ((Runs.run Correlation.step c ms).reports m).isSome = c.windowHit w m ∧
      Alone c key (c.windowAfter w m) (Runs.run Correlation.step c (ms ++ [m])) := by
  obtain ⟨w, alone, holds⟩ := one_group_invariant start keep fresh (inOrder_append.mp inOrder).1
    fun n among => grouped n (List.mem_append_left [m] among)
  obtain ⟨hit, after⟩ :=
    alone_step alone (grouped m (List.mem_append_right ms (List.mem_singleton_self m)))
  refine ⟨w, alone, holds, ?_, hit, ?_⟩
  · obtain ⟨before, split⟩ := sinceReport_suffix c ms
    rw [← split, List.append_assoc] at inOrder
    exact (List.pairwise_append.mp inOrder).2.1
  · rw [Runs.run_append]
    exact after

end SentinelAgent.Scanner
