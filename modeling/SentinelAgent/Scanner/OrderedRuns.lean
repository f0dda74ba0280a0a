import Mathlib.Tactic.IntervalCases
import SentinelAgent.Scanner.OrderedSequence

/-!
An ordered correlation over runs: when its rules match in turn, and none of them again once the
next has, it holds by the last of them.
-/
namespace SentinelAgent.Scanner

theorem listed_of_group {c : Correlation} {m : SourceMatch} {key : List String}
    (grouped : c.groupOf m.source m.fields = some key) :
    c.sources.idxOf? m.source = some ((c.sources.idxOf? m.source).getD 0) := by
  obtain ⟨among, _⟩ := Option.ite_none_right_eq_some.mp grouped
  cases listed : c.sources.idxOf? m.source with
  | none => exact absurd among (List.idxOf?_eq_none_iff.mp listed)
  | some position => rfl

section Runs

variable {c : Correlation} {listed : List Source} {key : List String}
  {copies : SourceMatch → Nat} {before ms : List SourceMatch} {place : Nat → Nat}

/-- What is left of a window while a match is counted, over and over, without a hit. -/
theorem counted_copies (kind : c.rule.kind = .temporalOrdered) (firsts : FirstListed c listed)
    (matched : MatchedInOrder c listed ms place) (unrepeated : Unrepeated listed ms place)
    (ordered : InOrder ms) {l : Nat} {m : SourceMatch} (here : ms[l]? = some m)
    (grouped : c.groupOf m.source m.fields = some key) {fed : List SourceMatch}
    (past : ∀ n ∈ fed ++ [m], n.time ≤ m.time) {live : Correlation} {w : Window}
    (alone : Alone c key w live) (dated : Dated w (fed ++ [m]))
    (counted : CountedTo listed ms place l w) {n : Nat}
    (quiet : reportsIn live (List.replicate (n + 1) m) = false) :
    ∃ w', Alone c key w' (Runs.run Correlation.step live (List.replicate (n + 1) m)) ∧
      Dated w' (fed ++ [m]) ∧ CountedTo listed ms place (l + 1) w' := by
  have now : MatchAt c ms l m ((c.sources.idxOf? m.source).getD 0) :=
    ⟨here, listed_of_group grouped⟩
  induction n generalizing live w with
  | zero =>
    obtain ⟨hit, after⟩ := alone_step alone grouped
    have silent : c.windowHit w m = false := by
      rw [← hit]
      exact (Bool.or_eq_false_iff.mp quiet).1
    rw [Correlation.windowAfter, silent, if_neg Bool.false_ne_true] at after
    refine ⟨_, after, dated_mono ?_ (dated_watch kind dated now.listed),
      countedTo_watch kind firsts matched unrepeated ordered now dated past counted⟩
    simp
  | succ n ih =>
    obtain ⟨hit, after⟩ := alone_step alone grouped
    obtain ⟨first, later⟩ := Bool.or_eq_false_iff.mp quiet
    have silent : c.windowHit w m = false := by
      rw [← hit]
      exact first
    rw [Correlation.windowAfter, silent, if_neg Bool.false_ne_true] at after
    have once := countedTo_watch kind firsts matched unrepeated ordered now dated past counted
    have still : Dated (c.watch w m).1 (fed ++ [m]) :=
      dated_mono (by simp) (dated_watch kind dated now.listed)
    exact ih after still (countedTo_mono (Nat.le_succ l) once) later

/-- While nothing is reported, the first matches of the run are counted. -/
theorem counted_run (kind : c.rule.kind = .temporalOrdered) (firsts : FirstListed c listed)
    (fresh : c.groups = ∅) (ordered : InOrder (before ++ ms))
    (grouped : InGroup c key (before ++ ms)) (some_copy : ∀ m ∈ ms, copies m ≠ 0)
    (matched : MatchedInOrder c listed ms place) (unrepeated : Unrepeated listed ms place)
    {first rest : List SourceMatch} (split : first ++ rest = ms)
    (quiet : reportsIn (Runs.run Correlation.step c (repeated copies before))
      (repeated copies first) = false) :
    ∃ w, Alone c key w (Runs.run Correlation.step c (repeated copies (before ++ first))) ∧
      Dated w (before ++ first) ∧ CountedTo listed ms place first.length w := by
  induction first using List.reverseRecOn generalizing rest with
  | nil =>
    obtain ⟨w, alone, dated⟩ := one_group_invariant (I := fun w since => Dated w since)
      (fun t held => by cases held)
      (fun w since m dated grouped _ _ => dated_watch kind dated (listed_of_group grouped))
      fresh (inOrder_repeated copies (List.pairwise_append.mp ordered).1)
      (inGroup_repeated copies fun n among => grouped n (List.mem_append_left ms among))
    rw [List.append_nil]
    exact ⟨w, alone,
      dated_mono (fun n since => mem_of_repeated ((sinceReport_suffix c _).subset since)) dated,
      fun i m _ placed => absurd placed (Nat.not_lt_zero _)⟩
  | append_singleton first m ih =>
    rw [repeated_append, repeated_singleton, reportsIn_append, Bool.or_eq_false_iff,
      ← Runs.run_append, ← repeated_append] at quiet
    rw [List.append_assoc] at split
    obtain ⟨w, alone, dated, counted⟩ := ih split quiet.1
    have among : m ∈ ms := split ▸ List.mem_append_right first List.mem_cons_self
    have here : ms[first.length]? = some m := by
      rw [← split]
      simp
    have whole : before ++ ms = before ++ first ++ [m] ++ rest := by
      rw [← split]
      simp
    have past : ∀ n ∈ before ++ first ++ [m], n.time ≤ m.time := by
      rw [whole] at ordered
      have until_now := (List.pairwise_append.mp ordered).1
      intro n earlier
      rcases List.mem_append.mp earlier with old | new
      · exact (inOrder_append.mp until_now).2 n old
      · exact (congrArg SourceMatch.time (List.mem_singleton.mp new)).le
    obtain ⟨n, times⟩ := Nat.exists_eq_succ_of_ne_zero (some_copy m among)
    rw [times] at quiet
    obtain ⟨w', after, dated', counted'⟩ := counted_copies kind firsts matched unrepeated
      (List.pairwise_append.mp ordered).2.1 here
      (grouped m (List.mem_append_right before among)) past alone
      (dated_mono (fun k earlier => List.mem_append_left [m] earlier) dated) counted quiet.2
    rw [← List.append_assoc, repeated_append, repeated_singleton, Runs.run_append, times,
      List.length_append]
    exact ⟨w', after, dated', counted'⟩

/-- Rules that match in turn are reported by the last of them. -/
theorem reported_in_turn (kind : c.rule.kind = .temporalOrdered) (firsts : FirstListed c listed)
    (enough : c.rule.atLeast ≤ listed.length) (fresh : c.groups = ∅)
    (ordered : InOrder (before ++ ms)) (grouped : InGroup c key (before ++ ms))
    (some_copy : ∀ m ∈ ms, copies m ≠ 0) (matched : MatchedInOrder c listed ms place)
    (unrepeated : Unrepeated listed ms place) :
    reportsIn (Runs.run Correlation.step c (repeated copies before)) (repeated copies ms) = true := by
  by_contra silent
  have quiet := Bool.eq_false_iff.mpr silent
  obtain ⟨first, m, split⟩ : ∃ first m, ms = first ++ [m] := by
    have some_match : ms ≠ [] := by
      intro empty
      have at_end := matched.ends
      rw [empty] at at_end
      cases at_end
    exact ⟨ms.dropLast, ms.getLast some_match, (List.dropLast_append_getLast some_match).symm⟩
  have among : m ∈ ms := split ▸ List.mem_append_right first (List.mem_singleton_self m)
  have here : ms[first.length]? = some m := by
    rw [split]
    simp
  obtain ⟨n, times⟩ := Nat.exists_eq_succ_of_ne_zero (some_copy m among)
  rw [split, repeated_append, repeated_singleton, reportsIn_append, Bool.or_eq_false_iff,
    ← Runs.run_append, ← repeated_append, times] at quiet
  obtain ⟨w, alone, dated, counted⟩ := counted_run kind firsts fresh ordered grouped some_copy
    matched unrepeated split.symm quiet.1
  have its_group := grouped m (List.mem_append_right before among)
  have now : MatchAt c ms first.length m ((c.sources.idxOf? m.source).getD 0) :=
    ⟨here, listed_of_group its_group⟩
  have past : ∀ n ∈ before ++ first, n.time ≤ m.time := by
    rw [split, ← List.append_assoc] at ordered
    exact (inOrder_append.mp ordered).2
  have in_order := (List.pairwise_append.mp ordered).2.1
  have hit := (alone_step alone its_group).1
  rw [full_hit kind enough matched in_order now (by rw [split, List.length_append]; rfl)
    (countedTo_watch kind firsts matched unrepeated in_order now dated past counted)] at hit
  rw [List.replicate_succ, reportsIn, hit] at quiet
  cases quiet.2

end Runs

/-- A correlation in which each rule listed matches after the one before it, none of them again
    once the next has, within one timespan, reports a hit by the last of these matches. -/
theorem ordered_hit_unrepeated {document : Sigma.Yaml} {c : Correlation}
    (read : Sigma.parseCorrelation document = .ok c.rule)
    (resolved : c.sources.length = c.rule.rules.length) (kind : c.rule.kind = .temporalOrdered)
    (once : c.sources.Nodup) (fresh : c.groups = ∅) {key : List String}
    {before ms : List SourceMatch} {place : Nat → Nat} (ordered : InOrder (before ++ ms))
    (grouped : InGroup c key (before ++ ms)) (matched : MatchedInOrder c c.sources ms place)
    (unrepeated : Unrepeated c.sources ms place) :
    reportsIn (Runs.run Correlation.step c before) ms = true := by
  have enough : c.rule.atLeast ≤ c.sources.length := by
    have temporal : Sigma.isTemporal c.rule.kind = true := by rw [kind]; rfl
    rw [resolved]
    exact ((Sigma.parsed_accepted read).temporal temporal).2
  have some_copy : ∀ m ∈ ms, (fun _ : SourceMatch => 1) m ≠ 0 := fun _ _ => Nat.one_ne_zero
  have reported := reported_in_turn kind ⟨List.prefix_refl _, once⟩ enough fresh ordered grouped
    some_copy matched unrepeated
  rwa [repeated_one, repeated_one] at reported

/- A login after many failures, then a change of account. -/
def thenEscalated : Sigma.Yaml :=
  .hash
    [(.string "title", .string "Brute force, login and escalation"),
      (.string "correlation", .hash
        [(.string "type", .string "temporal_ordered"),
          (.string "rules", .array [.string "brute", .string "ssh_login", .string "sudo"]),
          (.string "timespan", .string "15m")])]

def escalationRule : CorrelationRule where
  id := "Brute force, login and escalation"
  title := "Brute force, login and escalation"
  description := ""
  level := .medium
  tags := []
  name := none
  kind := .temporalOrdered
  rules := ["brute", "ssh_login", "sudo"]
  groupBy := []
  timespan := 900
  atLeast := 3
  valueField := none
  generate := false
  timespan_pos := by decide
  atLeast_pos := by decide

def escalation : Correlation where
  rule := escalationRule
  sources := [.rule 0, .rule 1, .rule 2]
  alerts := true
  groups := ∅

def ruleMatch (index : Nat) (time : Int) : SourceMatch where
  source := .rule index
  fields := ∅
  time := time

theorem escalation_inGroup {ms : List SourceMatch}
    (listed : ∀ m ∈ ms, m.source ∈ escalation.sources) : InGroup escalation [] ms :=
  fun m among => if_pos (listed m among)

theorem escalation_matched {ms : List SourceMatch} {place : Nat → Nat} {a b d : SourceMatch}
    (first : ms[place 0]? = some a) (second : ms[place 1]? = some b)
    (third : ms[place 2]? = some d) (sources : a.source = .rule 0 ∧ b.source = .rule 1 ∧
      d.source = .rule 2) (apart : place 0 < place 1 ∧ place 1 < place 2)
    (ends : place 2 + 1 = ms.length) (ordered : InOrder ms)
    (close : d.time - escalation.rule.span < a.time) :
    MatchedInOrder escalation escalation.sources ms place where
  source i listed := by
    have few : i < 3 := listed
    obtain ⟨is_first, is_second, is_third⟩ := sources
    interval_cases i
    · exact ⟨a, first, by rw [is_first]; rfl⟩
    · exact ⟨b, second, by rw [is_second]; rfl⟩
    · exact ⟨d, third, by rw [is_third]; rfl⟩
  increasing i listed := by
    have few : i < 2 := Nat.lt_of_succ_lt_succ listed
    interval_cases i
    · exact apart.1
    · exact apart.2
  ends := ends
  close i m last listed found is_last := by
    have few : i < 3 := listed
    have its : last = d := by
      rw [List.getLast?_eq_getElem?, ← ends, Nat.add_sub_cancel, third] at is_last
      exact (Option.some.inj is_last).symm
    have behind : place 0 ≤ place i := by
      interval_cases i
      · exact Nat.le_refl _
      · exact apart.1.le
      · exact (apart.1.trans apart.2).le
    have later := time_le ordered first found behind
    rw [its]
    omega

theorem ordered_hit_unrepeated_first :
    reportsIn escalation [ruleMatch 0 0, ruleMatch 1 1, ruleMatch 2 2] = true := by
  have ordered : InOrder [ruleMatch 0 0, ruleMatch 1 1, ruleMatch 2 2] := by
    unfold InOrder
    decide
  have grouped : InGroup escalation [] [ruleMatch 0 0, ruleMatch 1 1, ruleMatch 2 2] :=
    escalation_inGroup (by decide)
  have unrepeated :
      Unrepeated escalation.sources [ruleMatch 0 0, ruleMatch 1 1, ruleMatch 2 2] id := by
    intro i j m listed later here same
    have few : j < 3 := (List.getElem?_eq_some_iff.mp here).1
    have zero : i = 0 := by
      simp only [id] at later
      omega
    have two : j = 2 := by
      simp only [id] at later
      omega
    subst zero two
    cases here
    cases same
  have read : Sigma.parseCorrelation thenEscalated = .ok escalation.rule := by rfl
  exact @ordered_hit_unrepeated thenEscalated escalation read rfl rfl (by decide) rfl [] [] _ id
    ordered grouped
    (escalation_matched rfl rfl rfl ⟨rfl, rfl, rfl⟩ (by decide) rfl ordered (by decide)) unrepeated

/-- A second burst of failures takes the login away. -/
theorem ordered_hit_not_complete :
    ¬ ∀ (document : Sigma.Yaml) (c : Correlation) (key : List String)
      (before ms : List SourceMatch) (place : Nat → Nat),
      Sigma.parseCorrelation document = .ok c.rule → c.sources.length = c.rule.rules.length →
      c.rule.kind = .temporalOrdered → c.sources.Nodup → c.groups = ∅ →
      InOrder (before ++ ms) → InGroup c key (before ++ ms) →
      MatchedInOrder c c.sources ms place →
      reportsIn (Runs.run Correlation.step c before) ms = true := by
  intro claimed
  have ordered : InOrder [ruleMatch 0 0, ruleMatch 1 1, ruleMatch 0 2, ruleMatch 2 3] := by
    unfold InOrder
    decide
  have read : Sigma.parseCorrelation thenEscalated = .ok escalation.rule := by rfl
  have reported := claimed thenEscalated escalation [] []
    [ruleMatch 0 0, ruleMatch 1 1, ruleMatch 0 2, ruleMatch 2 3] (fun i => if i = 2 then 3 else i)
    read rfl rfl (by decide) rfl ordered (escalation_inGroup (by decide))
    (escalation_matched rfl rfl rfl ⟨rfl, rfl, rfl⟩ (by decide) rfl ordered (by decide))
  exact absurd reported (by decide)

end SentinelAgent.Scanner
