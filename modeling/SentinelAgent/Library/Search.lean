import Mathlib.Data.Finset.Card
import Mathlib.Logic.Relation

/-!
Whether a node of a graph lies on a cycle: a search with a stack and a set of nodes seen. The
graph is a list of successors for each node, all of them in one finite set.
-/
namespace Search

variable {N : Type*} [DecidableEq N]

/-- The successors of one node. `none` when the start is among them, else those not seen before
    are seen and put on the stack. -/
def visit (start : N) : List N → Finset N → List N → Option (Finset N × List N)
  | [], seen, pending => some (seen, pending)
  | m :: ms, seen, pending =>
    if m = start then none
    else if m ∈ seen then visit start ms seen pending
    else visit start ms (insert m seen) (m :: pending)

theorem visit_eq_none_iff {start : N} {ms : List N} {seen : Finset N} {pending : List N} :
    visit start ms seen pending = none ↔ start ∈ ms := by
  induction ms generalizing seen pending with
  | nil => simp [visit]
  | cons m ms ih =>
    unfold visit
    by_cases found : m = start
    · simp [found]
    · have other : start ≠ m := fun same => found same.symm
      by_cases known : m ∈ seen
      · simp [found, known, ih, other]
      · simp [found, known, ih, other]

theorem visit_seen {start : N} {ms : List N} {seen seen' : Finset N} {pending pending' : List N}
    (visited : visit start ms seen pending = some (seen', pending')) (n : N) :
    n ∈ seen' ↔ n ∈ seen ∨ n ∈ ms := by
  induction ms generalizing seen pending with
  | nil =>
    cases visited
    simp
  | cons m ms ih =>
    unfold visit at visited
    split at visited
    · cases visited
    split at visited
    · rename_i known
      rw [ih visited, List.mem_cons]
      constructor
      · tauto
      · rintro (old | rfl | new)
        · exact Or.inl old
        · exact Or.inl known
        · exact Or.inr new
    · rw [ih visited, List.mem_cons, Finset.mem_insert]
      tauto

/-- What is on the stack afterwards was there, or is a successor. -/
theorem visit_pending {start : N} {ms : List N} {seen seen' : Finset N}
    {pending pending' : List N} (visited : visit start ms seen pending = some (seen', pending'))
    (n : N) : n ∈ pending' ↔ n ∈ pending ∨ (n ∈ ms ∧ n ∉ seen) := by
  induction ms generalizing seen pending with
  | nil =>
    cases visited
    simp
  | cons m ms ih =>
    unfold visit at visited
    split at visited
    · cases visited
    split at visited
    · rename_i known
      rw [ih visited, List.mem_cons]
      constructor
      · tauto
      · rintro (old | ⟨rfl | new, unseen⟩)
        · exact Or.inl old
        · exact absurd known unseen
        · exact Or.inr ⟨new, unseen⟩
    · rename_i unknown
      rw [ih visited, List.mem_cons, List.mem_cons, Finset.mem_insert]
      by_cases same : n = m
      · subst same
        tauto
      · tauto

/-- What is left to do: nodes never seen, and the stack. -/
theorem visit_measure {start : N} {ms : List N} {all seen seen' : Finset N}
    {pending pending' : List N} (inside : ∀ m ∈ ms, m ∈ all)
    (visited : visit start ms seen pending = some (seen', pending')) :
    (all \ seen').card + pending'.length ≤ (all \ seen).card + pending.length := by
  induction ms generalizing seen pending with
  | nil =>
    cases visited
    omega
  | cons m ms ih =>
    unfold visit at visited
    have rest : ∀ n ∈ ms, n ∈ all := fun n member => inside n (List.mem_cons_of_mem m member)
    split at visited
    · cases visited
    split at visited
    · exact ih rest visited
    · rename_i unknown
      have fewer : (all \ insert m seen).card < (all \ seen).card := by
        apply Finset.card_lt_card
        have present : m ∈ all \ seen :=
          Finset.mem_sdiff.mpr ⟨inside m List.mem_cons_self, unknown⟩
        rw [Finset.sdiff_insert]
        exact Finset.erase_ssubset present
      have bound := ih rest visited
      simp only [List.length_cons] at bound
      omega

/-- A graph whose edges all lead into one finite set. -/
structure Graph (N : Type*) where
  next : N → List N
  all : Finset N
  inside : ∀ n, ∀ m ∈ next n, m ∈ all

def Graph.Edge (g : Graph N) (n m : N) : Prop := m ∈ g.next n

def Graph.search (g : Graph N) (start : N) (seen : Finset N) (pending : List N) : Bool :=
  match pending with
  | [] => false
  | n :: rest =>
    match _visited : visit start (g.next n) seen rest with
    | none => true
    | some (seen', pending') => g.search start seen' pending'
  termination_by (g.all \ seen).card + pending.length
  decreasing_by
    have bound := visit_measure (g.inside n) _visited
    simp only [List.length_cons]
    omega

def Graph.onCycle (g : Graph N) (start : N) : Bool := g.search start ∅ [start]

theorem search_nil (g : Graph N) (start : N) (seen : Finset N) :
    g.search start seen [] = false := by
  simp [Graph.search]

theorem search_found {g : Graph N} {start n : N} {seen : Finset N} {rest : List N}
    (visited : visit start (g.next n) seen rest = none) :
    g.search start seen (n :: rest) = true := by
  rw [Graph.search]
  split
  · rfl
  · rename_i going
    rw [visited] at going
    cases going

theorem search_next {g : Graph N} {start n : N} {seen seen' : Finset N} {rest pending' : List N}
    (visited : visit start (g.next n) seen rest = some (seen', pending')) :
    g.search start seen (n :: rest) = g.search start seen' pending' := by
  rw [Graph.search]
  split
  · rename_i found
    rw [visited] at found
    cases found
  · rename_i going
    rw [visited] at going
    cases going
    rfl

theorem search_sound {g : Graph N} {start : N} {seen : Finset N} {pending : List N}
    (reached : ∀ n ∈ pending, Relation.ReflTransGen g.Edge start n)
    (found : g.search start seen pending = true) : Relation.TransGen g.Edge start start := by
  induction seen, pending using Graph.search.induct g start with
  | case1 seen =>
    rw [search_nil] at found
    cases found
  | case2 seen n rest visited =>
    have edge : g.Edge n start := visit_eq_none_iff.mp visited
    exact Relation.TransGen.tail' (reached n List.mem_cons_self) edge
  | case3 seen n rest seen' pending' visited ih =>
    rw [search_next visited] at found
    apply ih ?_ found
    intro m member
    rcases (visit_pending visited m).mp member with old | ⟨edge, _⟩
    · exact reached m (List.mem_cons_of_mem n old)
    · exact (reached n List.mem_cons_self).tail edge

/-- The nodes seen that are off the stack have been visited: all they lead to is seen, and none
    of them leads to the start. -/
theorem search_complete {g : Graph N} {start : N} {seen : Finset N} {pending : List N}
    (unseen : start ∉ seen)
    (visited : ∀ n, n = start ∨ n ∈ seen → n ∉ pending →
      start ∉ g.next n ∧ ∀ m ∈ g.next n, m ∈ seen)
    (missed : g.search start seen pending = false) : ¬ Relation.TransGen g.Edge start start := by
  induction seen, pending using Graph.search.induct g start with
  | case1 seen =>
    intro cycle
    have stays : ∀ n, Relation.ReflTransGen g.Edge start n → n = start ∨ n ∈ seen := by
      intro n path
      induction path with
      | refl => exact Or.inl rfl
      | tail _ edge ih => exact Or.inr ((visited _ ih (List.not_mem_nil)).2 _ edge)
    obtain ⟨last, path, edge⟩ := Relation.TransGen.tail'_iff.mp cycle
    exact (visited last (stays last path) List.not_mem_nil).1 edge
  | case2 seen n rest found =>
    rw [search_found found] at missed
    cases missed
  | case3 seen n rest seen' pending' going ih =>
    rw [search_next going] at missed
    have open_end : start ∉ g.next n := by
      intro edge
      rw [visit_eq_none_iff.mpr edge] at going
      cases going
    apply ih ?_ ?_ missed
    · rw [visit_seen going]
      tauto
    · intro m known off
      rw [visit_pending going] at off
      by_cases same : m = n
      · subst same
        exact ⟨open_end, fun k edge => (visit_seen going k).mpr (Or.inr edge)⟩
      · have before : m = start ∨ m ∈ seen := by
          rcases known with rfl | known
          · exact Or.inl rfl
          · rcases (visit_seen going m).mp known with old | new
            · exact Or.inr old
            · by_contra never
              exact off (Or.inr ⟨new, fun old => never (Or.inr old)⟩)
        have still : m ∉ n :: rest := by
          simp only [List.mem_cons, not_or]
          exact ⟨same, fun old => off (Or.inl old)⟩
        obtain ⟨first, all⟩ := visited m before still
        exact ⟨first, fun k edge => (visit_seen going k).mpr (Or.inl (all k edge))⟩

theorem onCycle_iff (g : Graph N) (start : N) :
    g.onCycle start = true ↔ Relation.TransGen g.Edge start start := by
  constructor
  · apply search_sound
    intro n member
    rw [List.mem_singleton.mp member]
  · intro cycle
    by_contra missed
    apply search_complete (by simp) ?_ (Bool.eq_false_iff.mpr missed) cycle
    intro n known off
    rcases known with rfl | known
    · exact absurd (List.mem_singleton.mpr rfl) off
    · cases known

/-! Without a cycle, a node lies above all it leads to. -/

open Classical in
/-- How many nodes a node leads to. -/
noncomputable def Graph.height (g : Graph N) (n : N) : Nat :=
  (g.all.filter (fun m => Relation.TransGen g.Edge n m)).card

omit [DecidableEq N] in
theorem height_le (g : Graph N) (n : N) : g.height n ≤ g.all.card := by
  classical
  exact Finset.card_filter_le g.all _

omit [DecidableEq N] in
theorem height_lt {g : Graph N} (acyclic : ∀ n, ¬ Relation.TransGen g.Edge n n) {n m : N}
    (edge : g.Edge n m) : g.height m < g.height n := by
  classical
  apply Finset.card_lt_card
  rw [Finset.ssubset_iff_of_subset]
  · refine ⟨m, ?_, ?_⟩
    · exact Finset.mem_filter.mpr ⟨g.inside n m edge, Relation.TransGen.single edge⟩
    · intro member
      exact acyclic m (Finset.mem_filter.mp member).2
  · intro k member
    obtain ⟨inside, path⟩ := Finset.mem_filter.mp member
    exact Finset.mem_filter.mpr ⟨inside, path.head edge⟩

end Search
