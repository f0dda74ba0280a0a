import SentinelAgent.Library.AutoTable
import SentinelAgent.Library.Runs

/-!
Rows that wait, of which the oldest are taken up to a limit. Rows of one age may be taken in
any order, so what is taken is a relation and not a function. Of a batch the accepted rows
leave; the refused ones keep their place.
-/
namespace Oldest
open AutoTables Runs

variable {R T : Type*} [LinearOrder T] {age : R → T} {limit : Nat} {waiting batch : List R}

structure Taken (age : R → T) (limit : Nat) (waiting batch : List R) : Prop where
  distinct : batch.Nodup
  within : ∀ r ∈ batch, r ∈ waiting
  full : batch.length = min limit waiting.length
  ordered : batch.Pairwise fun a b => age a ≤ age b
  oldest : ∀ r ∈ batch, ∀ other ∈ waiting, other ∉ batch → age r ≤ age other

theorem full_of_left {r : R} (taken : Taken age limit waiting batch) (waits : r ∈ waiting)
    (left : r ∉ batch) : batch.length = limit := by
  have distinct : (r :: batch).Nodup := List.nodup_cons.mpr ⟨left, taken.distinct⟩
  have within : r :: batch ⊆ waiting := by
    intro other member
    rcases List.mem_cons.mp member with rfl | there
    · exact waits
    · exact taken.within other there
  have more := (List.subperm_of_subset distinct within).length_le
  have full := taken.full
  rw [List.length_cons] at more
  omega

/-- A row is left behind `limit` others, all as old as itself. -/
theorem limit_le_ahead {r : R} (ahead : R → Bool) (taken : Taken age limit waiting batch)
    (waits : r ∈ waiting) (left : r ∉ batch)
    (all_ahead : ∀ q ∈ batch, age q ≤ age r → ahead q = true) :
    limit ≤ waiting.countP ahead := by
  have everyone : ∀ q ∈ batch, ahead q = true := fun q member =>
    all_ahead q member (taken.oldest q member r waits left)
  calc limit = batch.length := (full_of_left taken waits left).symm
    _ = batch.countP ahead := (List.countP_eq_length.mpr everyone).symm
    _ ≤ waiting.countP ahead :=
      (List.subperm_of_subset taken.distinct taken.within).countP_le ahead

section Ordered

variable {le : R → R → Bool}

/-- The first rows of any order that goes by age are a batch. -/
theorem taken_firstBy (distinct : waiting.Nodup) (total : ∀ a b, le a b = true ∨ le b a = true)
    (trans : ∀ a b c, le a b = true → le b c = true → le a c = true)
    (by_age : ∀ a b, le a b = true → age a ≤ age b) :
    Taken age limit waiting (firstBy limit le waiting) where
  distinct :=
    ((List.perm_insertionSort (fun a b => le a b = true) waiting).nodup_iff.mpr distinct).sublist
      (List.take_sublist _ _)
  within := fun _ => mem_of_mem_firstBy
  full := length_firstBy limit le waiting
  ordered := (firstBy_pairwise total trans).imp fun {a b} before => by_age a b before
  oldest := fun r member other waits left =>
    by_age r other (firstBy_le_rest total trans member waits left)

theorem left_behind {r : R} {ahead : R → Bool} (distinct : waiting.Nodup)
    (total : ∀ a b, le a b = true ∨ le b a = true)
    (trans : ∀ a b c, le a b = true → le b c = true → le a c = true)
    (enough : limit ≤ waiting.countP ahead)
    (before : ∀ q ∈ waiting, ahead q = true → ¬ le r q = true) :
    r ∉ firstBy limit le waiting := by
  intro member
  have waits : r ∈ waiting := mem_of_mem_firstBy member
  have all_taken : ∀ q ∈ waiting.filter ahead, q ∈ firstBy limit le waiting := by
    intro q there
    obtain ⟨there, is_ahead⟩ := List.mem_filter.mp there
    by_contra rest
    exact before q there is_ahead (firstBy_le_rest total trans member there rest)
  have apart : r ∉ waiting.filter ahead := by
    intro there
    exact before r waits (List.mem_filter.mp there).2 ((total r r).elim id id)
  have more := (List.subperm_of_subset
    (List.nodup_cons.mpr ⟨apart, distinct.filter ahead⟩)
    (List.cons_subset.mpr ⟨member, all_taken⟩)).length_le
  have bound := length_firstBy limit le waiting
  rw [List.length_cons, ← List.countP_eq_length_filter] at more
  omega

end Ordered

variable {accept : R → Bool}

/-- Of rows of one age the refused ones first. -/
def refusedFirst (accept : R → Bool) (age : R → T) (a b : R) : Bool :=
  decide (age a < age b) || (decide (age a = age b) && (!accept a || accept b))

theorem refusedFirst_total (a b : R) :
    refusedFirst accept age a b = true ∨ refusedFirst accept age b a = true := by
  rcases lt_trichotomy (age a) (age b) with less | same | more
  · simp [refusedFirst, less]
  · cases first : accept a <;> cases second : accept b <;> simp [refusedFirst, same, first, second]
  · simp [refusedFirst, more]

theorem refusedFirst_iff {a b : R} : refusedFirst accept age a b = true ↔
    age a < age b ∨ (age a = age b ∧ (accept a = true → accept b = true)) := by
  cases first : accept a <;> cases second : accept b <;> simp [refusedFirst, first, second]

theorem refusedFirst_trans (a b c : R) (first : refusedFirst accept age a b = true)
    (second : refusedFirst accept age b c = true) : refusedFirst accept age a c = true := by
  rw [refusedFirst_iff] at first second ⊢
  rcases first with less | ⟨same, kept⟩
  · rcases second with later | ⟨equal, _⟩
    · exact Or.inl (less.trans later)
    · exact Or.inl (equal ▸ less)
  · rcases second with later | ⟨equal, still⟩
    · exact Or.inl (same ▸ later)
    · exact Or.inr ⟨same.trans equal, fun accepted => still (kept accepted)⟩

variable [DecidableEq R]

/-- The accepted rows of a batch leave. -/
def handOver (accept : R → Bool) (waiting batch : List R) : List R :=
  waiting.filter fun r => !(accept r && decide (r ∈ batch))

@[simp] theorem mem_handOver {r : R} :
    r ∈ handOver accept waiting batch ↔ r ∈ waiting ∧ (accept r = true → r ∉ batch) := by
  cases kind : accept r <;> simp [handOver, kind]

/-- Fewer than a batch of refused rows stand before each accepted one. -/
def NotBlocked (accept : R → Bool) (age : R → T) (limit : Nat) (waiting : List R) : Prop :=
  ∀ r ∈ waiting, accept r = true →
    waiting.countP (fun q => !accept q && decide (age q ≤ age r)) < limit

instance (accept : R → Bool) (age : R → T) (limit : Nat) (waiting : List R) :
    Decidable (NotBlocked accept age limit waiting) :=
  inferInstanceAs (Decidable (∀ r ∈ waiting, _))

theorem notBlocked_handOver (free : NotBlocked accept age limit waiting) (batch : List R) :
    NotBlocked accept age limit (handOver accept waiting batch) := by
  intro r member accepted
  have before := free r (mem_handOver.mp member).1 accepted
  exact Nat.lt_of_le_of_lt List.filter_sublist.countP_le before

/-- A batch takes an accepted row along while there is one. -/
theorem fewer_accepted (taken : Taken age limit waiting batch)
    (free : NotBlocked accept age limit waiting) :
    (handOver accept waiting batch).countP accept ≤ waiting.countP accept - 1 := by
  by_cases some_left : ∃ r ∈ waiting, accept r = true
  · obtain ⟨r, waits, accepted⟩ := some_left
    have carried : ∃ p ∈ batch, accept p = true := by
      by_contra none_carried
      have refused : ∀ q ∈ batch, accept q = false := by
        intro q member
        exact Bool.eq_false_iff.mpr fun taken_along => none_carried ⟨q, member, taken_along⟩
      have left : r ∉ batch := fun member => by
        rw [refused r member] at accepted
        exact Bool.noConfusion accepted
      have ahead := limit_le_ahead (fun q => !accept q && decide (age q ≤ age r)) taken
        waits left (fun q member older => by simp [refused q member, older])
      exact absurd (free r waits accepted) (Nat.not_lt.mpr ahead)
    obtain ⟨p, member, along⟩ := carried
    have shrinks : (handOver accept waiting batch).countP accept < waiting.countP accept := by
      rw [List.countP_eq_length_filter, List.countP_eq_length_filter, handOver,
        List.filter_filter]
      have split : (fun r => accept r && !(accept r && decide (r ∈ batch))) =
          fun r => !decide (r ∈ batch) && accept r := by
        funext r
        cases accept r <;> simp
      rw [split, ← List.filter_filter]
      refine List.length_filter_lt_length_iff_exists.mpr ⟨p, ?_, ?_⟩
      · exact List.mem_filter.mpr ⟨taken.within p member, along⟩
      · simp [member]
    omega
  · have none_left : (handOver accept waiting batch).countP accept = 0 := by
      rw [List.countP_eq_zero]
      intro r member accepted
      exact some_left ⟨r, (mem_handOver.mp member).1, accepted⟩
    omega

theorem accepted_left (batches : List (List R)) (free : NotBlocked accept age limit waiting)
    (along : Along (handOver accept) (Taken age limit) waiting batches) :
    (run (handOver accept) waiting batches).countP accept ≤
      waiting.countP accept - batches.length := by
  induction batches generalizing waiting with
  | nil => simp
  | cons batch batches ih =>
    have rest := ih (notBlocked_handOver free batch) along.2
    have first := fewer_accepted along.1 free
    rw [run_cons, List.length_cons]
    omega

/-- Behind a batch of refused rows an accepted one can be left again and again. -/
theorem blocked_run {r : R} (distinct : waiting.Nodup) (waits : r ∈ waiting)
    (accepted : accept r = true)
    (blocked : limit ≤ waiting.countP (fun q => !accept q && decide (age q ≤ age r))) (n : Nat) :
    ∃ batches, batches.length = n ∧ Along (handOver accept) (Taken age limit) waiting batches ∧
      r ∈ run (handOver accept) waiting batches := by
  induction n generalizing waiting with
  | zero => exact ⟨[], rfl, trivial, waits⟩
  | succ n ih =>
    let batch := firstBy limit (refusedFirst accept age) waiting
    have taken : Taken age limit waiting batch := by
      apply taken_firstBy distinct refusedFirst_total refusedFirst_trans
      intro a b before
      rcases refusedFirst_iff.mp before with less | ⟨same, _⟩
      · exact le_of_lt less
      · exact le_of_eq same
    have left : r ∉ batch := by
      apply left_behind distinct refusedFirst_total refusedFirst_trans blocked
      intro q _ ahead before
      obtain ⟨refused, older⟩ : accept q = false ∧ age q ≤ age r := by simpa using ahead
      rcases refusedFirst_iff.mp before with younger | ⟨_, kept⟩
      · exact absurd older (not_le_of_gt younger)
      · rw [kept accepted] at refused
        exact Bool.noConfusion refused
    have refused_stay : (handOver accept waiting batch).countP
        (fun q => !accept q && decide (age q ≤ age r)) =
          waiting.countP (fun q => !accept q && decide (age q ≤ age r)) := by
      rw [handOver, List.countP_filter]
      apply List.countP_congr
      intro q _
      cases accept q <;> simp
    obtain ⟨batches, count, along, still⟩ := @ih (handOver accept waiting batch)
      (distinct.filter _) (mem_handOver.mpr ⟨waits, fun _ => left⟩) (by rwa [refused_stay])
    exact ⟨batch :: batches, by rw [List.length_cons, count], ⟨taken, along⟩, still⟩

/-- Every accepted row is handed over in as many batches as there are rows, whatever rows of
    one age are taken first. -/
def AllHandedOver (accept : R → Bool) (age : R → T) (limit : Nat) (waiting : List R) : Prop :=
  ∀ batches, Along (handOver accept) (Taken age limit) waiting batches →
    waiting.length ≤ batches.length →
      ∀ r ∈ run (handOver accept) waiting batches, accept r = false

theorem allHandedOver_iff (distinct : waiting.Nodup) :
    AllHandedOver accept age limit waiting ↔ NotBlocked accept age limit waiting := by
  constructor
  · intro handed r waits accepted
    by_contra blocked
    obtain ⟨batches, count, along, still⟩ := blocked_run distinct waits accepted
      (Nat.not_lt.mp blocked) waiting.length
    have refused := handed batches along (by rw [count]) r still
    rw [accepted] at refused
    exact Bool.noConfusion refused
  · intro free batches along enough r member
    have left := accepted_left batches free along
    have none_left : (run (handOver accept) waiting batches).countP accept = 0 := by
      have bound : waiting.countP accept ≤ waiting.length := List.countP_le_length
      omega
    exact Bool.eq_false_iff.mpr (List.countP_eq_zero.mp none_left r member)

end Oldest
