import SentinelAgent.Library.AutoTable

/-!
The place of a row among the rows that a limited selection puts in order: it is selected where
fewer rows come before it than the limit. Rows the order does not tell apart stand by their keys.
-/
namespace AutoTables

variable {R : Type*} {key : R → Nat} {n : Nat} {le : R → R → Bool} {rows : List R} {r : R}

/- In the order first, or not told apart by it and of the lower key. -/
def comesBefore (key : R → Nat) (le : R → R → Bool) (a b : R) : Bool :=
  le a b && (!le b a || decide (key a < key b))

def ahead (key : R → Nat) (le : R → R → Bool) (rows : List R) (r : R) : Nat :=
  rows.countP (comesBefore key le · r)

theorem comesBefore_iff {a b : R} : comesBefore key le a b = true ↔
    le a b = true ∧ (le b a = true → key a < key b) := by
  simp only [comesBefore, Bool.and_eq_true, Bool.or_eq_true, Bool.not_eq_true', decide_eq_true_eq]
  refine and_congr_right fun _ => ?_
  cases le b a <;> simp

theorem comesBefore_irrefl (r : R) : comesBefore key le r r = false := by
  simp [comesBefore]

theorem comesBefore_asymm {a b : R} (before : comesBefore key le a b = true) :
    comesBefore key le b a = false := by
  rw [comesBefore_iff] at before
  rw [Bool.eq_false_iff, ne_eq, comesBefore_iff]
  rintro ⟨other, tie⟩
  have lower := before.2 other
  have lower' := tie before.1
  omega

theorem orderedInsert_comesBefore (total : ∀ a b, le a b = true ∨ le b a = true)
    (trans : ∀ a b c, le a b = true → le b c = true → le a c = true) {done : List R}
    (lowest : ∀ a ∈ done, key r < key a)
    (sorted : done.Pairwise fun a b => comesBefore key le a b = true) :
    (done.orderedInsert (fun a b => le a b = true) r).Pairwise
      fun a b => comesBefore key le a b = true := by
  induction done with
  | nil => simp
  | cons a done ih =>
    obtain ⟨first, later⟩ := List.pairwise_cons.mp sorted
    rw [List.orderedInsert]
    split
    · rename_i before
      refine List.pairwise_cons.mpr ⟨fun b member => ?_, sorted⟩
      rw [comesBefore_iff]
      refine ⟨?_, fun _ => lowest b member⟩
      rcases List.mem_cons.mp member with rfl | after
      · exact before
      · exact trans _ _ _ before (comesBefore_iff.mp (first b after)).1
    · rename_i after
      refine List.pairwise_cons.mpr ⟨fun b member => ?_,
        ih (fun b member => lowest b (List.mem_cons_of_mem _ member)) later⟩
      rcases (List.mem_orderedInsert _).mp member with rfl | old
      · rw [comesBefore_iff]
        exact ⟨(total _ _).resolve_left after, fun same => absurd same after⟩
      · exact first b old

/-- Sorting rows that stand by their keys puts each before those it comes before. -/
theorem sorted_comesBefore (total : ∀ a b, le a b = true ∨ le b a = true)
    (trans : ∀ a b c, le a b = true → le b c = true → le a c = true)
    (ascending : rows.Pairwise fun a b => key a < key b) :
    (rows.insertionSort fun a b => le a b = true).Pairwise
      fun a b => comesBefore key le a b = true := by
  induction rows with
  | nil => exact List.Pairwise.nil
  | cons r rows ih =>
    obtain ⟨lowest, ascending⟩ := List.pairwise_cons.mp ascending
    rw [List.insertionSort_cons]
    refine orderedInsert_comesBefore total trans (fun a member => ?_) (ih ascending)
    exact lowest a ((List.mem_insertionSort _).mp member)

/-- In an ordered list a row is among the first ones where fewer come before it. -/
theorem mem_take_iff {l : List R} (ordered : l.Pairwise fun a b => comesBefore key le a b = true)
    (member : r ∈ l) : r ∈ l.take n ↔ ahead key le l r < n := by
  induction l generalizing n with
  | nil => cases member
  | cons a l ih =>
    obtain ⟨first, ordered⟩ := List.pairwise_cons.mp ordered
    cases n with
    | zero => simp
    | succ n =>
      rw [List.take_succ_cons, List.mem_cons]
      rcases List.mem_cons.mp member with rfl | later
      · have none : ahead key le l r = 0 := by
          rw [ahead, List.countP_eq_zero]
          intro b member
          simp [comesBefore_asymm (first b member)]
        have self : ahead key le (r :: l) r = ahead key le l r := by
          rw [ahead, List.countP_cons_of_neg (p := (comesBefore key le · r)) (by simp [comesBefore_irrefl])]
          rfl
        rw [self, none]
        exact iff_of_true (.inl rfl) (Nat.succ_pos n)
      · have other : r ≠ a := by
          rintro rfl
          exact absurd (first r later) (by simp [comesBefore_irrefl])
        have counted : ahead key le (a :: l) r = ahead key le l r + 1 := by
          rw [ahead, List.countP_cons_of_pos (p := (comesBefore key le · r)) (first r later)]
          rfl
        rw [counted, ih ordered later, Nat.succ_lt_succ_iff, or_iff_right other]

/-- A row is selected where fewer rows come before it than the limit. -/
theorem mem_firstBy_iff (total : ∀ a b, le a b = true ∨ le b a = true)
    (trans : ∀ a b c, le a b = true → le b c = true → le a c = true)
    (ascending : rows.Pairwise fun a b => key a < key b) (member : r ∈ rows) :
    r ∈ firstBy n le rows ↔ ahead key le rows r < n := by
  have sorted := sorted_comesBefore total trans ascending
  have listed := (List.mem_insertionSort fun a b => le a b = true).mpr member
  have same := (List.perm_insertionSort (fun a b => le a b = true) rows).countP_eq
    (comesBefore key le · r)
  rw [firstBy, mem_take_iff sorted listed, ahead, same, ahead]

end AutoTables
