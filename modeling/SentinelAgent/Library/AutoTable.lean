import Mathlib.Algebra.Order.BigOperators.Group.List
import Mathlib.Algebra.Order.Ring.Nat
import Mathlib.Data.List.Sort
import Mathlib.Data.List.Pairwise

/-!
A table whose key is handed out by the table itself and never handed out twice
(`INTEGER PRIMARY KEY AUTOINCREMENT`). Rows stand in key order. The two facts every reader
of such a table relies on, keys ascending and keys below the next one, are fields: a table
that breaks them cannot be built.
-/
namespace AutoTables

variable {R : Type*} {key : R → Nat}

structure AutoTable (key : R → Nat) where
  rows : List R
  next : Nat
  ascending : rows.Pairwise (fun a b => key a < key b)
  fresh : ∀ r ∈ rows, key r < next

/-- A row made for the key it is given. -/
structure RowMaker (key : R → Nat) where
  make : Nat → R
  keyed : ∀ n, key (make n) = n

/-- A change of rows that leaves their keys alone. -/
structure RowEdit (key : R → Nat) where
  edit : R → R
  keyed : ∀ r, key (edit r) = key r

namespace AutoTable

def empty (key : R → Nat) : AutoTable key :=
  { rows := [], next := 1, ascending := List.Pairwise.nil, fresh := by simp }

def insert (t : AutoTable key) (m : RowMaker key) : AutoTable key where
  rows := t.rows ++ [m.make t.next]
  next := t.next + 1
  ascending := by
    rw [List.pairwise_append]
    refine ⟨t.ascending, List.pairwise_singleton _ _, ?_⟩
    intro a mem b last
    rw [List.mem_singleton.mp last, m.keyed]
    exact t.fresh a mem
  fresh := by
    intro r mem
    rcases List.mem_append.mp mem with old | new
    · exact Nat.lt_succ_of_lt (t.fresh r old)
    · rw [List.mem_singleton.mp new, m.keyed]
      exact Nat.lt_succ_self _

def keep (t : AutoTable key) (p : R → Bool) : AutoTable key where
  rows := t.rows.filter p
  next := t.next
  ascending := t.ascending.filter p
  fresh := fun r mem => t.fresh r (List.mem_of_mem_filter mem)

def update (t : AutoTable key) (e : RowEdit key) : AutoTable key where
  rows := t.rows.map e.edit
  next := t.next
  ascending := by
    rw [List.pairwise_map]
    exact t.ascending.imp (fun lt => by rw [e.keyed, e.keyed]; exact lt)
  fresh := by
    intro r mem
    obtain ⟨old, member, rfl⟩ := List.mem_map.mp mem
    rw [e.keyed]
    exact t.fresh old member

def removeKeys (t : AutoTable key) (keys : List Nat) : AutoTable key :=
  t.keep (fun r => decide (key r ∉ keys))

/-- `DELETE … WHERE id IN (SELECT id …)`: the selection is made first. -/
def removeRows (t : AutoTable key) (selected : List R) : AutoTable key :=
  t.removeKeys (selected.map key)

def find (t : AutoTable key) (n : Nat) : Option R := t.rows.find? (fun r => key r = n)

def size (t : AutoTable key) : Nat := t.rows.length

instance : Membership R (AutoTable key) := ⟨fun t r => r ∈ t.rows⟩

@[simp] theorem mem_rows {t : AutoTable key} {r : R} : r ∈ t.rows ↔ r ∈ t := Iff.rfl

@[simp] theorem not_mem_empty (r : R) : r ∉ empty key := List.not_mem_nil

@[simp] theorem mem_insert {t : AutoTable key} {m : RowMaker key} {r : R} :
    r ∈ t.insert m ↔ r ∈ t ∨ r = m.make t.next := by
  change r ∈ t.rows ++ [m.make t.next] ↔ _
  simp

@[simp] theorem mem_keep {t : AutoTable key} {p : R → Bool} {r : R} :
    r ∈ t.keep p ↔ r ∈ t ∧ p r = true :=
  List.mem_filter

@[simp] theorem mem_update {t : AutoTable key} {e : RowEdit key} {r : R} :
    r ∈ t.update e ↔ ∃ old ∈ t, e.edit old = r :=
  List.mem_map

@[simp] theorem next_insert (t : AutoTable key) (m : RowMaker key) :
    (t.insert m).next = t.next + 1 := rfl

@[simp] theorem mem_removeKeys {t : AutoTable key} {keys : List Nat} {r : R} :
    r ∈ t.removeKeys keys ↔ r ∈ t ∧ key r ∉ keys := by
  simp [removeKeys]

theorem key_lt_next {t : AutoTable key} {r : R} (mem : r ∈ t) : key r < t.next := t.fresh r mem

/-- One row a key. -/
theorem row_unique {t : AutoTable key} {a b : R} (ma : a ∈ t) (mb : b ∈ t)
    (same : key a = key b) : a = b := by
  by_contra ne
  have h := List.pairwise_iff_getElem.mp t.ascending
  obtain ⟨i, hi, rfl⟩ := List.getElem_of_mem ma
  obtain ⟨j, hj, rfl⟩ := List.getElem_of_mem mb
  rcases Nat.lt_trichotomy i j with lt | eq | gt
  · have := h i j hi hj lt
    omega
  · subst eq
    exact ne rfl
  · have := h j i hj hi gt
    omega

/-- Keys being unique, a selection of rows of the table names exactly these rows. -/
theorem mem_removeRows {t : AutoTable key} {selected : List R} {r : R}
    (within : ∀ x ∈ selected, x ∈ t) : r ∈ t.removeRows selected ↔ r ∈ t ∧ r ∉ selected := by
  simp only [removeRows, mem_removeKeys, and_congr_right_iff]
  intro mem
  rw [not_iff_not, List.mem_map]
  constructor
  · rintro ⟨x, chosen, same⟩
    rwa [← row_unique (within x chosen) mem same]
  · intro chosen
    exact ⟨r, chosen, rfl⟩

theorem keys_nodup (t : AutoTable key) : (t.rows.map key).Nodup := by
  unfold List.Nodup
  rw [List.pairwise_map]
  exact t.ascending.imp (fun lt => Nat.ne_of_lt lt)

theorem find_eq_some_iff {t : AutoTable key} {n : Nat} {r : R} :
    t.find n = some r ↔ r ∈ t ∧ key r = n := by
  constructor
  · intro found
    exact ⟨List.mem_of_find?_eq_some found, by simpa using List.find?_some found⟩
  · rintro ⟨mem, rfl⟩
    cases found : t.find (key r) with
    | none => simpa using List.find?_eq_none.mp found r mem
    | some other =>
      have sameKey : key other = key r := by simpa using List.find?_some found
      rw [row_unique (List.mem_of_find?_eq_some found) mem sameKey]

theorem find_eq_none_iff {t : AutoTable key} {n : Nat} :
    t.find n = none ↔ ∀ r ∈ t, key r ≠ n := by
  simp [find, List.find?_eq_none]

/-- As many rows go as are selected. -/
theorem size_removeRows {t : AutoTable key} {selected : List R} (within : ∀ x ∈ selected, x ∈ t)
    (nodup : (selected.map key).Nodup) :
    (t.removeRows selected).size + selected.length = t.size := by
  have same : ((t.rows.map key).filter (· ∈ selected.map key)).Perm (selected.map key) := by
    refine (List.perm_ext_iff_of_nodup (t.keys_nodup.filter _) nodup).mpr fun n => ?_
    rw [List.mem_filter, decide_eq_true_eq]
    refine and_iff_right_of_imp fun chosen => ?_
    obtain ⟨x, member, rfl⟩ := List.mem_map.mp chosen
    exact List.mem_map_of_mem (within x member)
  have removed : (t.removeRows selected).size =
      ((t.rows.map key).filter (· ∉ selected.map key)).length := by
    rw [List.filter_map, List.length_map]
    rfl
  have parts := List.length_eq_length_filter_add (l := t.rows.map key) (· ∈ selected.map key)
  have taken : (selected.map key).length = selected.length := List.length_map _
  have all : (t.rows.map key).length = t.size := List.length_map _
  have left := same.length_eq
  simp only [decide_not] at removed
  omega

@[simp] theorem size_insert (t : AutoTable key) (m : RowMaker key) :
    (t.insert m).size = t.size + 1 := by
  simp [size, insert]

/-! A weight on rows, summed over the table. Deletions only lower it. -/

def weigh (t : AutoTable key) (w : R → Nat) : Nat := (t.rows.map w).sum

section Weigh

variable {t : AutoTable key} {w : R → Nat} {r : R}

theorem weigh_keep_le (t : AutoTable key) (p : R → Bool) : (t.keep p).weigh w ≤ t.weigh w :=
  (List.filter_sublist.map w).sum_le_sum (fun _ _ => Nat.zero_le _)

theorem weigh_keep_lt {p : R → Bool} (mem : r ∈ t) (gone : p r = false) :
    (t.keep p).weigh w + w r ≤ t.weigh w := by
  have split : ∀ rows : List R, r ∈ rows →
      ((rows.filter p).map w).sum + w r ≤ (rows.map w).sum := by
    intro rows
    induction rows with
    | nil => intro mem; cases mem
    | cons a rows ih =>
      intro mem
      rcases List.mem_cons.mp mem with rfl | later
      · have fewer := ((List.filter_sublist (p := p) (l := rows)).map w).sum_le_sum
          (fun _ _ => Nat.zero_le _)
        simp only [List.filter_cons, gone, List.map_cons, List.sum_cons]
        simp only [Bool.false_eq_true, ↓reduceIte]
        omega
      · have rest := ih later
        simp only [List.filter_cons, List.map_cons, List.sum_cons]
        split
        · simp only [List.map_cons, List.sum_cons]
          omega
        · omega
  exact split t.rows mem

theorem weigh_removeRows_le (t : AutoTable key) (selected : List R) :
    (t.removeRows selected).weigh w ≤ t.weigh w := weigh_keep_le t _

@[simp] theorem weigh_insert (t : AutoTable key) (m : RowMaker key) :
    (t.insert m).weigh w = t.weigh w + w (m.make t.next) := by
  simp [weigh, insert]

theorem weigh_update_le {e : RowEdit key} (less : ∀ r ∈ t, w (e.edit r) ≤ w r) :
    (t.update e).weigh w ≤ t.weigh w := by
  simp only [weigh, update, List.map_map]
  exact List.sum_le_sum less

theorem weigh_update_lt {e : RowEdit key} (less : ∀ r ∈ t, w (e.edit r) ≤ w r) (mem : r ∈ t)
    (lower : w (e.edit r) < w r) : (t.update e).weigh w < t.weigh w := by
  simp only [weigh, update, List.map_map]
  exact List.sum_lt_sum _ _ less ⟨r, mem, lower⟩

theorem weigh_le_size {n : Nat} (bounded : ∀ r ∈ t, w r ≤ n) : t.weigh w ≤ t.size * n := by
  have bound := List.sum_le_card_nsmul (t.rows.map w) n (by
    intro x mem
    obtain ⟨r, member, rfl⟩ := List.mem_map.mp mem
    exact bounded r member)
  simpa [weigh, size] using bound

end Weigh

end AutoTable

/-- The first `n` rows of a selection in an order; rows the order does not tell apart stay in
    key order. -/
def firstBy (n : Nat) (le : R → R → Bool) (rows : List R) : List R :=
  (rows.insertionSort (fun a b => le a b = true)).take n

section FirstBy

variable {n : Nat} {le : R → R → Bool} {rows : List R} {r : R}

theorem mem_of_mem_firstBy (mem : r ∈ firstBy n le rows) : r ∈ rows := by
  have sorted := List.mem_of_mem_take mem
  rwa [List.mem_insertionSort] at sorted

theorem length_firstBy (n : Nat) (le : R → R → Bool) (rows : List R) :
    (firstBy n le rows).length = min n rows.length := by
  simp [firstBy, List.length_insertionSort]

theorem firstBy_keys_nodup (nodup : (rows.map key).Nodup) :
    ((firstBy n le rows).map key).Nodup := by
  have sorted := (List.perm_insertionSort (fun a b => le a b = true) rows).map key
  exact (sorted.nodup_iff.mpr nodup).sublist ((List.take_sublist _ _).map key)

theorem firstBy_pairwise (total : ∀ a b, le a b = true ∨ le b a = true)
    (trans : ∀ a b c, le a b = true → le b c = true → le a c = true) :
    (firstBy n le rows).Pairwise (fun a b => le a b = true) := by
  have : Std.Total (fun a b => le a b = true) := ⟨total⟩
  have : IsTrans R (fun a b => le a b = true) := ⟨trans⟩
  exact (List.pairwise_insertionSort (fun a b => le a b = true) rows).sublist
    (List.take_sublist _ _)

/-- What the limit leaves out comes after all that it takes. -/
theorem firstBy_le_rest (total : ∀ a b, le a b = true ∨ le b a = true)
    (trans : ∀ a b c, le a b = true → le b c = true → le a c = true) {taken left : R}
    (first : taken ∈ firstBy n le rows) (mem : left ∈ rows) (rest : left ∉ firstBy n le rows) :
    le taken left = true := by
  have : Std.Total (fun a b => le a b = true) := ⟨total⟩
  have : IsTrans R (fun a b => le a b = true) := ⟨trans⟩
  have sorted := List.pairwise_insertionSort (fun a b => le a b = true) rows
  rw [← List.take_append_drop n (rows.insertionSort _)] at sorted
  have later : left ∈ (rows.insertionSort (fun a b => le a b = true)).drop n := by
    have all := (List.mem_insertionSort (fun a b => le a b = true)).mpr mem
    rw [← List.take_append_drop n (rows.insertionSort _)] at all
    exact (List.mem_append.mp all).resolve_left rest
  exact (List.pairwise_append.mp sorted).2.2 taken first left later

theorem firstBy_key_le {T : Type*} [LinearOrder T] {k : R → T} {taken left : R}
    (first : taken ∈ firstBy n (fun a b => decide (k a ≤ k b)) rows) (mem : left ∈ rows)
    (rest : left ∉ firstBy n (fun a b => decide (k a ≤ k b)) rows) : k taken ≤ k left := by
  have order := firstBy_le_rest
    (fun a b => by simpa using le_total (k a) (k b))
    (fun a b c ab bc => by simpa using (of_decide_eq_true ab).trans (of_decide_eq_true bc))
    first mem rest
  exact of_decide_eq_true order

end FirstBy

end AutoTables
