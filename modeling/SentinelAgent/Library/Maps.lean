import Mathlib.Algebra.BigOperators.Group.Multiset.Basic
import Mathlib.Data.Finmap

/-!
Finite maps whose values do not depend on the key: what is kept of one by a condition on its
entries, how many entries it has and what they come to. The rest is Mathlib's.
-/
namespace Maps

abbrev Map (K V : Type) := Finmap (fun _ : K => V)

variable {K V : Type} [DecidableEq K]

def Map.size (m : Map K V) : Nat := m.keys.card

def Map.retain (p : K → V → Bool) (m : Map K V) : Map K V where
  entries := m.entries.filter (fun entry => p entry.1 entry.2 = true)
  nodupKeys := by
    refine Multiset.nodup_keys.mp (Multiset.nodup_of_le ?_ (Multiset.nodup_keys.mpr m.nodupKeys))
    exact Multiset.map_le_map (Multiset.filter_le _ _)

/- Every value replaced by another. -/
def Map.adjust {W : Type} (f : K → V → W) (m : Map K V) : Map K W where
  entries := m.entries.map fun entry => ⟨entry.1, f entry.1 entry.2⟩
  nodupKeys := by
    refine Multiset.nodup_keys.mp ?_
    have same : (m.entries.map fun entry =>
        (⟨entry.1, f entry.1 entry.2⟩ : Sigma fun _ : K => W)).keys = m.entries.keys := by
      simp only [Multiset.keys, Multiset.map_map, Function.comp_def]
    exact same ▸ Multiset.nodup_keys.mpr m.nodupKeys

theorem lookup_insert_eq (m : Map K V) (a b : K) (v : V) :
    (m.insert a v).lookup b = if b = a then some v else m.lookup b := by
  by_cases same : b = a
  · subst same
    simp
  · simp [same, Finmap.lookup_insert_of_ne]

theorem lookup_erase_eq (m : Map K V) (a b : K) :
    (m.erase a).lookup b = if b = a then none else m.lookup b := by
  by_cases same : b = a
  · subst same
    simp
  · simp [same, Finmap.lookup_erase_ne]

theorem lookup_retain_eq_some {p : K → V → Bool} {m : Map K V} {k : K} {v : V} :
    (m.retain p).lookup k = some v ↔ m.lookup k = some v ∧ p k v = true := by
  rw [← Option.mem_def, ← Option.mem_def, Finmap.mem_lookup_iff, Finmap.mem_lookup_iff]
  exact Multiset.mem_filter

theorem lookup_retain (p : K → V → Bool) (m : Map K V) (k : K) :
    (m.retain p).lookup k = (m.lookup k).filter (p k) := by
  ext v
  rw [lookup_retain_eq_some, Option.filter_eq_some_iff]

theorem lookup_adjust {W : Type} (f : K → V → W) (m : Map K V) (k : K) :
    (m.adjust f).lookup k = (m.lookup k).map (f k) := by
  ext v
  rw [← Option.mem_def, ← Option.mem_def, Finmap.mem_lookup_iff, Option.mem_map]
  constructor
  · intro kept
    obtain ⟨entry, member, same⟩ := Multiset.mem_map.mp kept
    obtain ⟨rfl, rfl⟩ : entry.1 = k ∧ f entry.1 entry.2 = v := by simpa using same
    exact ⟨entry.2, Finmap.mem_lookup_iff.mpr member, rfl⟩
  · rintro ⟨w, found, rfl⟩
    exact Multiset.mem_map.mpr ⟨⟨k, w⟩, Finmap.mem_lookup_iff.mp found, rfl⟩

theorem mem_iff_lookup {m : Map K V} {k : K} : k ∈ m ↔ ∃ v, m.lookup k = some v := Finmap.mem_iff

theorem notMem_retain {p : K → V → Bool} {m : Map K V} {k : K} (absent : k ∉ m) :
    k ∉ m.retain p := by
  intro kept
  obtain ⟨v, found⟩ := mem_iff_lookup.mp kept
  exact absent (mem_iff_lookup.mpr ⟨v, (lookup_retain_eq_some.mp found).1⟩)

/-- A map whose keys all lie in a finite set is no larger than the set. -/
theorem size_le_card {m : Map K V} {s : Finset K}
    (within : ∀ k v, m.lookup k = some v → k ∈ s) : m.size ≤ s.card := by
  apply Finset.card_le_card
  intro k present
  obtain ⟨v, found⟩ := mem_iff_lookup.mp (Finmap.mem_keys.mp present)
  exact within k v found

theorem size_insert_le (m : Map K V) (k : K) (v : V) : Map.size (m.insert k v) ≤ m.size + 1 := by
  refine (size_le_card (s := insert k m.keys) ?_).trans (Finset.card_insert_le _ _)
  intro other value found
  rw [lookup_insert_eq] at found
  split at found
  · rename_i same
    exact same ▸ Finset.mem_insert_self k m.keys
  · exact Finset.mem_insert_of_mem (Finmap.mem_keys.mpr (mem_iff_lookup.mpr ⟨value, found⟩))

/-! Entries put in one after the other, each under its key. -/

def insertAll {E : Type} (key : E → K) (value : E → V) (es : List E) (m : Map K V) : Map K V :=
  es.foldl (fun m e => m.insert (key e) (value e)) m

theorem lookup_insertAll_none {E : Type} {key : E → K} {value : E → V} {es : List E} {k : K}
    (other : ∀ e ∈ es, key e ≠ k) (m : Map K V) :
    (insertAll key value es m).lookup k = m.lookup k := by
  induction es generalizing m with
  | nil => rfl
  | cons e es ih =>
    have rest := ih (fun e member => other e (List.mem_cons_of_mem _ member))
      (m.insert (key e) (value e))
    refine rest.trans ?_
    rw [lookup_insert_eq, if_neg fun same => other e List.mem_cons_self same.symm]

/-- Entries under one key that all have one value. -/
theorem lookup_insertAll_some {E : Type} {key : E → K} {value : E → V} {es : List E} {k : K} {v : V}
    (named : ∃ e ∈ es, key e = k) (alike : ∀ e ∈ es, key e = k → value e = v) (m : Map K V) :
    (insertAll key value es m).lookup k = some v := by
  induction es generalizing m with
  | nil =>
    obtain ⟨e, member, _⟩ := named
    cases member
  | cons first es ih =>
    have rest := fun e member => alike e (List.mem_cons_of_mem first member)
    by_cases later : ∃ e ∈ es, key e = k
    · exact ih later rest (m.insert (key first) (value first))
    · have others : ∀ e ∈ es, key e ≠ k := fun e member same => later ⟨e, member, same⟩
      have here : key first = k := by
        obtain ⟨e, member, same⟩ := named
        cases List.mem_cons.mp member with
        | inl is_first => exact is_first ▸ same
        | inr is_later => exact absurd same (others e is_later)
      refine (lookup_insertAll_none others (m.insert (key first) (value first))).trans ?_
      rw [lookup_insert_eq, if_pos here.symm, alike first List.mem_cons_self here]

/-! What the values of a map come to, each for so much. -/

def total (f : V → Nat) (m : Map K V) : Nat := (m.entries.map fun entry => f entry.2).sum

theorem total_insert_new (f : V → Nat) {m : Map K V} {k : K} (absent : k ∉ m) (v : V) :
    total f (m.insert k v) = f v + total f m := by
  rw [total, Finmap.entries_insert_of_notMem absent, Multiset.map_cons, Multiset.sum_cons]
  rfl

theorem total_erase (f : V → Nat) (m : Map K V) (k : K) :
    total f (m.erase k) + ((m.lookup k).map f).getD 0 = total f m := by
  cases there : m.lookup k with
  | none =>
    have same : m.erase k = m := by
      apply Finmap.ext_lookup
      intro x
      rw [lookup_erase_eq]
      split
      · rename_i here
        rw [here, there]
      · rfl
    rw [same]
    rfl
  | some v =>
    have again : (m.erase k).insert k v = m := by
      apply Finmap.ext_lookup
      intro x
      rw [lookup_insert_eq, lookup_erase_eq]
      split
      · rename_i here
        rw [here, there]
      · rfl
    calc total f (m.erase k) + f v
        = total f ((m.erase k).insert k v) := by
          rw [total_insert_new f Finmap.notMem_erase_self, Nat.add_comm]
      _ = total f m := by rw [again]

theorem total_insert (f : V → Nat) (m : Map K V) (k : K) (v : V) :
    total f (m.insert k v) + ((m.lookup k).map f).getD 0 = total f m + f v := by
  have fresh : (m.erase k).insert k v = m.insert k v := by
    apply Finmap.ext_lookup
    intro x
    rw [lookup_insert_eq, lookup_insert_eq, lookup_erase_eq]
    split
    · rfl
    · rfl
  have erased := total_erase f m k
  rw [← fresh, total_insert_new f Finmap.notMem_erase_self]
  omega

/-! Entries of a list under their names: the last entry with a name wins. -/

variable {E : Type}

def insertEach (m : Map K V) (names : List K) (v : V) : Map K V :=
  names.foldl (fun m name => m.insert name v) m

def nameFrom (names : E → List K) (value : Nat → V) : Nat → List E → Map K V → Map K V
  | _, [], m => m
  | i, e :: es, m => nameFrom names value (i + 1) es (insertEach m (names e) (value i))

theorem lookup_insertEach (m : Map K V) (names : List K) (v : V) (k : K) :
    (insertEach m names v).lookup k = if k ∈ names then some v else m.lookup k := by
  induction names generalizing m with
  | nil => simp [insertEach]
  | cons name names ih =>
    have next : (insertEach m (name :: names) v).lookup k =
        (insertEach (m.insert name v) names v).lookup k := rfl
    rw [next, ih, lookup_insert_eq]
    by_cases later : k ∈ names
    · simp [later]
    · by_cases here : k = name
      · simp [here]
      · simp [later, here]

theorem lookup_nameFrom_none {names : E → List K} {value : Nat → V} {es : List E} {k : K}
    (unnamed : ∀ e ∈ es, k ∉ names e) (i : Nat) (m : Map K V) :
    (nameFrom names value i es m).lookup k = m.lookup k := by
  induction es generalizing i m with
  | nil => rfl
  | cons e es ih =>
    have first := unnamed e List.mem_cons_self
    rw [nameFrom, ih (fun e' member => unnamed e' (List.mem_cons_of_mem e member)),
      lookup_insertEach, if_neg first]

theorem lookup_nameFrom_some {names : E → List K} {value : Nat → V} {es : List E} {k : K}
    (named : ∃ e ∈ es, k ∈ names e) (i : Nat) (m : Map K V) :
    ∃ j e, es[j]? = some e ∧ k ∈ names e ∧
      (nameFrom names value i es m).lookup k = some (value (i + j)) ∧
      ∀ j' e', j < j' → es[j']? = some e' → k ∉ names e' := by
  induction es generalizing i m with
  | nil =>
    obtain ⟨e, member, _⟩ := named
    cases member
  | cons e es ih =>
    by_cases later : ∃ e' ∈ es, k ∈ names e'
    · obtain ⟨j, e', found, carries, value_eq, last⟩ :=
        ih later (i + 1) (insertEach m (names e) (value i))
      have shift : i + 1 + j = i + (j + 1) := by omega
      rw [shift] at value_eq
      refine ⟨j + 1, e', found, carries, value_eq, ?_⟩
      intro j' e'' after found'
      cases j' with
      | zero => omega
      | succ j' => exact last j' e'' (by omega) found'
    · have none_later : ∀ e' ∈ es, k ∉ names e' := fun e' member carries =>
        later ⟨e', member, carries⟩
      obtain ⟨e', member, carries⟩ := named
      have its : e' = e := by
        rcases List.mem_cons.mp member with same | rest
        · exact same
        · exact absurd carries (none_later e' rest)
      subst its
      refine ⟨0, e', rfl, carries, ?_, ?_⟩
      · rw [nameFrom, lookup_nameFrom_none none_later, lookup_insertEach, if_pos carries]
        rfl
      · intro j' e'' after found'
        cases j' with
        | zero => omega
        | succ j' => exact none_later e'' (List.mem_of_getElem? found')

/-! Lists under keys, each value put at the end of its key's list. -/

def push (m : Map K (List V)) (entry : K × V) : Map K (List V) :=
  m.insert entry.1 ((m.lookup entry.1).getD [] ++ [entry.2])

def pushAll (entries : List (K × V)) (m : Map K (List V)) : Map K (List V) :=
  entries.foldl push m

theorem lookup_pushAll (entries : List (K × V)) (m : Map K (List V)) (k : K) :
    ((pushAll entries m).lookup k).getD [] = (m.lookup k).getD [] ++
      (entries.filter (fun entry => decide (entry.1 = k))).map (fun entry => entry.2) := by
  induction entries generalizing m with
  | nil => simp [pushAll]
  | cons entry entries ih =>
    have next : (pushAll (entry :: entries) m).lookup k =
        (pushAll entries (push m entry)).lookup k := rfl
    rw [next, ih, push, lookup_insert_eq]
    by_cases here : k = entry.1
    · subst here
      simp
    · have other : ¬ entry.1 = k := fun same => here same.symm
      simp [here, other]

theorem mem_pushAll {entries : List (K × V)} {m : Map K (List V)} {k : K} :
    k ∈ pushAll entries m ↔ k ∈ m ∨ ∃ entry ∈ entries, entry.1 = k := by
  induction entries generalizing m with
  | nil => simp [pushAll]
  | cons entry entries ih =>
    have next : pushAll (entry :: entries) m = pushAll entries (push m entry) := rfl
    rw [next, ih, push, Finmap.mem_insert]
    simp only [List.mem_cons, exists_eq_or_imp]
    tauto

end Maps
