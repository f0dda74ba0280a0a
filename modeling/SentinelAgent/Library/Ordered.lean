import Mathlib.Data.List.Induction
import Mathlib.Data.List.Nodup

/-!
Lists of entries with keys: each is collected into an ordered map, where the last entry with
a key stands for the key, and two such maps are compared key by key.
-/
namespace Ordered

variable {K E C : Type}

/-- The entry of the list that stands for the key. -/
def lastOf [DecidableEq K] (key : E → K) (es : List E) (k : K) : Option E :=
  es.reverse.find? fun e => key e = k

section Last
variable [DecidableEq K] {key : E → K} {es : List E} {k : K} {e : E}

theorem lastOf_append_singleton :
    lastOf key (es ++ [e]) k = if key e = k then some e else lastOf key es k := by
  by_cases here : key e = k
  · simp [lastOf, here]
  · simp [lastOf, here]

theorem key_lastOf (last : lastOf key es k = some e) : e ∈ es ∧ key e = k := by
  have found := List.mem_of_find?_eq_some last
  have named := List.find?_some last
  exact ⟨List.mem_reverse.mp found, of_decide_eq_true named⟩

theorem lastOf_eq_none : lastOf key es k = none ↔ ∀ e ∈ es, key e ≠ k := by
  simp [lastOf]

theorem lastOf_of_nodup (distinct : (es.map key).Nodup) (member : e ∈ es) :
    lastOf key es (key e) = some e := by
  cases last : lastOf key es (key e) with
  | none => exact absurd rfl (lastOf_eq_none.mp last e member)
  | some other =>
    obtain ⟨other_member, same⟩ := key_lastOf last
    exact congrArg some (List.inj_on_of_nodup_map distinct other_member member same)

end Last

/- An element of a list in order stands among the first so many when fewer stand before it. -/
theorem mem_take_iff {before : E → E → Prop} [DecidableRel before]
    (asymmetric : ∀ a b, before a b → ¬ before b a) {es : List E} (sorted : es.Pairwise before)
    {e : E} {n : Nat} :
    e ∈ es.take n ↔ e ∈ es ∧ (es.filter fun other => before other e).length < n := by
  induction sorted generalizing n with
  | nil => simp
  | @cons first rest first_before _ ih =>
    cases n with
    | zero => simp
    | succ n =>
      rw [List.take_succ_cons, List.mem_cons, List.mem_cons, ih, List.filter_cons]
      by_cases here : e = first
      · subst here
        have alone : (rest.filter fun other => before other e) = [] := by
          refine List.filter_eq_nil_iff.mpr fun other member => ?_
          simpa using asymmetric e other (first_before other member)
        have itself : ¬ before e e := fun loop => asymmetric e e loop loop
        simp [alone, itself]
      · simp only [here, false_or]
        refine and_congr_right fun member => ?_
        simp [first_before e member]

variable [Ord K] {key : E → K}

def collect (key : E → K) (es : List E) : Std.TreeMap K E :=
  es.foldl (fun m e => m.insert (key e) e) ∅

def collectAs {V : Type} (key : E → K) (value : E → V) (es : List E) : Std.TreeMap K V :=
  es.foldl (fun m e => m.insert (key e) (value e)) ∅

/-- What the new map has under keys the old one lacks, or under a key of both and differently. -/
def arrivals (added : K → E → C) (changed : E → E → Option C) (old new : Std.TreeMap K E) :
    List C :=
  new.toList.filterMap fun entry =>
    match old[entry.1]? with
    | none => some (added entry.1 entry.2)
    | some previous => changed previous entry.2

/-- What only the old map has. -/
def departures (removed : E → C) (old new : Std.TreeMap K E) : List C :=
  (old.toList.filter fun entry => !new.contains entry.1).map fun entry => removed entry.2

variable [DecidableEq K] [Std.TransOrd K] [Std.LawfulEqOrd K]

theorem getElem?_collectAs {V : Type} (value : E → V) (es : List E) (k : K) :
    (collectAs key value es)[k]? = (lastOf key es k).map value := by
  induction es using List.reverseRecOn with
  | nil => rfl
  | append_singleton es e ih =>
    have next : collectAs key value (es ++ [e]) = (collectAs key value es).insert (key e) (value e) := by
      simp [collectAs]
    rw [next, Std.TreeMap.getElem?_insert, ih, lastOf_append_singleton]
    by_cases here : key e = k
    · simp [here]
    · simp [here]

theorem getElem?_collect (es : List E) (k : K) : (collect key es)[k]? = lastOf key es k :=
  (getElem?_collectAs id es k).trans Option.map_id'

omit [DecidableEq K] in
/- Two maps with the same entries in order hold the same. -/
theorem getElem?_of_toList {V : Type} {m n : Std.TreeMap K V} (same : m.toList = n.toList) (k : K) :
    m[k]? = n[k]? := by
  ext v
  rw [← Std.TreeMap.mem_toList_iff_getElem?_eq_some, same,
    Std.TreeMap.mem_toList_iff_getElem?_eq_some]

theorem mem_arrivals {added : K → E → C} {changed : E → E → Option C} {old new : List E} {c : C} :
    c ∈ arrivals added changed (collect key old) (collect key new) ↔
      ∃ k e, lastOf key new k = some e ∧
        ((lastOf key old k = none ∧ added k e = c) ∨
          ∃ previous, lastOf key old k = some previous ∧ changed previous e = some c) := by
  simp only [arrivals, List.mem_filterMap, Prod.exists,
    Std.TreeMap.mem_toList_iff_getElem?_eq_some, getElem?_collect]
  refine exists_congr fun k => exists_congr fun e => and_congr_right fun _ => ?_
  cases lastOf key old k with
  | none => simp
  | some previous => simp

theorem mem_departures {removed : E → C} {old new : List E} {c : C} :
    c ∈ departures removed (collect key old) (collect key new) ↔
      ∃ k e, lastOf key old k = some e ∧ lastOf key new k = none ∧ removed e = c := by
  simp only [departures, List.mem_map, List.mem_filter, Prod.exists,
    Std.TreeMap.mem_toList_iff_getElem?_eq_some, getElem?_collect,
    Std.TreeMap.contains_eq_isSome_getElem?, and_assoc]
  simp

/-- What holds of each kind of change holds of all of them. -/
theorem all_changes {P : C → Prop} {added : K → E → C} {changed : E → E → Option C}
    {removed : E → C} (of_added : ∀ k e, P (added k e))
    (of_changed : ∀ previous e c, changed previous e = some c → P c)
    (of_removed : ∀ e, P (removed e)) {old new : List E} {c : C}
    (reported : c ∈ arrivals added changed (collect key old) (collect key new) ++
      departures removed (collect key old) (collect key new)) : P c := by
  cases List.mem_append.mp reported with
  | inl arrived =>
    obtain ⟨k, e, _, ⟨_, change⟩ | ⟨previous, _, change⟩⟩ := mem_arrivals.mp arrived
    · rw [← change]
      exact of_added k e
    · exact of_changed previous e c change
  | inr departed =>
    obtain ⟨_, e, _, _, change⟩ := mem_departures.mp departed
    rw [← change]
    exact of_removed e

theorem arrivals_self {added : K → E → C} {changed : E → E → Option C}
    (same : ∀ e, changed e e = none) (es : List E) :
    arrivals added changed (collect key es) (collect key es) = [] := by
  refine List.eq_nil_iff_forall_not_mem.mpr fun c reported => ?_
  obtain ⟨k, e, here, ⟨absent, _⟩ | ⟨previous, before, change⟩⟩ := mem_arrivals.mp reported
  · rw [here] at absent
    cases absent
  · rw [here] at before
    cases before
    rw [same] at change
    cases change

theorem departures_self {removed : E → C} (es : List E) :
    departures removed (collect key es) (collect key es) = [] := by
  refine List.eq_nil_iff_forall_not_mem.mpr fun c reported => ?_
  obtain ⟨k, e, here, absent, _⟩ := mem_departures.mp reported
  rw [here] at absent
  cases absent

end Ordered
