import Mathlib.Data.List.Nodup
import Mathlib.Data.List.Perm.Basic
import Mathlib.Logic.Equiv.Basic

/-!
Lists in another order. A reordering renames all places, those past the end too, and what stood
at a place is found at its new one.
-/
namespace Places

variable {α : Type*}

def Moved (σ : Equiv.Perm ℕ) (l l' : List α) : Prop := ∀ i, l'[σ i]? = l[i]?

/-- The first place stays, the others move as before. -/
def behind (σ : Equiv.Perm ℕ) : Equiv.Perm ℕ where
  toFun
    | 0 => 0
    | i + 1 => σ i + 1
  invFun
    | 0 => 0
    | i + 1 => σ.symm i + 1
  left_inv i := by cases i <;> simp
  right_inv i := by cases i <;> simp

theorem exists_moved {l l' : List α} (same : l.Perm l') : ∃ σ, Moved σ l l' := by
  induction same with
  | nil => exact ⟨Equiv.refl ℕ, fun _ => rfl⟩
  | cons x _ ih =>
    obtain ⟨σ, moved⟩ := ih
    refine ⟨behind σ, fun i => ?_⟩
    cases i with
    | zero => rfl
    | succ i => exact moved i
  | swap x y l =>
    refine ⟨Equiv.swap 0 1, fun i => ?_⟩
    match i with
    | 0 => rfl
    | 1 => rfl
    | i + 2 =>
      rw [Equiv.swap_apply_of_ne_of_ne (by omega) (by omega)]
      rfl
  | trans _ _ ih ih' =>
    obtain ⟨σ, moved⟩ := ih
    obtain ⟨τ, moved'⟩ := ih'
    exact ⟨σ.trans τ, fun i => (moved' (σ i)).trans (moved i)⟩

theorem moved_symm {σ : Equiv.Perm ℕ} {l l' : List α} (moved : Moved σ l l') :
    Moved σ.symm l' l := by
  intro i
  rw [← moved (σ.symm i), Equiv.apply_symm_apply]

theorem mem_moved {σ : Equiv.Perm ℕ} {l l' : List α} (moved : Moved σ l l') {x : α} :
    x ∈ l' ↔ x ∈ l := by
  simp only [List.mem_iff_getElem?]
  constructor
  · rintro ⟨i, found⟩
    exact ⟨σ.symm i, by rw [moved_symm moved i, found]⟩
  · rintro ⟨i, found⟩
    exact ⟨σ i, by rw [moved i, found]⟩

/-- The places of the entries a condition picks. -/
def picked (p : α → Bool) (l : List α) : List ℕ :=
  (l.zipIdx.filter (fun entry => p entry.1)).map (fun entry => entry.2)

theorem mem_picked {p : α → Bool} {l : List α} {i : ℕ} :
    i ∈ picked p l ↔ ∃ x, l[i]? = some x ∧ p x = true := by
  simp only [picked, List.mem_map, List.mem_filter]
  constructor
  · rintro ⟨⟨x, j⟩, ⟨entry, holds⟩, rfl⟩
    exact ⟨x, List.mem_zipIdx_iff_getElem?.mp entry, holds⟩
  · rintro ⟨x, found, holds⟩
    exact ⟨(x, i), ⟨List.mem_zipIdx_iff_getElem?.mpr found, holds⟩, rfl⟩

theorem picked_nodup (p : α → Bool) (l : List α) : (picked p l).Nodup := by
  have part : (picked p l).Sublist (l.zipIdx.map (fun entry => entry.2)) :=
    List.Sublist.map _ List.filter_sublist
  rw [List.zipIdx_map_snd] at part
  exact part.nodup (List.nodup_range')

theorem picked_moved {σ : Equiv.Perm ℕ} {l l' : List α} (moved : Moved σ l l') (p : α → Bool) :
    (picked p l').Perm ((picked p l).map σ) := by
  rw [List.perm_ext_iff_of_nodup (picked_nodup p l') ((picked_nodup p l).map σ.injective)]
  intro i
  rw [mem_picked, List.mem_map]
  constructor
  · rintro ⟨x, found, holds⟩
    exact ⟨σ.symm i, mem_picked.mpr ⟨x, by rw [moved_symm moved i, found], holds⟩,
      σ.apply_symm_apply i⟩
  · rintro ⟨j, member, rfl⟩
    obtain ⟨x, found, holds⟩ := mem_picked.mp member
    exact ⟨x, by rw [moved j, found], holds⟩

theorem filterMap_picked (p : α → Bool) (l : List α) :
    l.zipIdx.filterMap (fun entry => if p entry.1 = true then some entry.2 else none) =
      picked p l := by
  rw [picked, ← List.filterMap_eq_map, List.filterMap_filter]
  rfl

/-- Places noted with the keys of their entries, by key. -/
theorem keyed_picked {K : Type} [DecidableEq K] (key : α → Option K) (k : K) (l : List α) :
    ((l.zipIdx.filterMap (fun entry => (key entry.1).map (fun k => (k, entry.2)))).filter
      (fun entry => decide (entry.1 = k))).map (fun entry => entry.2) =
      picked (fun x => decide (key x = some k)) l := by
  rw [← filterMap_picked, List.filter_filterMap, List.map_filterMap]
  congr 1
  funext entry
  cases found : key entry.1 with
  | none => simp
  | some k' => by_cases same : k' = k <;> simp [same]

/-- What was listed still is, unless it stood at the place that was written to. -/
theorem mem_set_or {l : List α} {x : α} (listed : x ∈ l) (n : ℕ) (y : α) :
    x ∈ l.set n y ∨ l[n]? = some x := by
  obtain ⟨i, found⟩ := List.mem_iff_getElem?.mp listed
  by_cases here : n = i
  · exact Or.inr (here ▸ found)
  · left
    refine List.mem_iff_getElem?.mpr ⟨i, ?_⟩
    rw [List.getElem?_set_ne here, found]

theorem mem_eraseIdx_or {l : List α} {x : α} (listed : x ∈ l) (n : ℕ) :
    x ∈ l.eraseIdx n ∨ l[n]? = some x := by
  obtain ⟨i, found⟩ := List.mem_iff_getElem?.mp listed
  by_cases here : i = n
  · exact Or.inr (here ▸ found)
  · exact Or.inl (List.mem_eraseIdx_iff_getElem?.mpr ⟨i, here, found⟩)

theorem mem_set_place {l : List α} {n : ℕ} {x : α} (found : l[n]? = some x) (y : α) :
    y ∈ l.set n y := by
  obtain ⟨within, _⟩ := List.getElem?_eq_some_iff.mp found
  exact List.mem_set within y

/-- A list is what stands at a place of it, and the others. -/
theorem place_perm {l : List α} {n : ℕ} {x : α} (found : l[n]? = some x) :
    (x :: l.eraseIdx n).Perm l := by
  obtain ⟨within, here⟩ := List.getElem?_eq_some_iff.mp found
  exact here ▸ List.getElem_cons_eraseIdx_perm within

end Places
