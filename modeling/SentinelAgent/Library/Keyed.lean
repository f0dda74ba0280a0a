import SentinelAgent.Library.Greatest
import SentinelAgent.Library.Maps

/-!
Lists whose elements have keys: of each key only the first is kept, or the best one, in the place
of the first. In the second case an element may have no key and is kept.
-/
namespace Keyed
open Maps (Map)

variable {A K : Type}

/-- Some element has the key. -/
def Has (key : A → Option K) (as : List A) (k : K) : Prop := ∃ a ∈ as, key a = some k

theorem has_append {key : A → Option K} (as bs : List A) (k : K) :
    Has key (as ++ bs) k ↔ Has key as k ∨ Has key bs k := by
  simp only [Has, List.mem_append, or_and_right, exists_or]

theorem has_singleton {key : A → Option K} (a : A) (k : K) : Has key [a] k ↔ key a = some k := by
  simp [Has]

variable [DecidableEq K]

/-- The first of each key that is not among those seen. -/
def keepFirst (key : A → K) : List K → List A → List A
  | _, [] => []
  | seen, a :: as =>
    if key a ∈ seen then keepFirst key seen as else a :: keepFirst key (key a :: seen) as

structure Kept (A K : Type) where
  kept : List A
  -- where the element of a key stands
  index : Map K Nat

def noneKept : Kept A K where
  kept := []
  index := ∅

variable (key : A → Option K) (better : A → A → Bool)

def put (s : Kept A K) (a : A) : Kept A K :=
  match key a with
  | none => { s with kept := s.kept ++ [a] }
  | some k =>
    match s.index.lookup k with
    | some place =>
      if s.kept[place]?.any (better a) then { s with kept := s.kept.set place a } else s
    | none => { kept := s.kept ++ [a], index := s.index.insert k s.kept.length }

def keepBest (as : List A) : List A := (as.foldl (put key better) noneKept).kept

variable {key better}

structure Indexed (key : A → Option K) (s : Kept A K) : Prop where
  stands : ∀ k place, s.index.lookup k = some place →
    ∃ a, s.kept[place]? = some a ∧ key a = some k
  known : ∀ a ∈ s.kept, ∀ k, key a = some k → ∃ place, s.index.lookup k = some place

theorem indexed_noneKept : Indexed key (noneKept : Kept A K) where
  stands k place found := by simp [noneKept] at found
  known a member := by simp [noneKept] at member

theorem getElem?_append_before {kept : List A} {place : Nat} {a : A} (found : kept[place]? = some a)
    (more : List A) : (kept ++ more)[place]? = some a := by
  obtain ⟨inside, same⟩ := List.getElem?_eq_some_iff.mp found
  rw [List.getElem?_append_left inside, found]

section Put
variable {s : Kept A K} {a : A}

/-- What one element does: it is added under no key or a new one, or it stands for its key in
the place of another, or nothing happens. -/
theorem put_cases (better : A → A → Bool) (a : A) (indexed : Indexed key s) :
    (key a = none ∧ put key better s a = { s with kept := s.kept ++ [a] }) ∨
    (∃ k, key a = some k ∧ s.index.lookup k = none ∧
      put key better s a = { kept := s.kept ++ [a], index := s.index.insert k s.kept.length }) ∨
    ∃ k place old, key a = some k ∧ s.index.lookup k = some place ∧ s.kept[place]? = some old ∧
      key old = some k ∧ put key better s a =
        if better a old then { s with kept := s.kept.set place a } else s := by
  cases keyed : key a with
  | none => exact Or.inl ⟨rfl, by simp only [put, keyed]⟩
  | some k =>
    cases found : s.index.lookup k with
    | none => exact Or.inr (Or.inl ⟨k, rfl, found, by simp only [put, keyed, found]⟩)
    | some place =>
      obtain ⟨old, there, same⟩ := indexed.stands k place found
      refine Or.inr (Or.inr ⟨k, place, old, rfl, found, there, same, ?_⟩)
      simp only [put, keyed, found, there, Option.any_some]

theorem indexed_put (indexed : Indexed key s) : Indexed key (put key better s a) := by
  obtain ⟨keyless, step⟩ | ⟨k, keyed, new, step⟩ | ⟨k, place, old, keyed, found, there, same, step⟩ :=
    put_cases better a indexed
  · rw [step]
    refine ⟨fun k place known => ?_, fun b member k keyed => ?_⟩
    · obtain ⟨b, there, same⟩ := indexed.stands k place known
      exact ⟨b, getElem?_append_before there [a], same⟩
    · cases List.mem_append.mp member with
      | inl before => exact indexed.known b before k keyed
      | inr last =>
        rw [List.mem_singleton.mp last, keyless] at keyed
        cases keyed
  · rw [step]
    refine ⟨fun other place known => ?_, fun b member other named => ?_⟩
    · simp only [Maps.lookup_insert_eq] at known
      split at known
      · rename_i here
        cases known
        refine ⟨a, ?_, here ▸ keyed⟩
        rw [List.getElem?_append_right (Nat.le_refl _), Nat.sub_self]
        rfl
      · obtain ⟨b, there, same⟩ := indexed.stands other place known
        exact ⟨b, getElem?_append_before there [a], same⟩
    · simp only [Maps.lookup_insert_eq]
      split
      · exact ⟨_, rfl⟩
      · rename_i different
        cases List.mem_append.mp member with
        | inl before => exact indexed.known b before other named
        | inr last =>
          rw [List.mem_singleton.mp last, keyed] at named
          exact absurd (Option.some.inj named).symm different
  · rw [step]
    split
    · refine ⟨fun other at_place known => ?_, fun b member other named => ?_⟩
      · obtain ⟨b, at_b, of_b⟩ := indexed.stands other at_place known
        by_cases here : place = at_place
        · subst here
          rw [there] at at_b
          cases at_b
          rw [same] at of_b
          cases of_b
          exact ⟨a, List.getElem?_set_self (List.getElem?_eq_some_iff.mp there).1, keyed⟩
        · exact ⟨b, by rw [List.getElem?_set_ne here, at_b], of_b⟩
      · cases List.mem_or_eq_of_mem_set member with
        | inl before => exact indexed.known b before other named
        | inr here =>
          rw [here, keyed] at named
          cases named
          exact ⟨place, found⟩
    · exact indexed

theorem has_put (indexed : Indexed key s) (k : K) :
    Has key (put key better s a).kept k ↔ Has key s.kept k ∨ key a = some k := by
  obtain ⟨_, step⟩ | ⟨_, _, _, step⟩ | ⟨own, place, old, keyed, _, there, same, step⟩ :=
    put_cases better a indexed
  · rw [step, has_append, has_singleton]
  · rw [step, has_append, has_singleton]
  · rw [step]
    split
    · constructor
      · rintro ⟨b, member, named⟩
        cases List.mem_or_eq_of_mem_set member with
        | inl before => exact Or.inl ⟨b, before, named⟩
        | inr here => exact Or.inr (here ▸ named)
      · have inside := (List.getElem?_eq_some_iff.mp there).1
        have now : a ∈ s.kept.set place a :=
          List.mem_of_getElem? (List.getElem?_set_self inside)
        rintro (⟨b, before, named⟩ | named)
        · obtain ⟨at_b, found⟩ := List.mem_iff_getElem?.mp before
          by_cases here : place = at_b
          · subst here
            rw [there] at found
            cases found
            rw [same] at named
            exact ⟨a, now, keyed.trans named⟩
          · exact ⟨b, List.mem_of_getElem? (by rw [List.getElem?_set_ne here, found]), named⟩
        · exact ⟨a, now, named⟩
    · constructor
      · exact Or.inl
      · rintro (before | named)
        · exact before
        · rw [keyed] at named
          cases named
          exact ⟨old, List.mem_of_getElem? there, same⟩

end Put

theorem has_foldl_put {s : Kept A K} (indexed : Indexed key s) (as : List A) (k : K) :
    Has key (as.foldl (put key better) s).kept k ↔ Has key s.kept k ∨ Has key as k := by
  induction as generalizing s with
  | nil => simp [Has]
  | cons a as ih =>
    have first : Has key (a :: as) k ↔ key a = some k ∨ Has key as k := by
      simp [Has]
    rw [List.foldl_cons, ih (indexed_put indexed), has_put indexed, first, or_assoc]

theorem mem_put {s : Kept A K} {a b : A} (member : b ∈ (put key better s a).kept) :
    b ∈ s.kept ∨ b = a := by
  unfold put at member
  split at member
  · simpa using member
  · split at member
    · split at member
      · exact List.mem_or_eq_of_mem_set member
      · exact Or.inl member
    · simpa using member

theorem mem_foldl_put {s : Kept A K} {as : List A} {b : A}
    (member : b ∈ (as.foldl (put key better) s).kept) : b ∈ s.kept ∨ b ∈ as := by
  induction as generalizing s with
  | nil => exact Or.inl member
  | cons a as ih =>
    cases ih member with
    | inl before =>
      cases mem_put before with
      | inl earlier => exact Or.inl earlier
      | inr here => exact Or.inr (here ▸ List.mem_cons_self)
    | inr later => exact Or.inr (List.mem_cons_of_mem a later)

theorem mem_keepBest {as : List A} {b : A} (member : b ∈ keepBest key better as) : b ∈ as :=
  (mem_foldl_put member).resolve_left List.not_mem_nil

/-- No key is lost and none is new. -/
theorem has_keepBest (as : List A) (k : K) : Has key (keepBest key better as) k ↔ Has key as k := by
  rw [keepBest, has_foldl_put indexed_noneKept]
  exact or_iff_right fun ⟨_, member, _⟩ => List.not_mem_nil member

/-! What is kept where the better one is the greater. -/

section Greatest
open Greatest Std

variable {cmp : A → A → Ordering}

/- One element replaced by another that a condition treats alike. -/
theorem filter_set {kept : List A} {place : Nat} {old : A} (there : kept[place]? = some old)
    (a : A) {p : A → Bool} (alike : p a = p old) : (kept.set place a).filter p =
      (kept.take place).filter p ++ (if p old = true then [a] else []) ++
        (kept.drop (place + 1)).filter p := by
  have inside := (List.getElem?_eq_some_iff.mp there).1
  rw [List.set_eq_take_append_cons_drop, if_pos inside, List.filter_append, List.filter_cons, alike,
    List.append_assoc]
  split <;> rfl

theorem filter_parts {kept : List A} {place : Nat} {old : A} (there : kept[place]? = some old)
    (p : A → Bool) : kept.filter p = (kept.take place).filter p ++
      (if p old = true then [old] else []) ++ (kept.drop (place + 1)).filter p := by
  have same : kept.set place old = kept := by
    obtain ⟨inside, here⟩ := List.getElem?_eq_some_iff.mp there
    rw [← here, List.set_getElem_self]
  rw [← filter_set there old rfl, same]

theorem indexed_foldl (key : A → Option K) (better : A → A → Bool) (as : List A) :
    Indexed key (as.foldl (put key better) noneKept) := by
  induction as using List.reverseRecOn with
  | nil => exact indexed_noneKept
  | append_singleton as a ih =>
    rw [List.foldl_append]
    exact indexed_put ih

theorem kept_without_key (better : A → A → Bool) (as : List A) :
    (keepBest key better as).filter (key · = none) = as.filter (key · = none) := by
  unfold keepBest
  induction as using List.reverseRecOn with
  | nil => rfl
  | append_singleton as a ih =>
    have indexed := indexed_foldl key better as
    rw [List.foldl_append, List.foldl_cons, List.foldl_nil, List.filter_append, ← ih]
    obtain ⟨keyless, step⟩ | ⟨k, keyed, -, step⟩ | ⟨k, place, old, keyed, -, there, same, step⟩ :=
      put_cases better a indexed
    · rw [step, List.filter_append]
    · rw [step, List.filter_append]
    · rw [step]
      have none : [a].filter (key · = none) = [] := by simp [keyed]
      rw [none, List.append_nil]
      split
      · have alike : decide (key a = .none) = decide (key old = .none) := by rw [keyed, same]
        rw [filter_set there a alike, filter_parts there]
        simp [same]
      · rfl

/- The keys in the order they first come; what has none stays. -/
def addKey (known : List (Option K)) (k : Option K) : List (Option K) :=
  if k ≠ none ∧ k ∈ known then known else known ++ [k]

def firstKeys (ks : List (Option K)) : List (Option K) := ks.foldl addKey []

theorem keys_keepBest (key : A → Option K) (better : A → A → Bool) (as : List A) :
    (keepBest key better as).map key = firstKeys (as.map key) := by
  unfold keepBest firstKeys
  induction as using List.reverseRecOn with
  | nil => rfl
  | append_singleton as a ih =>
    have indexed := indexed_foldl key better as
    rw [List.foldl_append, List.foldl_cons, List.foldl_nil, List.map_append, List.foldl_append, ← ih]
    simp only [List.map_cons, List.map_nil, List.foldl_cons, List.foldl_nil]
    obtain ⟨keyless, step⟩ | ⟨k, keyed, absent, step⟩ | ⟨k, place, old, keyed, -, there, same, step⟩ :=
      put_cases better a indexed
    · rw [step, addKey, if_neg (fun known => known.1 keyless), List.map_append]
      rfl
    · have new : key a ∉ (as.foldl (put key better) noneKept).kept.map key := by
        intro known
        obtain ⟨b, member, alike⟩ := List.mem_map.mp known
        obtain ⟨place, found⟩ := indexed.known b member k (alike.trans keyed)
        rw [absent] at found
        cases found
      rw [step, addKey, if_neg (fun known => new known.2), List.map_append]
      rfl
    · have member := List.mem_of_getElem? there
      have known : key a ∈ (as.foldl (put key better) noneKept).kept.map key := by
        rw [keyed, ← same]
        exact List.mem_map_of_mem member
      have stays : addKey ((as.foldl (put key better) noneKept).kept.map key) (key a) =
          (as.foldl (put key better) noneKept).kept.map key :=
        if_pos ⟨by simp [keyed], known⟩
      rw [step, stays]
      split
      · obtain ⟨inside, here⟩ := List.getElem?_eq_some_iff.mp there
        have alike : key a = key old := keyed.trans same.symm
        rw [List.map_set, alike, ← List.map_set, ← here, List.set_getElem_self]
      · rfl

theorem firstKeys_nodup (ks : List (Option K)) : ((firstKeys ks).filterMap id).Nodup := by
  unfold firstKeys
  induction ks using List.reverseRecOn with
  | nil => exact List.nodup_nil
  | append_singleton ks k ih =>
    rw [List.foldl_append, List.foldl_cons, List.foldl_nil, addKey]
    split
    · exact ih
    · rename_i new
      rw [List.filterMap_append]
      cases k with
      | none => simpa using ih
      | some k =>
        refine List.nodup_append.mpr ⟨ih, by simp, ?_⟩
        rintro other member _ last rfl
        have here : other = k := by simpa using last
        subst here
        exact new ⟨by simp, by simpa using member⟩

theorem keepBest_nodup (key : A → Option K) (better : A → A → Bool) (as : List A) :
    ((keepBest key better as).filterMap key).Nodup := by
  have keys : (keepBest key better as).filterMap key =
      ((keepBest key better as).map key).filterMap id := by
    rw [List.filterMap_map]
    rfl
  rw [keys, keys_keepBest]
  exact firstKeys_nodup _

/-- What has every key once is kept as it is. -/
theorem keepBest_of_nodup (better : A → A → Bool) {as : List A} (once : (as.filterMap key).Nodup) :
    keepBest key better as = as := by
  unfold keepBest
  induction as using List.reverseRecOn with
  | nil => rfl
  | append_singleton as a ih =>
    rw [List.filterMap_append] at once
    have kept := ih (List.nodup_append.mp once).1
    rw [List.foldl_append, List.foldl_cons, List.foldl_nil]
    obtain ⟨-, step⟩ | ⟨_, -, -, step⟩ | ⟨k, place, old, keyed, -, there, same, -⟩ :=
      put_cases better a (indexed_foldl key better as)
    · rw [step, kept]
    · rw [step, kept]
    · rw [kept] at there
      have before : k ∈ as.filterMap key :=
        List.mem_filterMap.mpr ⟨old, List.mem_of_getElem? there, same⟩
      have last : k ∈ [a].filterMap key := by simp [keyed]
      exact absurd rfl ((List.nodup_append.mp once).2.2 k before k last)

/-- Lists with the same elements of each key differ in their order only. -/
theorem perm_of_parts {as bs : List A}
    (parts : ∀ k, as.filter (key · = k) = bs.filter (key · = k)) : as.Perm bs := by
  classical
  rw [List.perm_iff_count]
  intro a
  have counted (xs : List A) : xs.count a = (xs.filter (key · = key a)).count a :=
    (List.count_filter (by simp)).symm
  rw [counted as, counted bs, parts]

theorem only_one {held : Option A} {old : A} {before after : List A}
    (parts : held.toList = before ++ [old] ++ after) : before = [] ∧ held = some old ∧ after = [] := by
  cases held with
  | none => simp at parts
  | some x =>
    have lengths := congrArg List.length parts
    simp only [Option.toList_some, List.length_append, List.length_cons, List.length_nil] at lengths
    have empty : before = [] := List.length_eq_zero_iff.mp (by omega)
    have empty' : after = [] := List.length_eq_zero_iff.mp (by omega)
    subst empty empty'
    have same : x = old := by simpa using parts
    exact ⟨rfl, congrArg some same, rfl⟩

/-- Of each key the greatest is kept, of several the first. -/
theorem kept_of_key (as : List A) (k : K) :
    (keepBest key (fun a b => cmp a b == .gt) as).filter (key · = some k) =
      (greatest cmp (as.filter (key · = some k))).toList := by
  unfold keepBest
  induction as using List.reverseRecOn with
  | nil => rfl
  | append_singleton as a ih =>
    have indexed := indexed_foldl key (fun a b => cmp a b == .gt) as
    rw [List.foldl_append, List.foldl_cons, List.foldl_nil, List.filter_append]
    obtain ⟨keyless, step⟩ | ⟨own, keyed, absent, step⟩ |
      ⟨own, place, old, keyed, -, there, same, step⟩ :=
        put_cases (fun a b => cmp a b == .gt) a indexed
    · simp [step, keyless, ih]
    · rw [step, List.filter_append, ih]
      by_cases here : own = k
      · subst here
        have empty : greatest cmp (as.filter (key · = some own)) = none := by
          refine Option.toList_eq_nil_iff.mp ?_
          rw [← ih, List.filter_eq_nil_iff]
          intro b member named
          obtain ⟨place, found⟩ := indexed.known b member own (by simpa using named)
          rw [absent] at found
          cases found
        have only : [a].filter (key · = some own) = [a] := by simp [keyed]
        rw [only, greatest_append, empty]
        rfl
      · simp [keyed, here]
    · rw [step]
      by_cases here : own = k
      · subst here
        have only : [a].filter (key · = some own) = [a] := by simp [keyed]
        have alike : decide (key a = some own) = decide (key old = some own) := by rw [keyed, same]
        have parts := filter_parts there (key · = some own)
        rw [ih] at parts
        obtain ⟨first, held, last⟩ := only_one (by simpa [same] using parts)
        rw [only, greatest_append, held]
        by_cases greater : cmp a old = .gt
        · rw [if_pos (by simp [greater]), filter_set there a alike, first, last]
          simp [same, better, List.argAux, greater]
        · rw [if_neg (by simp [greater]), ih, held]
          simp [better, List.argAux, greater]
      · have other : decide (key a = some k) = false := by simp [keyed, here]
        have other' : decide (key old = some k) = false := by simp [same, here]
        have none : [a].filter (key · = some k) = [] := by simp [keyed, here]
        rw [none, List.append_nil, ← ih]
        split
        · rw [filter_set there a (other.trans other'.symm), filter_parts there]
          simp [other']
        · rfl

end Greatest

end Keyed
