import Mathlib.Data.List.Nodup

/-!
Numbered queries of which each is answered page by page. A queue says which queries wait, and
for which page: the first, or the one a token stands for. A page taken in answers the query it
is for and puts it back at the end of the queue where it names a token.
-/
namespace Paged

variable {Q T V : Type}

structure Page (Q T V : Type) where
  index : Nat
  query : Q
  values : V
  next : Option T

/-- The pages of one query, each asked for with the token of the page before it, and what is
waited for after them: nothing, the first page or the page of a token. -/
inductive Chain (asks : Option T → Q → Prop) : List (Page Q T V) → Option (Option T) → Prop
  | start : Chain asks [] (some none)
  | answer {pages : List (Page Q T V)} {asked : Option T} {page : Page Q T V} :
    Chain asks pages (some asked) → asks asked page.query →
      Chain asks (pages ++ [page]) (page.next.map some)

def pagesOf (log : List (Page Q T V)) (i : Nat) : List (Page Q T V) :=
  log.filter fun page => page.index = i

def waitsFor (queue : List (Nat × Option T)) (i : Nat) : Option (Option T) :=
  (queue.find? fun entry => entry.1 = i).map Prod.snd

structure Followed (asks : Nat → Option T → Q → Prop) (total : Nat) (log : List (Page Q T V))
    (queue : List (Nat × Option T)) : Prop where
  distinct : (queue.map Prod.fst).Nodup
  inRange : ∀ entry ∈ queue, entry.1 < total
  chains : ∀ i < total, Chain (asks i) (pagesOf log i) (waitsFor queue i)

variable {asks : Nat → Option T → Q → Prop} {total : Nat} {log : List (Page Q T V)}
  {queue : List (Nat × Option T)}

theorem pagesOf_append_singleton (page : Page Q T V) (i : Nat) :
    pagesOf (log ++ [page]) i = if page.index = i then pagesOf log i ++ [page] else pagesOf log i := by
  by_cases here : page.index = i
  · simp [pagesOf, here]
  · simp [pagesOf, here]

theorem waitsFor_cons (entry : Nat × Option T) (i : Nat) :
    waitsFor (entry :: queue) i = if entry.1 = i then some entry.2 else waitsFor queue i := by
  by_cases here : entry.1 = i
  · simp [waitsFor, here]
  · simp [waitsFor, here]

theorem waitsFor_append (more : List (Nat × Option T)) (i : Nat) :
    waitsFor (queue ++ more) i = (waitsFor queue i).or (waitsFor more i) := by
  simp only [waitsFor, List.find?_append]
  cases queue.find? fun entry => entry.1 = i with
  | none => rfl
  | some entry => rfl

theorem waitsFor_eq_none {i : Nat} (absent : i ∉ queue.map Prod.fst) : waitsFor queue i = none := by
  induction queue with
  | nil => rfl
  | cons entry queue ih =>
    rw [List.map_cons, List.mem_cons, not_or] at absent
    rw [waitsFor_cons, if_neg fun same => absent.1 same.symm]
    exact ih absent.2

/-- What a page puts back on the queue. -/
def again (page : Page Q T V) : List (Nat × Option T) :=
  (page.next.map fun token => (page.index, some token)).toList

theorem mem_again {page : Page Q T V} {entry : Nat × Option T} (member : entry ∈ again page) :
    entry.1 = page.index := by
  unfold again at member
  cases next : page.next with
  | none =>
    rw [next] at member
    cases member
  | some token =>
    rw [next] at member
    cases List.mem_singleton.mp member
    rfl

theorem waitsFor_again (page : Page Q T V) (i : Nat) :
    waitsFor (again page) i = if page.index = i then page.next.map some else none := by
  unfold again
  cases page.next with
  | none => simp [waitsFor]
  | some token =>
    rw [Option.map_some, Option.toList_some, waitsFor_cons]
    rfl

/-- Every query waits for its first page. -/
def unasked (numbers : List Nat) : List (Nat × Option T) := numbers.map fun i => (i, none)

theorem numbers_unasked (numbers : List Nat) :
    (unasked numbers : List (Nat × Option T)).map Prod.fst = numbers := by
  induction numbers with
  | nil => rfl
  | cons i numbers ih => exact congrArg (i :: ·) ih

theorem waitsFor_unasked {numbers : List Nat} {i : Nat} (member : i ∈ numbers) :
    waitsFor (unasked numbers : List (Nat × Option T)) i = some none := by
  induction numbers with
  | nil => cases member
  | cons j numbers ih =>
    have next : (unasked (j :: numbers) : List (Nat × Option T)) = (j, none) :: unasked numbers :=
      rfl
    rw [next, waitsFor_cons]
    by_cases here : j = i
    · rw [if_pos here]
    · rw [if_neg here]
      exact ih ((List.mem_cons.mp member).resolve_left fun same => here same.symm)

theorem followed_start :
    Followed asks total ([] : List (Page Q T V)) (unasked (List.range total)) where
  distinct := by
    rw [numbers_unasked]
    exact List.nodup_range
  inRange := by
    intro entry member
    have numbered : entry.1 ∈ (unasked (List.range total) : List (Nat × Option T)).map Prod.fst :=
      List.mem_map.mpr ⟨entry, member, rfl⟩
    rw [numbers_unasked] at numbered
    exact List.mem_range.mp numbered
  chains := by
    intro i bound
    rw [waitsFor_unasked (List.mem_range.mpr bound)]
    exact Chain.start

/-- The page that the first of the queue waits for is taken in. -/
theorem followed_answer {page : Page Q T V} {asked : Option T}
    (followed : Followed asks total log ((page.index, asked) :: queue))
    (query : asks page.index asked page.query) :
    Followed asks total (log ++ [page]) (queue ++ again page) where
  distinct := by
    obtain ⟨absent, distinct⟩ := List.nodup_cons.mp followed.distinct
    rw [List.map_append]
    refine List.nodup_append.mpr ⟨distinct, ?_, ?_⟩
    · unfold again
      cases page.next with
      | none => exact List.nodup_nil
      | some token => exact List.nodup_singleton _
    · intro i waiting j put_back same
      obtain ⟨entry, member, number⟩ := List.mem_map.mp put_back
      rw [mem_again member] at number
      rw [same, ← number] at waiting
      exact absent waiting
  inRange := by
    intro entry member
    cases List.mem_append.mp member with
    | inl waiting => exact followed.inRange entry (List.mem_cons_of_mem _ waiting)
    | inr put_back =>
      rw [mem_again put_back]
      exact followed.inRange _ List.mem_cons_self
  chains := by
    intro i bound
    have chain := followed.chains i bound
    rw [waitsFor_cons] at chain
    rw [pagesOf_append_singleton, waitsFor_append, waitsFor_again]
    by_cases here : page.index = i
    · have absent := (List.nodup_cons.mp followed.distinct).1
      rw [here] at absent
      rw [if_pos here] at chain
      rw [here] at query
      rw [if_pos here, if_pos here, waitsFor_eq_none absent, Option.none_or]
      exact Chain.answer chain query
    · rw [if_neg here] at chain
      rw [if_neg here, if_neg here, Option.or_none]
      exact chain

theorem followed_done (followed : Followed asks total log []) {i : Nat} (bound : i < total) :
    Chain (asks i) (pagesOf log i) none :=
  followed.chains i bound

/-- The first page is waited for, or it is there. -/
theorem chain_first {asked : Option T → Q → Prop} {pages : List (Page Q T V)}
    {waits : Option (Option T)} (chain : Chain asked pages waits) :
    waits = some none ∨ ∃ page ∈ pages, asked none page.query := by
  induction chain with
  | start => exact Or.inl rfl
  | @answer pages token page before query ih =>
    right
    obtain first | ⟨earlier, member, asks⟩ := ih
    · cases first
      exact ⟨page, by simp, query⟩
    · exact ⟨earlier, by simp [member], asks⟩

/-- So is the page that another names. -/
theorem chain_next {asked : Option T → Q → Prop} {pages : List (Page Q T V)}
    {waits : Option (Option T)} (chain : Chain asked pages waits) {page : Page Q T V}
    (member : page ∈ pages) {token : T} (names : page.next = some token) :
    waits = some (some token) ∨ ∃ later ∈ pages, asked (some token) later.query := by
  induction chain with
  | start => cases member
  | @answer pages asks last before query ih =>
    cases List.mem_append.mp member with
    | inl earlier =>
      right
      obtain waited | ⟨later, there, asked_later⟩ := ih earlier
      · cases waited
        exact ⟨last, by simp, query⟩
      · exact ⟨later, by simp [there], asked_later⟩
    | inr here =>
      rw [List.mem_singleton.mp here] at names
      exact Or.inl (by rw [names, Option.map_some])

/-! A list cut into pieces of one size, the last one perhaps smaller. -/

def cut (size : Nat) {A : Type} : Nat → List A → List (List A)
  | 0, _ => []
  | pieces + 1, as => if as = [] then [] else as.take size :: cut size pieces (as.drop size)

def chunks (size : Nat) {A : Type} (as : List A) : List (List A) := cut size as.length as

theorem flatten_cut {A : Type} {size pieces : Nat} (positive : 0 < size) (as : List A)
    (enough : as.length ≤ pieces) : (cut size pieces as).flatten = as := by
  induction pieces generalizing as with
  | zero =>
    have empty : as.length = 0 := by omega
    rw [List.length_eq_zero_iff.mp empty]
    rfl
  | succ pieces ih =>
    unfold cut
    split
    · rename_i empty
      rw [empty]
      rfl
    · have shorter : (as.drop size).length ≤ pieces := by
        rw [List.length_drop]
        omega
      rw [List.flatten_cons, ih _ shorter, List.take_append_drop]

theorem flatten_chunks {A : Type} {size : Nat} (positive : 0 < size) (as : List A) :
    (chunks size as).flatten = as :=
  flatten_cut positive as (Nat.le_refl _)

theorem length_cut_le {A : Type} {size pieces limit : Nat} {as : List A}
    (few : as.length ≤ size * limit) : (cut size pieces as).length ≤ limit := by
  induction pieces generalizing as limit with
  | zero => exact Nat.zero_le _
  | succ pieces ih =>
    unfold cut
    split
    · exact Nat.zero_le _
    · rename_i nonempty
      have positive : 0 < as.length := List.length_pos_iff.mpr nonempty
      cases limit with
      | zero => omega
      | succ limit =>
        have fewer : (as.drop size).length ≤ size * limit := by
          rw [List.length_drop]
          rw [Nat.mul_succ] at few
          omega
        exact Nat.succ_le_succ (ih fewer)

theorem length_of_mem_cut {A : Type} {size pieces : Nat} {as piece : List A}
    (member : piece ∈ cut size pieces as) : piece.length ≤ size := by
  induction pieces generalizing as with
  | zero => cases member
  | succ pieces ih =>
    unfold cut at member
    split at member
    · cases member
    · rcases List.mem_cons.mp member with rfl | later
      · exact List.length_take_le _ _
      · exact ih later

end Paged
