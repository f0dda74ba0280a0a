import Mathlib.Data.List.Basic
import Mathlib.Algebra.Order.Ring.Int
import Mathlib.Tactic.SplitIfs

/- Times in bursts, the latest time first. Times closer together than `merge` are of one burst. -/
namespace Bursts
variable (merge window : Int)

@[grind =] def count : List Int → Nat
  | [] => 0
  | [_] => 1
  | later :: t :: times =>
    if merge ≤ later - t then count (t :: times) + 1 else count (t :: times)

/- The bursts back to where no time follows another within the window. -/
@[grind =] def chained : List Int → Nat
  | [] => 0
  | [_] => 1
  | later :: t :: times =>
    if window ≤ later - t then 1
    else if merge ≤ later - t then chained (t :: times) + 1
    else chained (t :: times)

def within (now : Int) (times : List Int) : List Int := times.filter fun t => now - t < window

/- A burst from which every time follows another within the window reaches into the window of
   `now` itself. -/
@[grind =] def Reaches (now : Int) (times : List Int) : Prop :=
  ∀ after later t before, times = after ++ later :: t :: before → merge ≤ later - t →
    (after ++ [later, t]).IsChain (fun a b => a - b < window) → now - t < window

section Counts
variable {merge window : Int} {now later t : Int} {times : List Int}

theorem within_cons (inside : now - t < window) :
    within window now (t :: times) = t :: within window now times :=
  List.filter_cons_of_pos (by simpa using inside)

theorem within_old (old : ∀ t ∈ times, window ≤ now - t) : within window now times = [] := by
  rw [within, List.filter_eq_nil_iff]
  intro t member
  have := old t member
  simp only [decide_eq_true_eq]
  omega

theorem reaches_recent (recent : ∀ t ∈ times, now - t < window) :
    Reaches merge window now times := by
  intro after later t before split _ _
  exact recent t (by rw [split]; simp)

theorem Reaches.tail (reaches : Reaches merge window now (later :: t :: times))
    (near : later - t < window) : Reaches merge window now (t :: times) := by
  intro after b a before split apart chain
  refine reaches (later :: after) b a before (by rw [split]; rfl) apart ?_
  cases after with
  | nil =>
    obtain ⟨rfl, _⟩ := List.cons.inj split
    exact List.isChain_cons_cons.mpr ⟨near, chain⟩
  | cons c after =>
    obtain ⟨rfl, _⟩ := List.cons.inj split
    exact List.isChain_cons_cons.mpr ⟨near, chain⟩

theorem Reaches.apart (reaches : Reaches merge window now (later :: t :: times))
    (apart : merge ≤ later - t) (near : later - t < window) : now - t < window :=
  reaches [] later t times rfl apart (by simpa using near)

/- What is older than the window is one burst, as far as it is chained. -/
theorem chained_old (sorted : (t :: times).Pairwise fun a b => b ≤ a)
    (old : window ≤ now - t) (reaches : Reaches merge window now (t :: times)) :
    chained merge window (t :: times) = 1 := by
  induction times generalizing t with
  | nil => rfl
  | cons next times ih =>
    obtain ⟨before, sorted⟩ := List.pairwise_cons.mp sorted
    have next_le := before next List.mem_cons_self
    rw [chained]
    split_ifs with far apart
    · rfl
    · have := reaches.apart apart (by omega)
      omega
    · exact ih sorted (by omega) (reaches.tail (by omega))

/-- Where every chained burst reaches into the window, the chained ones are those of the window. -/
theorem chained_eq_count (sorted : (t :: times).Pairwise fun a b => b ≤ a)
    (inside : now - t < window) (past : t ≤ now)
    (reaches : Reaches merge window now (t :: times)) :
    chained merge window (t :: times) = count merge (within window now (t :: times)) := by
  induction times generalizing t with
  | nil =>
    rw [within_cons inside]
    rfl
  | cons next times ih =>
    obtain ⟨before, sorted⟩ := List.pairwise_cons.mp sorted
    have next_le := before next List.mem_cons_self
    rw [within_cons inside]
    by_cases next_inside : now - next < window
    · rw [within_cons next_inside, chained, count, ← within_cons next_inside,
        if_neg (by omega), ih sorted next_inside (by omega) (reaches.tail (by omega))]
    · have rest_old : ∀ older ∈ next :: times, window ≤ now - older := by
        intro older member
        rcases List.mem_cons.mp member with rfl | later
        · omega
        · have := (List.pairwise_cons.mp sorted).1 older later
          omega
      rw [within_old rest_old, chained]
      split_ifs with far apart
      · rfl
      · exact absurd (reaches.apart apart (by omega)) next_inside
      · exact chained_old sorted (by omega) (reaches.tail (by omega))

/- So many bursts take their time. -/
theorem count_span {floor : Int} (sorted : (t :: times).Pairwise fun a b => b ≤ a)
    (lower : ∀ time ∈ t :: times, floor ≤ time) :
    count merge (t :: times) * merge ≤ t - floor + merge := by
  induction times generalizing t with
  | nil =>
    have := lower t List.mem_cons_self
    rw [count, Nat.cast_one, one_mul]
    omega
  | cons next times ih =>
    obtain ⟨before, sorted⟩ := List.pairwise_cons.mp sorted
    have next_le := before next List.mem_cons_self
    have rest := ih sorted fun time member => lower time (List.mem_cons_of_mem _ member)
    rw [count]
    split_ifs with apart
    · rw [Nat.cast_add, Nat.cast_one, add_mul, one_mul]
      omega
    · omega

theorem chained_pos : 0 < chained merge window (t :: times) := by
  induction times generalizing t with
  | nil => exact Nat.one_pos
  | cons next times ih =>
    rw [chained]
    split_ifs
    · exact Nat.one_pos
    · exact Nat.succ_pos _
    · exact ih

end Counts
end Bursts
