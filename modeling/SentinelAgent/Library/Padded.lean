import Mathlib.Order.Compare

/-!
Lists compared place by place, where a place that a list does not have counts as one fixed value.
Such an order is total and transitive where that of the places is.
-/
namespace Padded
open Std

variable {α : Type} (cmp : α → α → Ordering) (missing : α)

/- Against a list without places. -/
@[grind =] def againstNone : List α → Ordering
  | [] => .eq
  | x :: a => (cmp x missing).then (againstNone a)

@[grind =] def padded : List α → List α → Ordering
  | [], b => (againstNone cmp missing b).swap
  | x :: a, [] => againstNone cmp missing (x :: a)
  | x :: a, y :: b => (cmp x y).then (padded a b)

variable {cmp missing}

theorem padded_none (a : List α) : padded cmp missing a [] = againstNone cmp missing a := by
  cases a <;> rfl

theorem none_padded (b : List α) : padded cmp missing [] b = (againstNone cmp missing b).swap := by
  cases b <;> rfl

/-- One place compared, and then the rest. -/
theorem padded_step [OrientedCmp cmp] (a b : List α) : padded cmp missing a b =
    (cmp (a.headD missing) (b.headD missing)).then (padded cmp missing a.tail b.tail) := by
  cases a with
  | nil =>
    cases b with
    | nil => simp [padded, againstNone, ReflCmp.compare_self]
    | cons y b =>
      simp only [none_padded, againstNone, Ordering.swap_then, List.headD_nil, List.headD_cons,
        List.tail_nil, List.tail_cons]
      rw [← OrientedCmp.eq_swap]
  | cons x a =>
    cases b with
    | nil => simp [padded, againstNone, padded_none]
    | cons y b => rfl

theorem padded_swap [OrientedCmp cmp] (a b : List α) :
    padded cmp missing a b = (padded cmp missing b a).swap := by
  induction a generalizing b with
  | nil => rw [none_padded, padded_none]
  | cons x a ih =>
    cases b with
    | nil => rw [none_padded, padded_none, Ordering.swap_swap]
    | cons y b =>
      simp only [padded, Ordering.swap_then]
      rw [← ih b, ← OrientedCmp.eq_swap]

/- What is compared may be one thing about each. -/
theorem transCmp_on {β : Type} [TransCmp cmp] (f : β → α) : TransCmp fun x y => cmp (f x) (f y) where
  eq_swap := OrientedCmp.eq_swap
  isLE_trans := TransCmp.isLE_trans

/-- An order by two parts is transitive where each part's is. -/
theorem then_isLE_trans [TransCmp cmp] {x y z : α} {xy yz xz : Ordering}
    (rest : xy.isLE → yz.isLE → xz.isLE) (first : ((cmp x y).then xy).isLE)
    (second : ((cmp y z).then yz).isLE) : ((cmp x z).then xz).isLE := by
  rw [Ordering.isLE_then_iff_and] at *
  refine ⟨TransCmp.isLE_trans first.1 second.1, ?_⟩
  rcases first.2 with less | later
  · exact .inl (TransCmp.lt_of_lt_of_isLE less second.1)
  · rcases second.2 with less | later'
    · exact .inl (TransCmp.lt_of_isLE_of_lt first.1 less)
    · exact .inr (rest later later')

theorem padded_isLE_trans [TransCmp cmp] (bound : Nat) (a b c : List α) (short : a.length ≤ bound)
    (short' : b.length ≤ bound) (short'' : c.length ≤ bound)
    (first : (padded cmp missing a b).isLE) (second : (padded cmp missing b c).isLE) :
    (padded cmp missing a c).isLE := by
  induction bound generalizing a b c with
  | zero =>
    have none : a = [] := List.length_eq_zero_iff.mp (by omega)
    have none' : c = [] := List.length_eq_zero_iff.mp (by omega)
    subst none none'
    rfl
  | succ bound ih =>
    rw [padded_step] at first second ⊢
    refine then_isLE_trans (ih a.tail b.tail c.tail ?_ ?_ ?_) first second <;>
      rw [List.length_tail] <;> omega

instance [OrientedCmp cmp] : OrientedCmp (padded cmp missing) where
  eq_swap := padded_swap _ _

instance [TransCmp cmp] : TransCmp (padded cmp missing) where
  isLE_trans {a b c} first second :=
    padded_isLE_trans (a.length + b.length + c.length) a b c (by omega) (by omega)
      (by omega) first second

end Padded
