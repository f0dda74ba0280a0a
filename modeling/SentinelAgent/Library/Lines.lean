import Mathlib.Data.List.Basic
import Mathlib.Data.List.Induction

/-!
A stream cut into lines by a mark: the lines that have ended, and what stands after the last
mark. Reading the stream one symbol further ends the last line or makes it one symbol longer.
-/
namespace Lines

variable {T : Type*} [DecidableEq T] {mark : T}

/-- The lines that have ended. -/
def complete (mark : T) (stream : List T) : List (List T) := (stream.splitOn mark).dropLast

/-- What has been read of the line that has not. -/
def unended (mark : T) (stream : List T) : List T :=
  (stream.splitOn mark).getLast (List.splitOn_ne_nil mark stream)

/-- A cut at the first mark, or at the last one, can be made in one place only. -/
theorem cut_first {a b c d : List T} (free : mark ∉ a) (free' : mark ∉ c)
    (same : a ++ mark :: b = c ++ mark :: d) : a = c ∧ b = d := by
  induction a generalizing c with
  | nil =>
    cases c with
    | nil => simpa using same
    | cons y c =>
      have first : mark = y := (List.cons.inj same).1
      exact absurd (List.mem_cons.mpr (Or.inl first)) free'
  | cons x a ih =>
    cases c with
    | nil =>
      have first : x = mark := (List.cons.inj same).1
      exact absurd (List.mem_cons.mpr (Or.inl first.symm)) free
    | cons y c =>
      obtain ⟨first, rest⟩ := List.cons.inj same
      obtain ⟨before, after⟩ := ih (fun member => free (List.mem_cons_of_mem x member))
        (fun member => free' (List.mem_cons_of_mem y member)) rest
      exact ⟨by rw [first, before], after⟩

theorem cut_last {a b c d : List T} (free : mark ∉ b) (free' : mark ∉ d)
    (same : a ++ mark :: b = c ++ mark :: d) : a = c ∧ b = d := by
  have reversed : b.reverse ++ mark :: a.reverse = d.reverse ++ mark :: c.reverse := by
    simpa using congrArg List.reverse same
  obtain ⟨after, before⟩ := cut_first (by simpa using free) (by simpa using free') reversed
  exact ⟨List.reverse_injective before, List.reverse_injective after⟩

@[simp] theorem complete_nil : complete mark ([] : List T) = [] := rfl

@[simp] theorem unended_nil : unended mark ([] : List T) = [] := rfl

theorem splitOn_eq (mark : T) (stream : List T) :
    stream.splitOn mark = complete mark stream ++ [unended mark stream] :=
  (List.dropLast_concat_getLast _).symm

theorem of_splitOn {stream : List T} {lines : List (List T)} {last : List T}
    (cut : stream.splitOn mark = lines ++ [last]) :
    complete mark stream = lines ∧ unended mark stream = last := by
  constructor
  · rw [complete, cut, List.dropLast_concat]
  · simp [unended, cut]

theorem splitOn_snoc_mark (stream : List T) :
    (stream ++ [mark]).splitOn mark = stream.splitOn mark ++ [[]] := by
  rw [List.splitOn_append_cons_self, List.splitOn_nil]

theorem splitOn_snoc {x : T} (other : x ≠ mark) (stream : List T) :
    (stream ++ [x]).splitOn mark = complete mark stream ++ [unended mark stream ++ [x]] := by
  induction stream with
  | nil => simp [List.splitOn_cons_eq_if_modifyHead, other]
  | cons y stream ih =>
    have before : (y :: stream).splitOn mark = if y == mark then [] :: stream.splitOn mark
        else (stream.splitOn mark).modifyHead (y :: ·) := List.splitOn_cons_eq_if_modifyHead y stream
    rw [splitOn_eq mark stream] at before
    rw [List.cons_append, List.splitOn_cons_eq_if_modifyHead, ih]
    by_cases here : (y == mark) = true
    · rw [if_pos here] at before ⊢
      have cut : (y :: stream).splitOn mark = ([] :: complete mark stream) ++ [unended mark stream] :=
        before
      rw [(of_splitOn cut).1, (of_splitOn cut).2]
      rfl
    · rw [if_neg here] at before ⊢
      cases lines : complete mark stream with
      | nil =>
        rw [lines] at before
        have cut : (y :: stream).splitOn mark = [] ++ [y :: unended mark stream] := before
        rw [(of_splitOn cut).1, (of_splitOn cut).2]
        rfl
      | cons line later =>
        rw [lines] at before
        have cut : (y :: stream).splitOn mark = ((y :: line) :: later) ++ [unended mark stream] :=
          before
        rw [(of_splitOn cut).1, (of_splitOn cut).2]
        rfl

theorem complete_snoc_mark (stream : List T) :
    complete mark (stream ++ [mark]) = complete mark stream ++ [unended mark stream] := by
  rw [(of_splitOn (splitOn_snoc_mark stream)).1, splitOn_eq]

theorem unended_snoc_mark (stream : List T) : unended mark (stream ++ [mark]) = [] :=
  (of_splitOn (splitOn_snoc_mark stream)).2

theorem complete_snoc {x : T} (other : x ≠ mark) (stream : List T) :
    complete mark (stream ++ [x]) = complete mark stream :=
  (of_splitOn (splitOn_snoc other stream)).1

theorem unended_snoc {x : T} (other : x ≠ mark) (stream : List T) :
    unended mark (stream ++ [x]) = unended mark stream ++ [x] :=
  (of_splitOn (splitOn_snoc other stream)).2

theorem splitOn_free (stream : List T) : ∀ part ∈ stream.splitOn mark, mark ∉ part := by
  induction stream using List.reverseRecOn with
  | nil => simp
  | append_singleton stream x ih =>
    intro part member
    by_cases here : x = mark
    · subst here
      rw [splitOn_snoc_mark, List.mem_append, List.mem_singleton] at member
      rcases member with before | rfl
      · exact ih part before
      · exact List.not_mem_nil
    · rw [splitOn_snoc here, List.mem_append, List.mem_singleton] at member
      rw [splitOn_eq] at ih
      rcases member with before | rfl
      · exact ih part (List.mem_append_left _ before)
      · have free := ih _ (List.mem_append_right _ List.mem_cons_self)
        simp [free, Ne.symm here]

/-- A line has no mark in it. -/
theorem complete_free {stream line : List T} (member : line ∈ complete mark stream) :
    mark ∉ line := by
  apply splitOn_free stream line
  rw [splitOn_eq]
  exact List.mem_append_left _ member

/-- Nothing is unended where nothing stands after the last mark. -/
theorem unended_eq_nil {stream : List T} :
    unended mark stream = [] ↔ stream = [] ∨ stream.getLast? = some mark := by
  induction stream using List.reverseRecOn with
  | nil => simp
  | append_singleton stream x _ =>
    by_cases here : x = mark
    · subst here
      simp [unended_snoc_mark]
    · simp [unended_snoc here, here]

/-- How much of the stream stands in lines that have ended. -/
def endedLength (mark : T) (stream : List T) : Nat := stream.length - (unended mark stream).length

@[simp] theorem endedLength_nil : endedLength mark ([] : List T) = 0 := rfl

theorem endedLength_le (stream : List T) : endedLength mark stream ≤ stream.length :=
  Nat.sub_le _ _

theorem endedLength_all {stream : List T} (ends : unended mark stream = []) :
    endedLength mark stream = stream.length := by
  rw [endedLength, ends, List.length_nil, Nat.sub_zero]

theorem endedLength_snoc {x : T} (other : x ≠ mark) (stream : List T) :
    endedLength mark (stream ++ [x]) = endedLength mark stream := by
  rw [endedLength, endedLength, unended_snoc other, List.length_append, List.length_append,
    Nat.add_sub_add_right]

/-- What stands before that place ends with a line. -/
theorem unended_ended (stream : List T) :
    unended mark (stream.take (endedLength mark stream)) = [] := by
  induction stream using List.reverseRecOn with
  | nil => rfl
  | append_singleton stream x ih =>
    by_cases here : x = mark
    · subst here
      rw [endedLength_all (unended_snoc_mark stream), List.take_length, unended_snoc_mark]
    · rw [endedLength_snoc here, List.take_append_of_le_length (endedLength_le stream), ih]

/-- What stands after the end of a line ends where the stream ends. -/
theorem unended_drop {stream : List T} (ends : unended mark stream = []) (n : Nat) :
    unended mark (stream.drop n) = [] := by
  rw [unended_eq_nil] at ends ⊢
  by_cases whole : stream.length ≤ n
  · exact Or.inl (List.drop_eq_nil_of_le whole)
  · right
    rcases ends with rfl | last
    · simp at whole
    · rw [List.getLast?_drop, if_neg whole, last]

end Lines
