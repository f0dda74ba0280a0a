import Mathlib.Data.List.Infix

/- Where a text stands inside another, and its first place there. -/
namespace Inside

variable {A : Type*} {needle before rest a b : List A}

/-- A text within two others is within one of them, or begins in the first and ends in the
    second. -/
theorem inside_append (inside : needle <:+: a ++ b) :
    needle <:+: a ∨ needle <:+: b ∨
      ∃ start stop, needle = start ++ stop ∧ start ≠ [] ∧ stop ≠ [] ∧ start <:+ a ∧ stop <+: b := by
  obtain ⟨left, right, whole⟩ := inside
  rw [List.append_assoc] at whole
  rcases List.append_eq_append_iff.mp whole with ⟨more, a_eq, text_eq⟩ | ⟨more, _, b_eq⟩
  · rcases List.append_eq_append_iff.mp text_eq with ⟨c, more_eq, _⟩ | ⟨c, needle_eq, b_eq⟩
    · exact Or.inl ⟨left, c, by rw [a_eq, more_eq, List.append_assoc]⟩
    · by_cases none_before : more = []
      · refine Or.inr (Or.inl ⟨[], right, ?_⟩)
        rw [needle_eq, none_before, b_eq]
        rfl
      · by_cases none_after : c = []
        · refine Or.inl ⟨left, [], ?_⟩
          rw [needle_eq, none_after, a_eq, List.append_nil, List.append_nil]
        · exact Or.inr (Or.inr ⟨more, c, needle_eq, none_before, none_after, ⟨left, a_eq.symm⟩,
            ⟨right, b_eq.symm⟩⟩)
  · exact Or.inr (Or.inl ⟨more, right, by rw [b_eq, List.append_assoc]⟩)

/- A letter the text does not have parts it from what stands on the other side. -/
theorem inside_around {c : A} (free : c ∉ needle) (inside : needle <:+: a ++ c :: b) :
    needle <:+: a ∨ needle <:+: b := by
  rcases inside_append inside with left | right | ⟨start, stop, whole, _, some_stop, _, ends⟩
  · exact Or.inl left
  · rcases List.infix_cons_iff.mp right with starts | within
    · cases needle with
      | nil => exact Or.inr (List.nil_infix)
      | cons d needle =>
        obtain ⟨_, same⟩ := starts
        exact absurd (List.cons.inj same).1 (fun same => free (same ▸ List.mem_cons_self))
    · exact Or.inr within
  · cases stop with
    | nil => exact absurd rfl some_stop
    | cons d stop =>
      obtain ⟨_, same⟩ := ends
      refine absurd ?_ free
      rw [whole, ← (List.cons.inj same).1]
      simp

/- A text with its last letter at its end only. -/
theorem inside_after {c : A} (free : c ∉ needle) (inside : needle ++ [c] <:+: a ++ c :: b) :
    needle ++ [c] <:+: a ++ [c] ∨ needle ++ [c] <:+: b := by
  have whole : a ++ c :: b = (a ++ [c]) ++ b := by simp
  rw [whole] at inside
  rcases inside_append inside with left | right | ⟨start, stop, needle_eq, some_start, some_stop,
    ⟨left, starts⟩, _⟩
  · exact Or.inl left
  · exact Or.inr right
  · obtain ⟨first, last, rfl⟩ := (List.eq_nil_or_concat start).resolve_left some_start
    obtain ⟨more, final, rfl⟩ := (List.eq_nil_or_concat stop).resolve_left some_stop
    have last_eq : last = c := by
      rw [List.concat_eq_append, ← List.append_assoc] at starts
      exact (List.append_inj' starts rfl).2 |> List.singleton_inj.mp
    refine absurd ?_ free
    have cut := needle_eq
    rw [List.concat_eq_append, List.concat_eq_append, ← List.append_assoc] at cut
    rw [(List.append_inj' cut rfl).1, last_eq]
    simp

/- The first place where the text stands is after `before`, when it comes there. -/
def FirstAt (needle before : List A) : Prop := ¬ needle <:+: before ++ needle.dropLast

theorem firstAt_nil (nonempty : needle ≠ []) : FirstAt needle [] := by
  intro inside
  have shorter := inside.length_le
  rw [List.nil_append, List.length_dropLast] at shorter
  have := List.length_pos_of_ne_nil nonempty
  omega

theorem FirstAt.tail {c : A} (first : FirstAt needle (c :: before)) : FirstAt needle before :=
  fun inside => first (List.infix_cons_iff.mpr (Or.inr inside))

theorem FirstAt.not_here {c : A} (first : FirstAt needle (c :: before)) :
    ¬ needle <+: c :: (before ++ (needle ++ rest)) := by
  intro starts
  have stretch : c :: before ++ needle.dropLast <+: c :: (before ++ (needle ++ rest)) := by
    obtain ⟨last, whole⟩ := List.dropLast_prefix needle
    refine ⟨last ++ rest, ?_⟩
    nth_rewrite 2 [← whole]
    simp
  refine first (List.prefix_of_prefix_length_le starts stretch ?_).isInfix
  rw [List.length_append, List.length_cons, List.length_dropLast]
  omega

/- A first place leaves none before it. -/
theorem FirstAt.free (first : FirstAt needle before) : ¬ needle <:+: before :=
  fun inside => first (inside.trans ⟨[], needle.dropLast, rfl⟩)

/-- Where a text stands at all, it stands in a first place. -/
theorem first_place {text : List A} (nonempty : needle ≠ []) (inside : needle <:+: text) :
    ∃ before rest, text = before ++ (needle ++ rest) ∧ FirstAt needle before := by
  induction text with
  | nil => exact absurd (List.infix_nil.mp inside) nonempty
  | cons c text ih =>
    by_cases starts : needle <+: c :: text
    · obtain ⟨rest, whole⟩ := starts
      exact ⟨[], rest, whole.symm, firstAt_nil nonempty⟩
    · obtain ⟨before, rest, rfl, first⟩ := ih ((List.infix_cons_iff.mp inside).resolve_left starts)
      refine ⟨c :: before, rest, rfl, fun again => ?_⟩
      rcases List.infix_cons_iff.mp again with here | later
      · refine starts (here.trans ?_)
        obtain ⟨last, whole⟩ := List.dropLast_prefix needle
        refine ⟨last ++ rest, ?_⟩
        nth_rewrite 2 [← whole]
        simp
      · exact first later

end Inside
