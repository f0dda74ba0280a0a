import Mathlib.Data.List.Infix

/- Words with a blank before each, and texts that do not overlap with themselves. -/
namespace Spaced

def spaced (words : List (List Char)) : List Char := words.flatMap (' ' :: ·)

@[simp] theorem spaced_nil : spaced [] = [] := rfl

theorem spaced_cons (word : List Char) (words : List (List Char)) :
    spaced (word :: words) = ' ' :: word ++ spaced words := rfl

/- What begins at a blank of the text are its last words. -/
theorem words_after {words : List (List Char)} {start stop : List Char}
    (no_blank : ∀ word ∈ words, ' ' ∉ word) (whole : spaced words = start ++ ' ' :: stop) :
    ∃ before after, words = before ++ after ∧ start = spaced before ∧ ' ' :: stop = spaced after := by
  induction words generalizing start with
  | nil =>
    have lengths := congrArg List.length whole
    simp at lengths
  | cons word words ih =>
    have own : ' ' ∉ word := no_blank word List.mem_cons_self
    have later : ∀ other ∈ words, ' ' ∉ other :=
      fun other member => no_blank other (List.mem_cons_of_mem word member)
    cases start with
    | nil => exact ⟨[], word :: words, rfl, rfl, whole.symm⟩
    | cons c start =>
      rw [spaced_cons, List.cons_append, List.cons_append, List.cons.injEq] at whole
      obtain ⟨rfl, whole⟩ := whole
      rcases List.append_eq_append_iff.mp whole with ⟨left, rfl, rest⟩ | ⟨left, word_eq, rest⟩
      · obtain ⟨before, after, rfl, rfl, stop_eq⟩ := ih later rest
        exact ⟨word :: before, after, rfl, rfl, stop_eq⟩
      · cases left with
        | nil =>
          rw [List.append_nil] at word_eq
          obtain ⟨before, after, rfl, none_before, stop_eq⟩ := @ih [] later rest.symm
          refine ⟨word :: before, after, rfl, ?_, stop_eq⟩
          rw [spaced_cons, ← none_before, List.append_nil, word_eq]
        | cons d left =>
          obtain ⟨rfl, _⟩ := List.cons.inj rest
          exact absurd (by rw [word_eq]; simp) own

/- What stands before the first blank of a text, and what stands after it. -/
theorem at_first_blank {word other rest left : List Char} (word_plain : ' ' ∉ word)
    (other_plain : ' ' ∉ other) (same : word ++ ' ' :: rest = other ++ ' ' :: left) :
    word = other ∧ rest = left := by
  rcases List.append_eq_append_iff.mp same with ⟨more, other_eq, rest_eq⟩ | ⟨more, word_eq, left_eq⟩
  · cases more with
    | nil => exact ⟨by rw [other_eq]; simp, by simpa using rest_eq⟩
    | cons c more =>
      rw [List.cons_append, List.cons.injEq] at rest_eq
      exact absurd (by rw [other_eq, rest_eq.1]; simp) other_plain
  · cases more with
    | nil => exact ⟨by rw [word_eq]; simp, by simpa using left_eq.symm⟩
    | cons c more =>
      rw [List.cons_append, List.cons.injEq] at left_eq
      exact absurd (by rw [word_eq, left_eq.1]; simp) word_plain

theorem first_word {word other : List Char} {words : List (List Char)} (no_blank : ' ' ∉ word)
    (starts : spaced [word] <+: spaced (other :: words)) : word <+: other := by
  obtain ⟨rest, whole⟩ := starts
  simp only [spaced_cons, spaced_nil, List.append_nil, List.cons_append, List.cons.injEq,
    true_and] at whole
  rcases List.append_eq_append_iff.mp whole with ⟨left, other_eq, _⟩ | ⟨left, word_eq, more⟩
  · exact ⟨left, other_eq.symm⟩
  · cases left with
    | nil => exact ⟨[], by rw [word_eq]; simp⟩
    | cons c left =>
      cases words with
      | nil => cases more
      | cons next words =>
        rw [spaced_cons, List.cons_append, List.cons_append, List.cons.injEq] at more
        exact absurd (by rw [word_eq, ← more.1]; simp) no_blank

theorem first_words {word next other : List Char} {more words : List (List Char)}
    (word_plain : ' ' ∉ word) (other_plain : ' ' ∉ other)
    (starts : spaced (word :: next :: more) <+: spaced (other :: words)) :
    word = other ∧ spaced (next :: more) <+: spaced words := by
  obtain ⟨rest, whole⟩ := starts
  simp only [spaced_cons _ (next :: more), spaced_cons _ words, List.cons_append, List.append_assoc,
    List.cons.injEq, true_and] at whole
  rcases List.append_eq_append_iff.mp whole with ⟨left, other_eq, left_eq⟩ | ⟨left, word_eq, left_eq⟩
  · cases left with
    | nil => exact ⟨by rw [other_eq]; simp, rest, left_eq⟩
    | cons c left =>
      simp only [spaced_cons, List.cons_append, List.cons.injEq] at left_eq
      exact absurd (by rw [other_eq, left_eq.1]; simp) other_plain
  · cases left with
    | nil => exact ⟨by rw [word_eq]; simp, rest, by simpa using left_eq.symm⟩
    | cons c left =>
      cases words with
      | nil => cases left_eq
      | cons last words =>
        rw [spaced_cons, List.cons_append, List.cons_append, List.cons.injEq] at left_eq
        exact absurd (by rw [word_eq, ← left_eq.1]; simp) word_plain

/- No end of the text is also a start of it. -/
def Unbordered (text : List Char) : Prop :=
  ∀ start stop, text = start ++ stop → start ≠ [] → stop <+: text → stop = []

/-- A text that does not overlap with itself stands before a copy of it, or within what is put
    before the copy. -/
theorem before_copy {text start more rest : List Char} (unbordered : Unbordered text)
    (some_start : start ≠ []) (whole : start ++ (text ++ more) = text ++ rest) :
    ∃ left, start = text ++ left ∧ rest = left ++ (text ++ more) := by
  rcases List.append_eq_append_iff.mp whole with ⟨stop, text_eq, rest_eq⟩ | ⟨left, start_eq, rest_eq⟩
  · have shorter : stop.length ≤ text.length := by
      rw [text_eq, List.length_append]
      omega
    have again : stop <+: text :=
      List.prefix_of_prefix_length_le ⟨rest, rest_eq.symm⟩ ⟨more, rfl⟩ shorter
    have none_left := unbordered start stop text_eq some_start again
    rw [none_left, List.append_nil] at text_eq
    rw [none_left, List.nil_append] at rest_eq
    exact ⟨[], by rw [text_eq]; simp, by rw [← rest_eq]; simp⟩
  · exact ⟨left, start_eq, rest_eq⟩

/-- Where a copy of a text can follow a word: after the whole of what was put before it, or where
    that has a copy of its own. `barred` letters may not come after a copy. -/
theorem copies_iff {text start tail : List Char} (accepts barred : Char → Bool)
    (unbordered : Unbordered text) {c : Char} (head : text.head? = some c)
    (outside : accepts c = false) (c_free : barred c = false)
    (tail_free : ∀ d ∈ tail.head?, barred d = false) (enough : List Char → Prop) :
    (∃ word rest, start ++ (text ++ tail) = word ++ (text ++ rest) ∧
        (∀ d ∈ word, accepts d = true) ∧ enough word ∧ ∀ d ∈ rest.head?, barred d = false) ↔
      ((∀ d ∈ start, accepts d = true) ∧ enough start) ∨
        ∃ word more, start = word ++ (text ++ more) ∧ (∀ d ∈ word, accepts d = true) ∧
          enough word ∧ ∀ d ∈ more.head?, barred d = false := by
  constructor
  · rintro ⟨word, rest, whole, accepted, long, free⟩
    rcases List.append_eq_append_iff.mp whole with ⟨left, word_eq, text_eq⟩ | ⟨left, rfl, text_eq⟩
    · cases left with
      | nil =>
        rw [List.append_nil] at word_eq
        exact Or.inl ⟨word_eq ▸ accepted, word_eq ▸ long⟩
      | cons d left =>
        have first := congrArg List.head? text_eq
        rw [List.head?_append, head] at first
        obtain rfl := Option.some.inj first
        have inside := accepted c (by rw [word_eq]; simp)
        rw [outside] at inside
        cases inside
    · cases left with
      | nil => exact Or.inl ⟨by simpa using accepted, by simpa using long⟩
      | cons d left =>
        obtain ⟨more, start_eq, rest_eq⟩ := before_copy unbordered (by simp) text_eq.symm
        refine Or.inr ⟨word, more, by rw [start_eq], accepted, long, fun e first => free e ?_⟩
        rw [rest_eq, Option.mem_def, List.head?_append, Option.mem_def.mp first]
        rfl
  · rintro (⟨accepted, long⟩ | ⟨word, more, rfl, accepted, long, free⟩)
    · exact ⟨start, tail, rfl, accepted, long, tail_free⟩
    · refine ⟨word, more ++ (text ++ tail), by simp, accepted, long, fun e first => ?_⟩
      rw [Option.mem_def, List.head?_append, List.head?_append, head] at first
      cases there : more.head? with
      | none =>
        rw [there] at first
        obtain rfl := Option.some.inj first
        exact c_free
      | some d =>
        rw [there] at first
        obtain rfl := Option.some.inj first
        exact free d there

/- A blank comes first, so an overlap would begin with one of the later words. -/
theorem unbordered_spaced {words : List (List Char)} (no_blank : ∀ word ∈ words, ' ' ∉ word)
    (apart : ∀ later ∈ words.tail.tails, later ≠ [] → ¬ spaced later <+: spaced words) :
    Unbordered (spaced words) := by
  intro start stop whole some_start again
  cases stop with
  | nil => rfl
  | cons c stop =>
    cases words with
    | nil =>
      have lengths := congrArg List.length whole
      simp at lengths
    | cons word words =>
      have starts := again
      obtain ⟨rest, first⟩ := again
      rw [spaced_cons, List.cons_append, List.cons_append, List.cons.injEq] at first
      obtain ⟨rfl, first⟩ := first
      obtain ⟨before, later, words_eq, rfl, stop_eq⟩ := words_after no_blank whole
      have some_later : later ≠ [] := by
        rintro rfl
        cases stop_eq
      cases before with
      | nil => exact absurd rfl some_start
      | cons first before =>
        have among : later ∈ words.tails := by
          rw [List.mem_tails]
          exact ⟨before, (List.cons.inj words_eq).2.symm⟩
        rw [stop_eq] at starts
        exact absurd starts (apart later among some_later)

end Spaced
