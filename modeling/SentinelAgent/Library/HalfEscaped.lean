import SentinelAgent.Library.Escaped

/-!
An escape that leaves the escape character itself as it is: the mark and the line breaks are
escaped, and other characters may be softened. A text is read back from it just when it has no
backslash and no character that is softened: the backslashes that are written do not suffice
for those that have to be read.
-/
namespace Escaped

/-- A character that an escaped text has only where it was before. -/
def Quiet (mark c : Char) : Prop := c ≠ '\\' ∧ c ≠ mark ∧ c ≠ '\n' ∧ c ≠ '\r'

instance (mark c : Char) : Decidable (Quiet mark c) :=
  inferInstanceAs (Decidable (c ≠ '\\' ∧ c ≠ mark ∧ c ≠ '\n' ∧ c ≠ '\r'))

/-- What the escape does with the characters it does not escape. -/
structure Softening (mark : Char) (soften : Char → Char) : Prop where
  mark_escape : mark ≠ '\\'
  mark_break : mark ≠ '\n' ∧ mark ≠ '\r'
  mark_letter : mark ≠ 'n' ∧ mark ≠ 'r'
  kept : ∀ c, soften c = c ∨ (c ≠ '\\' ∧ Quiet mark (soften c))

/-- A character that is escaped. -/
def isSpecial (mark c : Char) : Bool := c == mark || c == '\n' || c == '\r'

/-- What stands for it after the backslash. -/
def letterOf (c : Char) : Char := if c = '\n' then 'n' else if c = '\r' then 'r' else c

def halfEscapeChar (mark : Char) (soften : Char → Char) (c : Char) : List Char :=
  if isSpecial mark c = true then ['\\', letterOf c] else [soften c]

def halfEscape (mark : Char) (soften : Char → Char) (text : List Char) : List Char :=
  text.flatMap (halfEscapeChar mark soften)

def isEscaped : Token → Bool
  | .plain _ => false
  | .escaped _ => true

section Tokens
variable {mark : Char}

theorem isSpecial_false {c : Char} :
    isSpecial mark c = false ↔ c ≠ mark ∧ c ≠ '\n' ∧ c ≠ '\r' := by
  simp [isSpecial, and_assoc]

theorem source_length (ts : List Token) :
    (source ts).length = ts.length + ts.countP isEscaped := by
  induction ts with
  | nil => rfl
  | cons t ts ih =>
    rw [source_cons, List.length_append, ih, List.length_cons, List.countP_cons]
    cases t with
    | plain c => simp [Token.source, isEscaped]; omega
    | escaped c => simp [Token.source, isEscaped]; omega

/-- A backslash that is read takes two, and any other escaped character one. -/
theorem source_count {ts : List Token} (free : Token.plain '\\' ∉ ts) :
    (source ts).count '\\' = (unescape ts).count '\\' + ts.countP isEscaped := by
  induction ts with
  | nil => rfl
  | cons t ts ih =>
    rw [List.mem_cons, not_or] at free
    rw [source_cons, List.count_append, ih free.2, unescape_cons, List.countP_cons,
      List.count_cons]
    have first : t.source.count '\\' =
        (if (t.value == '\\') = true then 1 else 0) + if isEscaped t = true then 1 else 0 := by
      cases t with
      | plain c =>
        have other : c ≠ '\\' := fun same => free.1 (same ▸ rfl)
        simp [Token.source, Token.value, isEscaped, other]
      | escaped c =>
        by_cases here : c = '\\'
        · subst here
          decide
        · have value : Token.value (.escaped c) ≠ '\\' := by
            simp only [Token.value]
            split_ifs
            · decide
            · decide
            · exact here
          simp [Token.source, isEscaped, value, here]
    omega

/-- Each special character and each backslash that is read was escaped. -/
theorem read_escaped (ordinary : mark ≠ '\\') {ts : List Token}
    (free : ∀ c, Token.plain c ∈ ts → c ≠ '\\' ∧ isSpecial mark c = false) :
    (unescape ts).countP (isSpecial mark) + (unescape ts).count '\\' ≤ ts.countP isEscaped := by
  induction ts with
  | nil => exact Nat.le_refl 0
  | cons t ts ih =>
    have later := ih fun c member => free c (List.mem_cons_of_mem _ member)
    rw [unescape_cons, List.countP_cons, List.countP_cons, List.count_cons]
    have first : (if isSpecial mark t.value = true then 1 else 0) +
        (if (t.value == '\\') = true then 1 else 0) ≤ if isEscaped t = true then 1 else 0 := by
      cases t with
      | plain c =>
        obtain ⟨other, quiet⟩ := free c List.mem_cons_self
        simp [Token.value, isEscaped, other, quiet]
      | escaped c =>
        by_cases here : Token.value (.escaped c) = '\\'
        · have quiet : isSpecial mark '\\' = false :=
            isSpecial_false.mpr ⟨Ne.symm ordinary, by decide, by decide⟩
          simp [here, quiet, isEscaped]
        · simp only [isEscaped, here, beq_iff_eq, if_false, if_true]
          split_ifs <;> omega
    omega

end Tokens

section Count
variable {mark : Char} {soften : Char → Char}

theorem halfEscape_cons (c : Char) (text : List Char) :
    halfEscape mark soften (c :: text) =
      halfEscapeChar mark soften c ++ halfEscape mark soften text := List.flatMap_cons

theorem halfEscapeChar_ordinary {c : Char} (ordinary : isSpecial mark c = false) :
    halfEscapeChar mark soften c = [soften c] := by
  rw [halfEscapeChar, if_neg (by simp [ordinary])]

theorem halfEscape_append (a b : List Char) :
    halfEscape mark soften (a ++ b) = halfEscape mark soften a ++ halfEscape mark soften b :=
  List.flatMap_append

theorem halfEscape_length (text : List Char) :
    (halfEscape mark soften text).length = text.length + text.countP (isSpecial mark) := by
  induction text with
  | nil => rfl
  | cons c text ih =>
    rw [halfEscape_cons, List.length_append, ih, List.length_cons, List.countP_cons, halfEscapeChar]
    split_ifs
    · simp only [List.length_cons, List.length_nil]
      omega
    · simp only [List.length_cons, List.length_nil]
      omega

variable (soft : Softening mark soften)
include soft

theorem letterOf_special {c : Char} (special : isSpecial mark c = true) :
    letterOf c ≠ '\\' ∧ letterOf c ≠ '\n' ∧ letterOf c ≠ '\r' ∧
      Token.value (.escaped (letterOf c)) = c := by
  simp only [isSpecial, Bool.or_eq_true, beq_iff_eq, or_assoc] at special
  rcases special with rfl | rfl | rfl
  · have same : letterOf c = c := by
      rw [letterOf, if_neg soft.mark_break.1, if_neg soft.mark_break.2]
    rw [same]
    refine ⟨soft.mark_escape, soft.mark_break.1, soft.mark_break.2, ?_⟩
    simp [Token.value, soft.mark_letter.1, soft.mark_letter.2]
  · decide
  · decide

theorem soften_ordinary {c : Char} (ordinary : isSpecial mark c = false) :
    isSpecial mark (soften c) = false ∧ (soften c = '\\' ↔ c = '\\') := by
  rcases soft.kept c with same | ⟨not_backslash, quiet⟩
  · rw [same]
    exact ⟨ordinary, Iff.rfl⟩
  · exact ⟨isSpecial_false.mpr quiet.2, iff_of_false quiet.1 not_backslash⟩

theorem special_ne {c : Char} (special : isSpecial mark c = true) : c ≠ '\\' := by
  rintro rfl
  have ordinary : isSpecial mark '\\' = false :=
    isSpecial_false.mpr ⟨Ne.symm soft.mark_escape, by decide, by decide⟩
  rw [ordinary] at special
  cases special

theorem halfEscapeChar_count (c : Char) :
    (halfEscapeChar mark soften c).count '\\' =
      (if (c == '\\') = true then 1 else 0) + if isSpecial mark c = true then 1 else 0 := by
  rw [halfEscapeChar]
  cases special : isSpecial mark c with
  | true => simp [special_ne soft special, (letterOf_special soft special).1]
  | false =>
    have same := (soften_ordinary soft special).2
    by_cases here : c = '\\'
    · have backslash : [soften c].count '\\' = 1 := by
        rw [same.mpr here]
        rfl
      simp [here ▸ backslash, here]
    · simp [mt same.mp here, here]

theorem halfEscape_count (text : List Char) :
    (halfEscape mark soften text).count '\\' =
      text.count '\\' + text.countP (isSpecial mark) := by
  induction text with
  | nil => rfl
  | cons c text ih =>
    rw [halfEscape_cons, List.count_append, ih, List.count_cons, List.countP_cons,
      halfEscapeChar_count soft]
    omega

/-- What stands in the escaped text: no line break, and the mark only after a backslash. -/
theorem mem_halfEscape {text : List Char} {c : Char} (member : c ∈ halfEscape mark soften text) :
    c ≠ '\n' ∧ c ≠ '\r' := by
  obtain ⟨d, _, there⟩ := List.mem_flatMap.mp member
  rw [halfEscapeChar] at there
  cases special : isSpecial mark d with
  | true =>
    rw [if_pos special, List.mem_cons, List.mem_singleton] at there
    have letter := letterOf_special soft special
    rcases there with rfl | rfl
    · decide
    · exact ⟨letter.2.1, letter.2.2.1⟩
  | false =>
    rw [if_neg (by simp [special]), List.mem_singleton] at there
    subst there
    exact (isSpecial_false.mp (soften_ordinary soft special).1).2

theorem plain_halfEscape {text : List Char} {ts : List Token}
    (within : ∀ c ∈ source ts, c ∈ halfEscape mark soften text) (free : Token.plain '\\' ∉ ts)
    (unmarked : Token.plain mark ∉ ts) :
    ∀ c, Token.plain c ∈ ts → c ≠ '\\' ∧ isSpecial mark c = false := by
  intro c member
  have there : c ∈ source ts := List.mem_flatMap.mpr ⟨_, member, List.mem_singleton_self c⟩
  have breaks := mem_halfEscape soft (within c there)
  refine ⟨?_, isSpecial_false.mpr ⟨?_, breaks⟩⟩
  · rintro rfl
    exact free member
  · rintro rfl
    exact unmarked member

/-- A part of the escaped text is read as the whole text only if that has no backslash. -/
theorem free_of_read {text : List Char} {ts : List Token}
    (within : List.Sublist (source ts) (halfEscape mark soften text))
    (free : Token.plain '\\' ∉ ts) (unmarked : Token.plain mark ∉ ts)
    (read : unescape ts = text) : '\\' ∉ text := by
  have plain := plain_halfEscape soft (fun c member => within.subset member) free unmarked
  have needed := read_escaped soft.mark_escape plain
  have fewer := within.count_le '\\'
  rw [source_count free, halfEscape_count soft, read] at fewer
  rw [read] at needed
  rw [← List.count_eq_zero]
  omega

/-- Without a backslash the text is read, with its softened characters. -/
theorem readsAs_softened {text : List Char} (free : '\\' ∉ text) :
    ReadsAs mark (halfEscape mark soften text)
      (text.map fun c => if isSpecial mark c = true then c else soften c) := by
  induction text with
  | nil => exact ⟨[], rfl, List.not_mem_nil, rfl⟩
  | cons c text ih =>
    rw [List.mem_cons, not_or] at free
    obtain ⟨ts, found, unmarked, read⟩ := ih free.2
    rw [halfEscape_cons, halfEscapeChar, List.map_cons, ← read]
    cases special : isSpecial mark c with
    | true =>
      refine ⟨.escaped (letterOf c) :: ts, ?_, by simp [unmarked], ?_⟩
      · rw [if_pos rfl, List.cons_append, List.singleton_append, tokens_escaped, found]
        rfl
      · rw [unescape_cons, (letterOf_special soft special).2.2.2, if_pos rfl]
    | false =>
      have quiet := soften_ordinary soft special
      have not_mark := (isSpecial_false.mp quiet.1).1
      refine ⟨.plain (soften c) :: ts, ?_, by simp [unmarked, Ne.symm not_mark], ?_⟩
      · rw [if_neg (by simp), List.singleton_append,
          tokens_plain (mt quiet.2.mp (Ne.symm free.1)), found]
        rfl
      · rw [unescape_cons, if_neg (by simp)]
        rfl

/-- No character of the text is softened. -/
def Unsoftened (soften : Char → Char) (text : List Char) : Prop := ∀ c ∈ text, soften c = c

/-- What the escape gives is read back just when there is no backslash and nothing to soften. -/
theorem readsAs_itself (marks : ∀ c, isSpecial mark c = true → soften c = c) {text : List Char} :
    ReadsAs mark (halfEscape mark soften text) text ↔ '\\' ∉ text ∧ Unsoftened soften text := by
  have softened : (text.map fun c => if isSpecial mark c = true then c else soften c) =
      text.map soften := by
    apply List.map_congr_left
    intro c _
    split
    · rename_i special
      exact (marks c special).symm
    · rfl
  have same : text.map soften = text ↔ Unsoftened soften text := by
    have each : text.map soften = text.map id ↔ _ := List.map_inj_left
    rw [List.map_id] at each
    exact each
  constructor
  · rintro ⟨ts, found, unmarked, read⟩
    have whole : source ts = halfEscape mark soften text := source_tokens found
    have free := free_of_read soft (by rw [whole]) (plain_ne found) unmarked read
    obtain ⟨others, again, _, reads⟩ := readsAs_softened soft free
    rw [found, Option.some.injEq] at again
    rw [← again, read, softened] at reads
    exact ⟨free, same.mp reads.symm⟩
  · rintro ⟨free, unsoftened⟩
    have reads := readsAs_softened soft free
    rw [softened, same.mpr unsoftened] at reads
    exact reads

/-- A mark that the escape at the end of the text swallows: the backslashes are too few. -/
theorem swallowed {text front : List Char} {first later : List Token}
    (dangling : halfEscape mark soften text = front ++ ['\\']) (reads : tokens front = some first) :
    unescape (first ++ .escaped mark :: later) ≠ text := by
  intro read
  have lengths : (halfEscape mark soften text).length = _ := halfEscape_length text
  have counts := halfEscape_count soft text
  have free := plain_ne reads
  have value : Token.value (.escaped mark) = mark := by
    simp [Token.value, soft.mark_letter.1, soft.mark_letter.2]
  have after : (mark :: unescape later).count '\\' = (unescape later).count '\\' :=
    List.count_cons_of_ne soft.mark_escape
  have one : ['\\'].count '\\' = 1 := rfl
  have front_length := source_length first
  have front_count := source_count free
  rw [source_tokens reads] at front_length front_count
  rw [dangling, List.length_append, front_length, ← read, unescape_append, unescape_cons,
    List.length_append, value] at lengths
  rw [dangling, List.count_append, front_count, ← read, unescape_append, unescape_cons,
    List.count_append, value, after, one] at counts
  have bounded : (unescape later).count '\\' ≤ (unescape later).length := List.count_le_length
  have same_length : (unescape first).length = first.length := List.length_map _
  simp only [List.length_cons, List.length_nil] at lengths
  omega

/-- A field that is read at all is closed and has no backslash. -/
theorem field_closed {text rest : List Char} {ts before after : List Token}
    (found : tokens (halfEscape mark soften text ++ mark :: rest) = some ts)
    (cuts : cut mark ts = some (before, after)) (read : unescape before = text) :
    '\\' ∉ text ∧ ∃ here, tokens (halfEscape mark soften text) = some here := by
  obtain ⟨whole, unmarked⟩ := cut_some cuts
  have free := plain_ne found
  rw [whole, List.mem_append, not_or] at free
  cases closed : tokens (halfEscape mark soften text) with
  | some here =>
    rw [tokens_append closed, tokens_plain soft.mark_escape, Option.map_map,
      Option.map_eq_some_iff] at found
    obtain ⟨later, _, joined⟩ := found
    rw [whole, Function.comp_apply] at joined
    -- the field ends within the text: at its end, or at a mark in it
    have part : List.Sublist (source before) (halfEscape mark soften text) := by
      rw [← source_tokens closed]
      rcases List.append_eq_append_iff.mp joined with ⟨more, first, last⟩ | ⟨more, first, last⟩
      · cases more with
        | nil => rw [first, List.append_nil]
        | cons t more =>
          obtain ⟨rfl, _⟩ := List.cons.inj last
          rw [first] at unmarked
          exact absurd (List.mem_append_right _ List.mem_cons_self) unmarked
      · rw [first, source_append]
        exact List.sublist_append_left _ _
    exact ⟨free_of_read soft part free.1 unmarked read, here, rfl⟩
  | none =>
    obtain ⟨front, first, reads, dangling⟩ := tokens_none closed
    rw [dangling, List.append_assoc, List.singleton_append, tokens_append reads, tokens_escaped,
      Option.map_map, Option.map_eq_some_iff] at found
    obtain ⟨later, _, joined⟩ := found
    rw [whole, Function.comp_apply] at joined
    rcases List.append_eq_append_iff.mp joined with ⟨more, longer, last⟩ | ⟨more, shorter, last⟩
    · cases more with
      | nil => cases last
      | cons t more =>
        obtain ⟨rfl, _⟩ := List.cons.inj last
        rw [longer] at read
        exact absurd read (swallowed soft dangling reads)
    · have part : List.Sublist (source before) (halfEscape mark soften text) := by
        rw [dangling, ← source_tokens reads, shorter, source_append, List.append_assoc]
        exact List.sublist_append_left _ _
      have no_backslash := free_of_read soft part free.1 unmarked read
      obtain ⟨_, found, _⟩ := readsAs_softened soft no_backslash
      rw [closed] at found
      cases found

/-- A field and the mark after it are read as the field just when it has no backslash and nothing
    to soften; what follows the mark is then read by itself. -/
theorem cut_field (marks : ∀ c, isSpecial mark c = true → soften c = c) {text rest : List Char}
    {after : List Token} :
    (∃ ts before, tokens (halfEscape mark soften text ++ mark :: rest) = some ts ∧
        cut mark ts = some (before, after) ∧ unescape before = text) ↔
      ('\\' ∉ text ∧ Unsoftened soften text) ∧ tokens rest = some after := by
  constructor
  · rintro ⟨ts, before, found, cuts, read⟩
    obtain ⟨no_backslash, here, closed⟩ := field_closed soft found cuts read
    obtain ⟨again, same, unmarked, _⟩ := readsAs_softened soft no_backslash
    obtain rfl : again = here := Option.some.inj (same.symm.trans closed)
    rw [tokens_append closed, tokens_plain soft.mark_escape, Option.map_map,
      Option.map_eq_some_iff] at found
    obtain ⟨later, follows, rfl⟩ := found
    rw [Function.comp_apply, cut_append unmarked, Option.some.injEq, Prod.mk.injEq] at cuts
    obtain ⟨rfl, rfl⟩ := cuts
    exact ⟨(readsAs_itself soft marks).mp ⟨_, closed, unmarked, read⟩, follows⟩
  · rintro ⟨good, follows⟩
    obtain ⟨before, closed, unmarked, read⟩ := (readsAs_itself soft marks).mpr good
    refine ⟨before ++ .plain mark :: after, before, ?_, cut_append unmarked after, read⟩
    rw [tokens_append closed, tokens_plain soft.mark_escape, follows]
    rfl

/-- The fields are read as they were just when none has a backslash or anything to soften. -/
theorem readFields_half (marks : ∀ c, isSpecial mark c = true → soften c = c)
    {fields : List (List Char)} {rest : List Char} {last : List Token} :
    (∃ ts, tokens (fieldsText mark (fields.map (halfEscape mark soften)) rest) = some ts ∧
        readFields mark fields.length ts = some (fields, last)) ↔
      (∀ field ∈ fields, '\\' ∉ field ∧ Unsoftened soften field) ∧ tokens rest = some last := by
  induction fields with
  | nil => simp [fieldsText, readFields]
  | cons field fields ih =>
    have first : ∀ after, (∃ ts before, tokens (halfEscape mark soften field ++
        mark :: fieldsText mark (fields.map (halfEscape mark soften)) rest) = some ts ∧
        cut mark ts = some (before, after) ∧ unescape before = field) ↔ _ :=
      fun after => cut_field soft marks
    rw [List.forall_mem_cons, and_assoc, ← ih]
    constructor
    · rintro ⟨ts, found, reads⟩
      rw [List.length_cons, readFields] at reads
      cases cuts : cut mark ts with
      | none => simp [cuts] at reads
      | some halves =>
        simp only [cuts, Option.map_eq_some_iff, Prod.mk.injEq, List.cons.injEq] at reads
        obtain ⟨⟨said, final⟩, reads, ⟨read, rfl⟩, rfl⟩ := reads
        obtain ⟨good, follows⟩ := (first halves.2).mp ⟨ts, halves.1, found, cuts, read⟩
        exact ⟨good, halves.2, follows, reads⟩
    · rintro ⟨good, after, follows, reads⟩
      obtain ⟨ts, before, found, cuts, read⟩ := (first after).mpr ⟨good, follows⟩
      refine ⟨ts, found, ?_⟩
      rw [List.length_cons, readFields, cuts]
      simp only [reads, Option.map_some, read]

end Count

end Escaped
