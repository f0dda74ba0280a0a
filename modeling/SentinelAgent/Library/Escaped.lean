import Mathlib.Data.List.Basic
import Mathlib.Data.List.Count
import Mathlib.Data.List.Forall2

/-!
Texts in which a backslash takes the meaning of the character after it away. A text is read as
characters that stand for themselves and escaped ones, and is cut at the plain ones only. A
backslash at the very end escapes nothing: such a text cannot be read.
-/
namespace Escaped

inductive Token where
  | plain (c : Char)
  | escaped (c : Char)
  deriving DecidableEq

/-- What a token says. -/
def Token.value : Token → Char
  | .plain c => c
  | .escaped c => if c = 'n' then '\n' else if c = 'r' then '\r' else c

def Token.source : Token → List Char
  | .plain c => [c]
  | .escaped c => ['\\', c]

@[grind =] def tokens : List Char → Option (List Token)
  | [] => some []
  | c :: rest =>
    if c = '\\' then
      match rest with
      | [] => none
      | next :: rest => (tokens rest).map (Token.escaped next :: ·)
    else (tokens rest).map (Token.plain c :: ·)

def unescape (ts : List Token) : List Char := ts.map Token.value

def source (ts : List Token) : List Char := ts.flatMap Token.source

/-- What stands before and after the first plain mark. -/
@[grind =] def cut (mark : Char) : List Token → Option (List Token × List Token)
  | [] => none
  | t :: ts =>
    if t = .plain mark then some ([], ts)
    else (cut mark ts).map fun halves => (t :: halves.1, halves.2)

/-- So many fields, each up to a plain mark, and what follows them. -/
def readFields (mark : Char) : Nat → List Token → Option (List (List Char) × List Token)
  | 0, ts => some ([], ts)
  | n + 1, ts =>
    match cut mark ts with
    | some (first, rest) =>
      (readFields mark n rest).map fun read => (unescape first :: read.1, read.2)
    | none => none

/-- The fields of a text, with a mark after each. -/
def fieldsText (mark : Char) (fields : List (List Char)) (rest : List Char) : List Char :=
  match fields with
  | [] => rest
  | field :: fields => field ++ mark :: fieldsText mark fields rest

@[simp] theorem tokens_nil : tokens [] = some [] := rfl

theorem tokens_plain {c : Char} (other : c ≠ '\\') (rest : List Char) :
    tokens (c :: rest) = (tokens rest).map (Token.plain c :: ·) := by
  cases rest <;> simp [tokens, other]

@[simp] theorem tokens_escaped (c : Char) (rest : List Char) :
    tokens ('\\' :: c :: rest) = (tokens rest).map (Token.escaped c :: ·) := by
  rw [tokens, if_pos rfl]

@[simp] theorem tokens_dangling : tokens ['\\'] = none := rfl

/-- The cases a text is read by. -/
theorem tokens_cases {P : List Char → Prop} (nil : P []) (dangling : P ['\\'])
    (escaped : ∀ c rest, P rest → P ('\\' :: c :: rest))
    (plain : ∀ c rest, c ≠ '\\' → P rest → P (c :: rest)) : ∀ text, P text
  | [] => nil
  | c :: rest => by
    by_cases here : c = '\\'
    · subst here
      cases rest with
      | nil => exact dangling
      | cons next rest => exact escaped next rest (tokens_cases nil dangling escaped plain rest)
    · exact plain c rest here (tokens_cases nil dangling escaped plain rest)

theorem tokens_append {a : List Char} {ts : List Token} (reads : tokens a = some ts)
    (b : List Char) : tokens (a ++ b) = (tokens b).map (ts ++ ·) := by
  induction a using tokens_cases generalizing ts with
  | nil =>
    cases reads
    simp
  | dangling => cases reads
  | escaped c rest ih =>
    rw [tokens_escaped, Option.map_eq_some_iff] at reads
    obtain ⟨later, found, rfl⟩ := reads
    rw [List.cons_append, List.cons_append, tokens_escaped, ih found, Option.map_map]
    rfl
  | plain c rest other ih =>
    rw [tokens_plain other, Option.map_eq_some_iff] at reads
    obtain ⟨later, found, rfl⟩ := reads
    rw [List.cons_append, tokens_plain other, ih found, Option.map_map]
    rfl

theorem source_tokens {text : List Char} {ts : List Token} (reads : tokens text = some ts) :
    source ts = text := by
  induction text using tokens_cases generalizing ts with
  | nil => cases reads; rfl
  | dangling => cases reads
  | escaped c rest ih =>
    rw [tokens_escaped, Option.map_eq_some_iff] at reads
    obtain ⟨later, found, rfl⟩ := reads
    rw [source, List.flatMap_cons, ← source, ih found]
    rfl
  | plain c rest other ih =>
    rw [tokens_plain other, Option.map_eq_some_iff] at reads
    obtain ⟨later, found, rfl⟩ := reads
    rw [source, List.flatMap_cons, ← source, ih found]
    rfl

/-- A backslash is never a plain character. -/
theorem plain_ne {text : List Char} {ts : List Token} (reads : tokens text = some ts) :
    Token.plain '\\' ∉ ts := by
  induction text using tokens_cases generalizing ts with
  | nil => cases reads; exact List.not_mem_nil
  | dangling => cases reads
  | escaped c rest ih =>
    rw [tokens_escaped, Option.map_eq_some_iff] at reads
    obtain ⟨later, found, rfl⟩ := reads
    simp [ih found]
  | plain c rest other ih =>
    rw [tokens_plain other, Option.map_eq_some_iff] at reads
    obtain ⟨later, found, rfl⟩ := reads
    simp [ih found, Ne.symm other]

/-- A text that cannot be read ends within an escape. -/
theorem tokens_none {text : List Char} (unread : tokens text = none) :
    ∃ front ts, tokens front = some ts ∧ text = front ++ ['\\'] := by
  induction text using tokens_cases with
  | nil => cases unread
  | dangling => exact ⟨[], [], rfl, rfl⟩
  | escaped c rest ih =>
    rw [tokens_escaped, Option.map_eq_none_iff] at unread
    obtain ⟨front, ts, reads, rfl⟩ := ih unread
    exact ⟨'\\' :: c :: front, .escaped c :: ts, by rw [tokens_escaped, reads]; rfl, rfl⟩
  | plain c rest other ih =>
    rw [tokens_plain other, Option.map_eq_none_iff] at unread
    obtain ⟨front, ts, reads, rfl⟩ := ih unread
    exact ⟨c :: front, .plain c :: ts, by rw [tokens_plain other, reads]; rfl, rfl⟩

section Cut
variable {mark : Char}

theorem cut_some {ts before after : List Token} (found : cut mark ts = some (before, after)) :
    ts = before ++ .plain mark :: after ∧ .plain mark ∉ before := by
  induction ts generalizing before with
  | nil => cases found
  | cons t ts ih =>
    rw [cut] at found
    split at found
    · rename_i here
      cases found
      exact ⟨by rw [here]; rfl, List.not_mem_nil⟩
    · rename_i other
      rw [Option.map_eq_some_iff] at found
      obtain ⟨halves, later, ends⟩ := found
      cases ends
      obtain ⟨whole, free⟩ := ih later
      refine ⟨by rw [whole]; rfl, ?_⟩
      simp [free, Ne.symm other]

theorem cut_append {before : List Token} (free : .plain mark ∉ before) (after : List Token) :
    cut mark (before ++ .plain mark :: after) = some (before, after) := by
  induction before with
  | nil => simp [cut]
  | cons t ts ih =>
    rw [List.mem_cons, not_or] at free
    rw [List.cons_append, cut, if_neg (Ne.symm free.1), ih free.2]
    rfl

end Cut

/-- Text without a backslash stands for itself. -/
theorem tokens_unescaped {text : List Char} (free : '\\' ∉ text) :
    tokens text = some (text.map .plain) := by
  induction text with
  | nil => rfl
  | cons c rest ih =>
    rw [List.mem_cons, not_or] at free
    rw [tokens_plain (Ne.symm free.1), ih free.2]
    rfl

@[simp] theorem unescape_plain (text : List Char) : unescape (text.map .plain) = text := by
  rw [unescape, List.map_map]
  exact List.map_id _

theorem unescape_cons (t : Token) (ts : List Token) : unescape (t :: ts) = t.value :: unescape ts :=
  List.map_cons

theorem source_cons (t : Token) (ts : List Token) : source (t :: ts) = t.source ++ source ts :=
  List.flatMap_cons

theorem source_append (a b : List Token) : source (a ++ b) = source a ++ source b :=
  List.flatMap_append

theorem unescape_append (a b : List Token) : unescape (a ++ b) = unescape a ++ unescape b :=
  List.map_append

/-- A piece of a text that is read as so many characters, with no plain mark among them. -/
def ReadsAs (mark : Char) (piece said : List Char) : Prop :=
  ∃ ts, tokens piece = some ts ∧ .plain mark ∉ ts ∧ unescape ts = said

theorem readsAs_unescaped {mark : Char} {piece : List Char} (no_escape : '\\' ∉ piece)
    (no_mark : mark ∉ piece) : ReadsAs mark piece piece := by
  refine ⟨_, tokens_unescaped no_escape, ?_, unescape_plain piece⟩
  intro member
  obtain ⟨c, there, plain⟩ := List.mem_map.mp member
  cases plain
  exact no_mark there

/-- Fields that can be read each by themselves are read one after the other. -/
theorem readFields_text {mark : Char} (ordinary : mark ≠ '\\') {fields said : List (List Char)}
    (reads : List.Forall₂ (ReadsAs mark) fields said) {rest : List Char} {last : List Token}
    (follows : tokens rest = some last) :
    ∃ ts, tokens (fieldsText mark fields rest) = some ts ∧
      readFields mark fields.length ts = some (said, last) := by
  induction reads with
  | nil => exact ⟨last, follows, rfl⟩
  | cons first _ ih =>
    obtain ⟨ts, found, free, what⟩ := first
    obtain ⟨later, text, read⟩ := ih
    refine ⟨ts ++ .plain mark :: later, ?_, ?_⟩
    · rw [fieldsText, tokens_append found, tokens_plain ordinary, text]
      rfl
    · rw [List.length_cons, readFields, cut_append free]
      simp only [read, Option.map_some, what]

section Escape
variable (mark : Char)

/-- The escape character, the mark and the line breaks are escaped. -/
def escapeChar (c : Char) : List Char :=
  if c = '\\' then ['\\', '\\']
  else if c = mark then ['\\', mark]
  else if c = '\n' then ['\\', 'n']
  else if c = '\r' then ['\\', 'r']
  else [c]

def escape (text : List Char) : List Char := text.flatMap (escapeChar mark)

def tokenOf (c : Char) : Token :=
  if c = '\\' ∨ c = mark then .escaped c
  else if c = '\n' then .escaped 'n'
  else if c = '\r' then .escaped 'r'
  else .plain c

variable {mark}

theorem tokens_escape (text : List Char) :
    tokens (escape mark text) = some (text.map (tokenOf mark)) := by
  induction text with
  | nil => rfl
  | cons c rest ih =>
    have cut : escape mark (c :: rest) = escapeChar mark c ++ escape mark rest := List.flatMap_cons
    have first : tokens (escapeChar mark c) = some [tokenOf mark c] := by
      unfold escapeChar tokenOf
      by_cases backslash : c = '\\'
      · simp [backslash]
      · by_cases marked : c = mark
        · rw [if_neg backslash, if_pos marked, if_pos (Or.inr marked), marked, tokens_escaped]
          rfl
        · by_cases feed : c = '\n'
          · simp [feed, show ('\n' : Char) ≠ mark from feed ▸ marked]
          · by_cases ret : c = '\r'
            · simp [ret, show ('\r' : Char) ≠ mark from ret ▸ marked]
            · simp [backslash, marked, feed, ret, tokens_plain]
    rw [cut, tokens_append first, ih]
    rfl

theorem unescape_escape (not_feed : mark ≠ 'n') (not_return : mark ≠ 'r') (text : List Char) :
    unescape (text.map (tokenOf mark)) = text := by
  have each : ∀ c ∈ text, (Token.value ∘ tokenOf mark) c = c := by
    intro c _
    simp only [Function.comp_apply, tokenOf]
    by_cases special : c = '\\' ∨ c = mark
    · rw [if_pos special]
      rcases special with rfl | rfl
      · rfl
      · simp [Token.value, not_feed, not_return]
    · rw [if_neg special]
      by_cases feed : c = '\n'
      · simp [feed, Token.value]
      · by_cases ret : c = '\r'
        · simp [ret, Token.value]
        · simp [feed, ret, Token.value]
  rw [unescape, List.map_map, List.map_congr_left each]
  exact List.map_id _

theorem plain_tokenOf {c d : Char} (plain : tokenOf mark d = .plain c) : c = d ∧ c ≠ mark := by
  unfold tokenOf at plain
  split at plain
  · cases plain
  · rename_i ordinary
    split at plain
    · cases plain
    · split at plain
      · cases plain
      · cases plain
        exact ⟨rfl, fun marked => ordinary (Or.inr marked)⟩

/-- The mark is nowhere plain. -/
theorem mark_escaped (text : List Char) : .plain mark ∉ text.map (tokenOf mark) := by
  intro member
  obtain ⟨c, _, plain⟩ := List.mem_map.mp member
  exact (plain_tokenOf plain).2 rfl

theorem readsAs_escape (not_feed : mark ≠ 'n') (not_return : mark ≠ 'r') (text : List Char) :
    ReadsAs mark (escape mark text) text :=
  ⟨_, tokens_escape text, mark_escaped text, unescape_escape not_feed not_return text⟩

theorem escape_ordinary {text : List Char}
    (ordinary : ∀ c ∈ text, c ≠ '\\' ∧ c ≠ mark ∧ c ≠ '\n' ∧ c ≠ '\r') :
    escape mark text = text := by
  induction text with
  | nil => rfl
  | cons c rest ih =>
    obtain ⟨backslash, marked, feed, ret⟩ := ordinary c List.mem_cons_self
    have later := ih fun d member => ordinary d (List.mem_cons_of_mem _ member)
    have cut : escape mark (c :: rest) = escapeChar mark c ++ escape mark rest := List.flatMap_cons
    rw [cut, later, escapeChar, if_neg backslash, if_neg marked, if_neg feed, if_neg ret]
    rfl

/-- An escaped text is in one line. -/
theorem escape_line (not_feed : mark ≠ '\n') (not_return : mark ≠ '\r') (text : List Char) :
    ∀ c ∈ escape mark text, c ≠ '\n' ∧ c ≠ '\r' := by
  intro c member
  obtain ⟨d, _, there⟩ := List.mem_flatMap.mp member
  unfold escapeChar at there
  split at there
  · simp at there; subst there; decide
  · split at there
    · simp only [List.mem_cons, List.not_mem_nil, or_false] at there
      rcases there with rfl | rfl
      · decide
      · exact ⟨not_feed, not_return⟩
    · split at there
      · simp only [List.mem_cons, List.not_mem_nil, or_false] at there
        rcases there with rfl | rfl <;> decide
      · split at there
        · simp only [List.mem_cons, List.not_mem_nil, or_false] at there
          rcases there with rfl | rfl <;> decide
        · rename_i feed ret
          rw [List.mem_singleton] at there
          subst there
          exact ⟨feed, ret⟩

end Escape

section Split
variable {mark : Char}

/-- Every piece read by itself, where all of them can be. -/
def readAll {α : Type} (read : List Token → Option α) : List (List Token) → Option (List α)
  | [] => some []
  | piece :: pieces =>
    match read piece, readAll read pieces with
    | some first, some rest => some (first :: rest)
    | _, _ => none

theorem readAll_eq {α : Type} {read : List Token → Option α} {pieces : List (List Token)}
    {said : List α} :
    readAll read pieces = some said ↔ List.Forall₂ (fun p s => read p = some s) pieces said := by
  induction pieces generalizing said with
  | nil => simp [readAll, eq_comm]
  | cons piece pieces ih =>
    cases first : read piece with
    | none => simp [readAll, first, List.forall₂_cons_left_iff]
    | some value =>
      cases rest : readAll read pieces with
      | none =>
        rw [rest] at ih
        simp only [readAll, first, rest, List.forall₂_cons_left_iff, ← ih]
        simp
      | some values =>
        rw [rest] at ih
        simp only [readAll, first, rest, List.forall₂_cons_left_iff, ← ih]
        simp [eq_comm]

theorem splitOn_length {α : Type} [DecidableEq α] (a : α) (l : List α) :
    (l.splitOn a).length = l.count a + 1 := by
  induction l with
  | nil => rfl
  | cons x l ih =>
    rw [List.splitOn_cons_eq_if_modifyHead, List.count_cons]
    split
    · rw [List.length_cons, ih]
    · rw [List.length_modifyHead, ih]

theorem count_plain (mark : Char) (ts : List Token) : ts.count (.plain mark) ≤ (source ts).count mark := by
  induction ts with
  | nil => exact Nat.le_refl 0
  | cons t ts ih =>
    rw [source_cons, List.count_append, List.count_cons]
    by_cases here : t = .plain mark
    · rw [here, Token.source, List.count_singleton_self]
      simp only [beq_self_eq_true, if_true]
      omega
    · rw [beq_false_of_ne here]
      simp only [Bool.false_eq_true, if_false]
      omega

theorem not_plain {text : List Char} {ts : List Token} (found : tokens text = some ts)
    (free : mark ∉ text) : Token.plain mark ∉ ts := by
  have fewer := count_plain mark ts
  rw [source_tokens found, List.count_eq_zero.mpr free] at fewer
  exact List.count_eq_zero.mp (Nat.le_zero.mp fewer)

theorem count_intercalate {pieces : List (List Char)} (some_piece : pieces ≠ [])
    (free : ∀ piece ∈ pieces, mark ∉ piece) :
    ([mark].intercalate pieces).count mark + 1 = pieces.length := by
  induction pieces with
  | nil => exact absurd rfl some_piece
  | cons piece pieces ih =>
    have first := List.count_eq_zero.mpr (free piece List.mem_cons_self)
    cases pieces with
    | nil => rw [List.intercalate_singleton, first]; rfl
    | cons next pieces =>
      have rest := ih (List.cons_ne_nil _ _) fun p member => free p (List.mem_cons_of_mem _ member)
      rw [List.intercalate_cons_cons, List.count_append, List.count_append, first,
        List.count_singleton_self, List.length_cons, ← rest]
      omega

/-- Pieces that are as many as the plain marks allow are read each by itself. -/
theorem split_aligned (ordinary : mark ≠ '\\') {pieces : List (List Char)} (some_piece : pieces ≠ [])
    (free : ∀ piece ∈ pieces, mark ∉ piece) {ts : List Token}
    (found : tokens ([mark].intercalate pieces) = some ts)
    (as_many : (ts.splitOn (.plain mark)).length = pieces.length) :
    List.Forall₂ (fun piece t => tokens piece = some t) pieces (ts.splitOn (.plain mark)) := by
  induction pieces generalizing ts with
  | nil => exact absurd rfl some_piece
  | cons piece pieces ih =>
    have clear := free piece List.mem_cons_self
    cases pieces with
    | nil =>
      rw [List.intercalate_singleton] at found
      rw [List.splitOn_eq_singleton (not_plain found clear)]
      exact .cons found .nil
    | cons next pieces =>
      have later_free : ∀ p ∈ next :: pieces, mark ∉ p := fun p member =>
        free p (List.mem_cons_of_mem _ member)
      rw [List.intercalate_cons_cons, List.append_assoc, List.singleton_append] at found
      cases closed : tokens piece with
      | some first =>
        rw [tokens_append closed, tokens_plain ordinary, Option.map_map,
          Option.map_eq_some_iff] at found
        obtain ⟨later, follows, rfl⟩ := found
        have cut : (first ++ .plain mark :: later).splitOn (.plain mark) =
            first :: later.splitOn (.plain mark) :=
          List.splitOn_append_cons_self_of_not_mem (not_plain closed clear) later
        rw [Function.comp_apply] at as_many ⊢
        rw [cut] at as_many ⊢
        exact .cons closed (ih (List.cons_ne_nil _ _) later_free follows (Nat.succ.inj as_many))
      | none =>
        -- an escape at the end of the piece takes a mark away, and then there are too few
        obtain ⟨front, first, reads, dangling⟩ := tokens_none closed
        rw [dangling, List.append_assoc, List.singleton_append, tokens_append reads,
          tokens_escaped, Option.map_map, Option.map_eq_some_iff] at found
        obtain ⟨later, follows, rfl⟩ := found
        have none_first : first.count (.plain mark) = 0 := by
          refine List.count_eq_zero.mpr (not_plain reads ?_)
          rw [dangling, List.mem_append, not_or] at clear
          exact clear.1
        have fewer := count_plain mark later
        rw [source_tokens follows] at fewer
        have all := count_intercalate (List.cons_ne_nil next pieces) later_free
        rw [splitOn_length, Function.comp_apply, List.count_append, none_first,
          List.count_cons_of_ne (by simp), List.length_cons] at as_many
        omega

theorem tokens_intercalate (ordinary : mark ≠ '\\') {pieces : List (List Char)}
    {ts : List (List Token)} (each : List.Forall₂ (fun piece t => tokens piece = some t) pieces ts)
    : tokens ([mark].intercalate pieces) = some ([Token.plain mark].intercalate ts) := by
  induction each with
  | nil => rfl
  | @cons piece t pieces ts first rest ih =>
    cases rest with
    | nil => rw [List.intercalate_singleton, List.intercalate_singleton, first]
    | cons second rest =>
      rw [List.intercalate_cons_cons, List.intercalate_cons_cons, List.append_assoc,
        List.singleton_append, tokens_append first, tokens_plain ordinary, ih]
      simp

theorem forall₂_through {A B C : Type} {P : A → B → Prop} {Q : B → C → Prop} {as : List A}
    {cs : List C} :
    List.Forall₂ (fun a c => ∃ b, P a b ∧ Q b c) as cs ↔
      ∃ bs, List.Forall₂ P as bs ∧ List.Forall₂ Q bs cs := by
  constructor
  · intro each
    induction each with
    | nil => exact ⟨[], .nil, .nil⟩
    | cons first _ ih =>
      obtain ⟨b, left, right⟩ := first
      obtain ⟨bs, lefts, rights⟩ := ih
      exact ⟨b :: bs, .cons left lefts, .cons right rights⟩
  · rintro ⟨bs, lefts, rights⟩
    induction lefts generalizing cs with
    | nil =>
      cases rights
      exact .nil
    | cons left _ ih =>
      cases rights with
      | cons right rights => exact .cons ⟨_, left, right⟩ (ih rights)

/-- Pieces with a mark between them are read as they are read alone. -/
theorem readAll_pieces {α : Type} (read : List Token → Option α) (ordinary : mark ≠ '\\')
    {pieces : List (List Char)} (some_piece : pieces ≠ [])
    (free : ∀ piece ∈ pieces, mark ∉ piece) {said : List α}
    (as_many : said.length = pieces.length) :
    (∃ ts, tokens ([mark].intercalate pieces) = some ts ∧
        readAll read (ts.splitOn (.plain mark)) = some said) ↔
      List.Forall₂ (fun piece s => ∃ ts, tokens piece = some ts ∧ read ts = some s) pieces said := by
  constructor
  · rintro ⟨ts, found, reads⟩
    rw [readAll_eq] at reads
    have aligned := split_aligned ordinary some_piece free found (reads.length_eq.trans as_many)
    exact forall₂_through.mpr ⟨_, aligned, reads⟩
  · intro each
    obtain ⟨ts, aligned, reads⟩ := forall₂_through.mp each
    refine ⟨_, tokens_intercalate ordinary aligned, ?_⟩
    have unmarked : ∀ t ∈ ts, Token.plain mark ∉ t := by
      clear reads each as_many some_piece
      induction aligned with
      | nil => simp
      | cons found _ ih =>
        intro t member
        rcases List.mem_cons.mp member with rfl | later
        · exact not_plain found (free _ List.mem_cons_self)
        · exact ih (fun p there => free p (List.mem_cons_of_mem _ there)) t later
    have some_ts : ts ≠ [] := by
      rintro rfl
      exact some_piece (List.length_eq_zero_iff.mp aligned.length_eq)
    rw [List.splitOn_intercalate (.plain mark) unmarked some_ts, readAll_eq]
    exact reads

end Split

end Escaped
