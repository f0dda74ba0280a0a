import Mathlib.Data.List.TakeWhile
import SentinelAgent.Library.Globs
import SentinelAgent.Scanner.ConditionParser
import SentinelAgent.Scanner.SigmaValues

/-!
The searches of a rule, and what its condition makes of them. A quantified condition selects
the searches by their names.
-/
namespace SentinelAgent.Sigma
open Maps Text

/- One named search: alternatives of fields that all match, or keywords. -/
inductive Search (F : Type) where
  | fields (alternatives : List (List (FieldMatch F)))
  | keywords (listed : List (String → Bool))

def Search.matches {F : Type} (l : Libraries F) (search : Search F) (event : Scanner.SigmaEvent) :
    Bool :=
  match search with
  | .fields alternatives =>
    alternatives.any fun fields => fields.all fun field => field.matches l event
  | .keywords listed =>
    listed.any fun isMatch => decide (0 < event.entries.countP fun entry => isMatch entry.2 = true)

/- Whether a search name matches a `name*` pattern. -/
def nameMatches (pattern name : String) : Bool :=
  match splitFirst '*' pattern with
  | none => pattern == name
  | some (start, rest) =>
    decide (start.utf8ByteSize + (afterLast '*' rest).utf8ByteSize ≤ name.utf8ByteSize) &&
      beginsWith start name && endsWith (afterLast '*' rest) name

section Conditions
variable {F : Type} (l : Libraries F) (searches : Map String (Search F))
  (event : Scanner.SigmaEvent)

/- Whether each search of the pattern holds, in no order of their own. -/
def selected (pattern : String) : Multiset Bool :=
  (searches.entries.filter fun entry => nameMatches pattern entry.1 = true).map
    fun entry => entry.2.matches l event

/- `none` asks for all of them, and there has to be one. -/
def quantified (atLeast : Option Nat) (selected : Multiset Bool) : Bool :=
  match atLeast with
  | none => decide (selected ≠ 0) && decide (∀ held ∈ selected, held = true)
  | some count => decide (count ≤ selected.count true)

def evaluate : Scanner.Expr → Bool
  | .search name => (searches.lookup name).any fun search => search.matches l event
  | .not inner => !evaluate inner
  | .and left right => evaluate left && evaluate right
  | .or left right => evaluate left || evaluate right
  | .of atLeast pattern => quantified atLeast (selected l searches event pattern)

end Conditions

/-! The language of a name pattern. -/

def nameItem (c : Char) : Globs.Item Char := if c = '*' then .many else Globs.exactly c

def nameItems (pattern : List Char) : List (Globs.Item Char) := pattern.map nameItem

def InGlob (pattern name : String) : Prop := Globs.Matches (nameItems pattern.toList) name.toList

instance (pattern name : String) : Decidable (InGlob pattern name) :=
  inferInstanceAs (Decidable (Globs.Matches _ _))

/- From the first star of a pattern to its last one. -/
def starred (pattern : List Char) : List Char :=
  ((pattern.dropWhile (· != '*')).reverse.dropWhile (· != '*')).reverse

/- No letter stands between two stars. -/
def OneGap (pattern : String) : Prop := ∀ c ∈ starred pattern.toList, c = '*'

instance (pattern : String) : Decidable (OneGap pattern) :=
  inferInstanceAs (Decidable (∀ c ∈ starred pattern.toList, c = '*'))

def nameStart (pattern : List Char) : List Char := pattern.takeWhile (· != '*')

def nameStop (pattern : List Char) : List Char :=
  ((pattern.dropWhile (· != '*')).reverse.takeWhile (· != '*')).reverse

theorem pattern_parts (pattern : List Char) :
    nameStart pattern ++ (starred pattern ++ nameStop pattern) = pattern := by
  rw [starred, nameStop, ← List.reverse_append, List.takeWhile_append_dropWhile, List.reverse_reverse,
    nameStart, List.takeWhile_append_dropWhile]

theorem no_star {c : Char} {pattern : List Char}
    (before : c ∈ pattern.takeWhile (· != '*')) : c ≠ '*' := by
  have := List.mem_takeWhile_imp before
  simpa using this

theorem nameItems_plain {word : List Char} (plain : ∀ c ∈ word, c ≠ '*') :
    nameItems word = word.map Globs.exactly :=
  List.map_congr_left fun c member => if_neg (plain c member)

theorem letters_nameItems (pattern : List Char) :
    Globs.letters (nameItems pattern) = pattern.countP (· ≠ '*') := by
  induction pattern with
  | nil => rfl
  | cons c pattern ih =>
    rw [nameItems] at *
    by_cases star : c = '*'
    · simp [nameItem, star, Globs.letters, ih]
    · simp [nameItem, star, Globs.exactly, Globs.letters, ih]

theorem countP_plain {word : List Char} (plain : ∀ c ∈ word, c ≠ '*') :
    word.countP (· ≠ '*') = word.length := by
  rw [List.countP_eq_length]
  intro c member
  simpa using plain c member

theorem nameStop_plain {c : Char} {pattern : List Char} (after : c ∈ nameStop pattern) :
    c ≠ '*' := by
  rw [nameStop, List.mem_reverse] at after
  exact no_star after

theorem dropWhile_star {pattern : List Char} (star : '*' ∈ pattern) :
    ∃ rest, pattern.dropWhile (· != '*') = '*' :: rest := by
  cases there : pattern.dropWhile (· != '*') with
  | nil =>
    have := List.dropWhile_eq_nil_iff.mp there '*' star
    simp at this
  | cons c rest =>
    have first := List.head?_dropWhile_not (· != '*') pattern
    rw [there] at first
    have is_star : c = '*' := by simpa using first
    exact ⟨rest, by rw [is_star]⟩

/- The text after the last star, as the code finds it behind the first one. -/
theorem nameStop_eq {pattern rest : List Char}
    (found : pattern.dropWhile (· != '*') = '*' :: rest) :
    (rest.reverse.takeWhile (· != '*')).reverse = nameStop pattern := by
  have stopped : ['*'].takeWhile (· != '*') = [] := rfl
  rw [nameStop, found, List.reverse_cons, List.takeWhile_append, stopped, List.append_nil]
  split_ifs with whole
  · rw [(List.takeWhile_prefix _).eq_of_length whole]
  · rfl

/- The two ends stand in a name without sharing a letter. -/
theorem ends_iff (start stop name : String) :
    (start.utf8ByteSize + stop.utf8ByteSize ≤ name.utf8ByteSize ∧ start.toList <+: name.toList ∧
      stop.toList <:+ name.toList) ↔
      ∃ between, name.toList = start.toList ++ between ++ stop.toList := by
  constructor
  · rintro ⟨sizes, ⟨after, head⟩, before, tail⟩
    have name_eq : name = String.ofList before ++ stop := by
      apply String.toList_inj.mp
      simpa using tail.symm
    rcases List.append_eq_append_iff.mp (head.trans tail.symm) with
      ⟨between, rfl, rfl⟩ | ⟨shared, start_eq, rest⟩
    · exact ⟨between, tail.symm⟩
    · have start_is : start = String.ofList before ++ String.ofList shared := by
        apply String.toList_inj.mp
        simpa using start_eq
      rw [name_eq, start_is, String.utf8ByteSize_append, String.utf8ByteSize_append] at sizes
      have none_shared : (String.ofList shared).utf8ByteSize = 0 := by omega
      have empty : shared = [] := by
        simpa using String.utf8ByteSize_eq_zero_iff.mp none_shared
      refine ⟨[], ?_⟩
      rw [← tail, start_eq, empty]
      simp
  · rintro ⟨between, whole⟩
    have name_eq : name = start ++ String.ofList between ++ stop := by
      apply String.toList_inj.mp
      simpa using whole
    refine ⟨?_, ?_, ?_⟩
    · rw [name_eq, String.utf8ByteSize_append, String.utf8ByteSize_append]
      omega
    · exact ⟨between ++ stop.toList, by rw [whole, List.append_assoc]⟩
    · exact ⟨start.toList ++ between, whole.symm⟩

theorem nameMatches_iff (pattern name : String) : nameMatches pattern name = true ↔
    if '*' ∈ pattern.toList then
      ∃ between, name.toList = nameStart pattern.toList ++ between ++ nameStop pattern.toList
    else name.toList = pattern.toList := by
  by_cases star : '*' ∈ pattern.toList
  · obtain ⟨rest, found⟩ := dropWhile_star star
    have stop : afterLast '*' (String.ofList rest) = String.ofList (nameStop pattern.toList) := by
      rw [afterLast, String.toList_ofList, nameStop_eq found]
    have ends := ends_iff (String.ofList (nameStart pattern.toList))
      (String.ofList (nameStop pattern.toList)) name
    simp only [String.toList_ofList] at ends
    rw [if_pos star, ← ends]
    simp only [nameMatches, splitFirst, if_pos star, found, List.tail_cons, stop, beginsWith,
      endsWith, String.toList_ofList, Bool.and_eq_true, decide_eq_true_eq,
      List.isPrefixOf_iff_prefix, List.isSuffixOf_iff_suffix, nameStart, and_assoc]
  · rw [if_neg star]
    simp only [nameMatches, splitFirst, if_neg star, beq_iff_eq, ← String.toList_inj]
    exact eq_comm

/-- Names are matched as the pattern asks just when it has no letter between two stars. -/
theorem names_iff (pattern : String) :
    (∀ name, nameMatches pattern name = true ↔ InGlob pattern name) ↔ OneGap pattern := by
  have start_plain : ∀ c ∈ nameStart pattern.toList, c ≠ '*' := fun _ => no_star
  have stop_plain : ∀ c ∈ nameStop pattern.toList, c ≠ '*' := fun _ => nameStop_plain
  by_cases star : '*' ∈ pattern.toList
  · simp only [nameMatches_iff, if_pos star]
    have parts := pattern_parts pattern.toList
    constructor
    · intro same
      let ends := String.ofList (nameStart pattern.toList ++ nameStop pattern.toList)
      have matched : InGlob pattern ends := (same ends).mp ⟨[], by simp [ends]⟩
      have few := Globs.letters_le matched
      rw [letters_nameItems, ← parts, List.countP_append, List.countP_append,
        countP_plain start_plain, countP_plain stop_plain] at few
      have none_between : (starred pattern.toList).countP (· ≠ '*') = 0 := by
        simp only [ends, String.toList_ofList, List.length_append] at few
        omega
      intro c member
      simpa using List.countP_eq_zero.mp none_between c member
    · intro gap name
      have stars : starred pattern.toList = List.replicate (starred pattern.toList).length '*' :=
        List.eq_replicate_iff.mpr ⟨rfl, gap⟩
      have some_star : (starred pattern.toList).length ≠ 0 := by
        intro none_there
        rw [← parts, List.length_eq_zero_iff.mp none_there, List.nil_append] at star
        rcases List.mem_append.mp star with there | there
        · exact start_plain _ there rfl
        · exact stop_plain _ there rfl
      obtain ⟨n, more⟩ := Nat.exists_eq_succ_of_ne_zero some_star
      have items : nameItems pattern.toList = (nameStart pattern.toList).map Globs.exactly ++
          (List.replicate (n + 1) Globs.Item.many ++
            (nameStop pattern.toList).map Globs.exactly) := by
        rw [← nameItems_plain start_plain, ← nameItems_plain stop_plain]
        conv_lhs => rw [← parts, stars, more]
        simp [nameItems, nameItem]
      rw [InGlob, items, Globs.matches_ends]
  · have plain : ∀ c ∈ pattern.toList, c ≠ '*' := fun c member is_star => star (is_star ▸ member)
    constructor
    · intro _ c member
      have none_starred : pattern.toList.dropWhile (· != '*') = [] :=
        List.dropWhile_eq_nil_iff.mpr fun c among => by simpa using plain c among
      rw [starred, none_starred] at member
      cases member
    · intro _ name
      rw [nameMatches_iff, if_neg star, InGlob, nameItems_plain plain, Globs.matches_word]

section Conditions
variable {F : Type} (l : Libraries F) (searches : Map String (Search F))
  (event : Scanner.SigmaEvent)

/- The pattern names a search. -/
def Named (pattern : String) : Prop := ∃ name ∈ searches.keys, InGlob pattern name

instance (pattern : String) : Decidable (Named searches pattern) :=
  inferInstanceAs (Decidable (∃ name ∈ searches.keys, InGlob pattern name))

/- The searches the pattern names that hold. -/
def holding (pattern : String) : Finset String :=
  searches.keys.filter fun name => InGlob pattern name ∧
    (searches.lookup name).any (fun search => search.matches l event) = true

/- What a quantified condition says. -/
def AsWritten (atLeast : Option Nat) (pattern : String) : Prop :=
  Named searches pattern ∧ match atLeast with
    | none => ∀ name search, searches.lookup name = some search → InGlob pattern name →
        search.matches l event = true
    | some count => count ≤ (holding l searches event pattern).card

/- A quantified condition is read as it is written: its pattern stands for the names of a glob,
   and it holds when what is written does. -/
structure ReadsAsGlob (atLeast : Option Nat) (pattern : String) : Prop where
  names : ∀ name, nameMatches pattern name = true ↔ InGlob pattern name
  holds : evaluate l searches event (.of atLeast pattern) = true ↔
    AsWritten l searches event atLeast pattern

end Conditions

section Quantified
variable {F : Type} {l : Libraries F} {searches : Map String (Search F)}
  {event : Scanner.SigmaEvent} {pattern : String}

theorem mem_selected (names : ∀ name, nameMatches pattern name = true ↔ InGlob pattern name)
    {held : Bool} : held ∈ selected l searches event pattern ↔
      ∃ name search, searches.lookup name = some search ∧ InGlob pattern name ∧
        search.matches l event = held := by
  simp only [selected, Multiset.mem_map, Multiset.mem_filter, names, Sigma.exists,
    ← Finmap.mem_lookup_iff, Option.mem_def, and_assoc]

theorem selected_nonempty (names : ∀ name, nameMatches pattern name = true ↔ InGlob pattern name) :
    selected l searches event pattern ≠ 0 ↔ Named searches pattern := by
  rw [ne_eq, Multiset.eq_zero_iff_forall_notMem, not_forall_not]
  simp only [mem_selected names, Named, Finmap.mem_keys, mem_iff_lookup]
  constructor
  · rintro ⟨_, name, search, there, selects, _⟩
    exact ⟨name, ⟨search, there⟩, selects⟩
  · rintro ⟨name, ⟨search, there⟩, selects⟩
    exact ⟨_, name, search, there, selects, rfl⟩

theorem count_selected (names : ∀ name, nameMatches pattern name = true ↔ InGlob pattern name) :
    (selected l searches event pattern).count true = (holding l searches event pattern).card := by
  have entries : (holding l searches event pattern).val =
      (searches.entries.filter fun entry => InGlob pattern entry.1 ∧
        entry.2.matches l event = true).map Sigma.fst := by
    have keys : searches.keys.val = searches.entries.map Sigma.fst := rfl
    rw [holding, Finset.filter_val, keys, Multiset.filter_map]
    congr 1
    refine Multiset.filter_congr fun entry member => ?_
    have there : searches.lookup entry.1 = some entry.2 := Finmap.mem_lookup_iff.mpr member
    simp [there]
  rw [Finset.card, entries, Multiset.card_map, selected, Multiset.count_map, Multiset.filter_filter]
  congr 1
  refine Multiset.filter_congr fun entry _ => ?_
  rw [names, and_comm, eq_comm]

end Quantified

/-- A quantified condition is read as it is written just when its pattern has no letter between
    two stars, and when it names a search or asks for more than none of them. -/
theorem quantified_iff {F : Type} (l : Libraries F) (searches : Map String (Search F))
    (event : Scanner.SigmaEvent) (atLeast : Option Nat) (pattern : String) :
    ReadsAsGlob l searches event atLeast pattern ↔
      OneGap pattern ∧ (atLeast = some 0 → Named searches pattern) := by
  have agrees (names : ∀ name, nameMatches pattern name = true ↔ InGlob pattern name) :
      (evaluate l searches event (.of atLeast pattern) = true ↔
        AsWritten l searches event atLeast pattern) ↔
          (atLeast = some 0 → Named searches pattern) := by
    cases atLeast with
    | none =>
      simp only [evaluate, quantified, AsWritten, Bool.and_eq_true, decide_eq_true_eq,
        selected_nonempty names, reduceCtorEq, false_implies, iff_true]
      refine and_congr_right fun _ => ?_
      constructor
      · intro all name search there selects
        exact all _ ((mem_selected names).mpr ⟨name, search, there, selects, rfl⟩)
      · intro all held member
        obtain ⟨name, search, there, selects, rfl⟩ := (mem_selected names).mp member
        exact all name search there selects
    | some count =>
      simp only [evaluate, quantified, AsWritten, decide_eq_true_eq, count_selected names,
        Option.some.injEq]
      constructor
      · rintro same rfl
        exact (same.mp (Nat.zero_le _)).1
      · intro named
        refine ⟨fun enough => ⟨?_, enough⟩, And.right⟩
        by_cases none_asked : count = 0
        · exact named none_asked
        · have some_held : 0 < (holding l searches event pattern).card := by omega
          obtain ⟨name, held⟩ := Finset.card_pos.mp some_held
          obtain ⟨there, selects, _⟩ := Finset.mem_filter.mp held
          exact ⟨name, there, selects⟩
  constructor
  · rintro ⟨names, holds⟩
    exact ⟨(names_iff pattern).mp names, (agrees names).mp holds⟩
  · rintro ⟨gap, named⟩
    have names := (names_iff pattern).mpr gap
    exact ⟨names, (agrees names).mpr named⟩

section Middle

/- The libraries do nothing here: no value of the search needs them. -/
def idle : Libraries Nat where
  regex _ _ := .ok fun _ => true
  escape := id
  parseF64 _ := none
  lt _ _ := false
  le _ _ := false
  parseAddress _ := none

/- A search that holds of every event, and whose name lacks the middle of the pattern. -/
def optionalFilter : Map String (Search Nat) :=
  (∅ : Map String (Search Nat)).insert "filter_optional" (.fields [[]])

/-- A pattern with letters between its stars selects a search that is not of its form: the
    condition holds, though it names no search. -/
theorem middle_of_pattern_ignored :
    ¬ ReadsAsGlob idle optionalFilter ∅ (some 1) "filter_*_main_*" ∧
      evaluate idle optionalFilter ∅ (.of (some 1) "filter_*_main_*") = true ∧
      ¬ Named optionalFilter "filter_*_main_*" := by
  refine ⟨?_, by decide, by decide⟩
  intro read
  exact absurd ((names_iff _).mp read.names) (by decide)

end Middle

end SentinelAgent.Sigma
