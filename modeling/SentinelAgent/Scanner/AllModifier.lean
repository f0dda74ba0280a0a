import SentinelAgent.Scanner.SigmaValues

/-!
What `all` asks for. A condition lists values, and a value stands for the variants it becomes.
-/
namespace SentinelAgent.Sigma
open Maps Scanner

section Groups

variable {A : Type}

/- Every value, or one of them, by one of its variants at least. -/
def overValues (all : Bool) (groups : List (List A)) (holds : A → Bool) : Bool :=
  if all then groups.all fun group => group.any holds else groups.any fun group => group.any holds

/- No value holds by some of its variants only while all values hold, and none is without
   variants while all there are hold. -/
structure Undivided (groups : List (List A)) (holds : A → Bool) : Prop where
  whole : (∀ group ∈ groups, ∃ m ∈ group, holds m = true) →
    ∀ group ∈ groups, ∀ m ∈ group, holds m = true
  filled : (∀ group ∈ groups, ∀ m ∈ group, holds m = true) → ∀ group ∈ groups, group ≠ []

theorem undivided_of_single {groups : List (List A)} (holds : A → Bool)
    (single : ∀ group ∈ groups, group.length = 1) : Undivided groups holds where
  whole some_holds group listed m among := by
    obtain ⟨only, rfl⟩ := List.length_eq_one_iff.mp (single group listed)
    obtain ⟨n, there, held⟩ := some_holds [only] listed
    rw [List.mem_singleton] at there among
    rw [among, ← there]
    exact held
  filled _ group listed := by
    rintro rfl
    cases single [] listed

theorem overValues_any (groups : List (List A)) (holds : A → Bool) :
    groups.flatten.any holds = overValues false groups holds := by
  rw [List.any_flatten]
  rfl

theorem overValues_all_iff (groups : List (List A)) (holds : A → Bool) :
    groups.flatten.all holds = overValues true groups holds ↔ Undivided groups holds := by
  have every : groups.flatten.all holds = true ↔
      ∀ group ∈ groups, ∀ m ∈ group, holds m = true := by
    simp only [List.all_flatten, List.all_eq_true]
  have each : overValues true groups holds = true ↔
      ∀ group ∈ groups, ∃ m ∈ group, holds m = true := by
    simp only [overValues, if_true, List.all_eq_true, List.any_eq_true]
  rw [Bool.eq_iff_iff, every, each]
  constructor
  · intro same
    refine ⟨same.mpr, ?_⟩
    rintro all_hold group listed rfl
    obtain ⟨m, among, _⟩ := same.mp all_hold [] listed
    cases among
  · intro undivided
    refine ⟨fun all_hold group listed => ?_, undivided.whole⟩
    obtain ⟨m, among⟩ := List.exists_mem_of_ne_nil group (undivided.filled all_hold group listed)
    exact ⟨m, among, all_hold group listed m among⟩

theorem mem_mapM {B E : Type} {make : A → Except E B} {values : List A} {made : List B}
    (all_made : values.mapM make = .ok made) {b : B} (among : b ∈ made) :
    ∃ a ∈ values, make a = .ok b := by
  induction values generalizing made with
  | nil =>
    rw [List.mapM_nil] at all_made
    rw [← Except.ok.inj all_made] at among
    cases among
  | cons a values ih =>
    rw [List.mapM_cons] at all_made
    cases first : make a with
    | error e => simp [first, bind, Except.bind] at all_made
    | ok made_first =>
      cases rest : values.mapM make with
      | error e => simp [first, rest, bind, Except.bind] at all_made
      | ok others =>
        rw [first, rest] at all_made
        rw [← Except.ok.inj all_made] at among
        rcases List.mem_cons.mp among with rfl | later
        · exact ⟨a, List.mem_cons_self, first⟩
        · obtain ⟨other, listed, found⟩ := ih rest later
          exact ⟨other, List.mem_cons_of_mem a listed, found⟩

end Groups

section Conditions

variable {F : Type} (l : Libraries F)

/-- What a condition that is read consists of. -/
theorem fieldMatch_cases {key : String} {value : Yaml} {fm : FieldMatch F}
    (read : fieldMatch l key value = .ok fm) (counted : fm.exists' = none) :
    ∃ modifiers groups, Modifiers.parse (modifierNames key) = .ok modifiers ∧
      matchersByValue l key modifiers value = .ok groups ∧
      fm = { field := fieldName key, matchers := groups.flatten, all := modifiers.all
             exists' := none } := by
  unfold fieldMatch at read
  split at read
  · simp only [reduceCtorEq] at read
  cases names : Modifiers.parse (modifierNames key) with
  | error e =>
    rw [names] at read
    cases read
  | ok modifiers =>
    rw [names] at read
    dsimp only at read
    split at read
    · split at read
      · rw [← Except.ok.inj read] at counted
        simp only [reduceCtorEq] at counted
      · simp only [reduceCtorEq] at read
    split at read
    · simp only [reduceCtorEq] at read
    cases values : matchersByValue l key modifiers value with
    | error e =>
      rw [values] at read
      cases read
    | ok groups =>
      rw [values] at read
      exact ⟨modifiers, groups, rfl, values, (Except.ok.inj read).symm⟩

theorem length_compile {modifiers : Modifiers} {text : String} {matchers : List (Matcher F)}
    (one : (variantsOf modifiers text).length = 1)
    (compiled : stringMatchers l text modifiers = .ok matchers) : matchers.length = 1 := by
  unfold stringMatchers at compiled
  split at compiled
  · cases found : compile l text true with
    | error e =>
      rw [found] at compiled
      cases compiled
    | ok m =>
      rw [found] at compiled
      rw [← Except.ok.inj compiled]
      rfl
  · obtain ⟨variant, only⟩ := List.length_eq_one_iff.mp one
    rw [only, List.mapM_cons, List.mapM_nil] at compiled
    cases found : compile l (anchored modifiers.anchor
        (if modifiers.base64 || modifiers.base64Offset then l.escape variant
          else globToRegex l variant.toList))
        (modifiers.cased || modifiers.base64 || modifiers.base64Offset) with
    | error e =>
      rw [found] at compiled
      cases compiled
    | ok m =>
      rw [found] at compiled
      rw [← Except.ok.inj compiled]
      rfl

theorem length_variantsOf {modifiers : Modifiers} (text : String)
    (plain : modifiers.windash = false) (aligned : modifiers.base64Offset = false) :
    (variantsOf modifiers text).length = 1 := by
  simp only [variantsOf, plain, aligned, Bool.false_eq_true, if_false]
  split
  · rw [List.flatMap_singleton, encodedVariants, aligned, if_neg Bool.false_ne_true]
    split <;> rfl
  · rfl

/-- Only `windash` and `base64offset` make more of a value than one variant, or less. -/
theorem length_valueMatchers {key : String} {modifiers : Modifiers} {value : Yaml}
    {matchers : List (Matcher F)} (plain : modifiers.windash = false)
    (aligned : modifiers.base64Offset = false)
    (compiled : valueMatchers l key modifiers value = .ok matchers) : matchers.length = 1 := by
  unfold valueMatchers at compiled
  split at compiled
  · rw [← Except.ok.inj compiled]
    rfl
  · split at compiled
    · cases compiled
    rename_i text _
    split at compiled
    · split at compiled <;> cases compiled
      rfl
    split at compiled
    · cases compiled
      rfl
    split at compiled
    · split at compiled <;> cases compiled
      rfl
    split at compiled
    · rename_i made
      rw [← Except.ok.inj compiled]
      exact length_compile l (length_variantsOf text plain aligned) made
    · cases compiled

/-- With `all` a condition asks for every variant of every value. That is one variant of each
    value where no value is divided by the text, as where no value has several. -/
theorem all_over_values {key : String} {value : Yaml} {fm : FieldMatch F}
    (read : fieldMatch l key value = .ok fm) (counted : fm.exists' = none) :
    ∃ modifiers groups, Modifiers.parse (modifierNames key) = .ok modifiers ∧
      matchersByValue l key modifiers value = .ok groups ∧
      ∀ event : SigmaEvent,
        (fm.matches l event = overValues modifiers.all groups
            (fun m => m.matches l (event.lookup fm.field) event) ↔
          (modifiers.all = true →
            Undivided groups (fun m => m.matches l (event.lookup fm.field) event))) ∧
        (modifiers.windash = false → modifiers.base64Offset = false →
          fm.matches l event = overValues modifiers.all groups
            (fun m => m.matches l (event.lookup fm.field) event)) := by
  obtain ⟨modifiers, groups, names, values, rfl⟩ := fieldMatch_cases l read counted
  have exact_when : ∀ event : SigmaEvent,
      (FieldMatch.matches l { field := fieldName key, matchers := groups.flatten
                              all := modifiers.all, exists' := none } event =
        overValues modifiers.all groups
          (fun m => m.matches l (event.lookup (fieldName key)) event) ↔
      (modifiers.all = true →
        Undivided groups (fun m => m.matches l (event.lookup (fieldName key)) event))) := by
    intro event
    unfold FieldMatch.matches
    dsimp only
    cases asked : modifiers.all with
    | false =>
      simp only [Bool.false_eq_true, if_false, false_implies, iff_true]
      exact overValues_any groups _
    | true =>
      simp only [if_true, true_implies]
      exact overValues_all_iff groups _
  refine ⟨modifiers, groups, names, values, fun event => ⟨exact_when event, ?_⟩⟩
  intro plain aligned
  refine (exact_when event).mpr fun _ => undivided_of_single _ fun group listed => ?_
  obtain ⟨item, _, compiled⟩ := mem_mapM values listed
  exact length_valueMatchers l plain aligned compiled

end Conditions

/- Regular expressions of plain characters. -/
def plainLibraries : Libraries Nat where
  regex pattern cased :=
    let fold (text : String) := if cased then text else Text.toAsciiLowercase text
    .ok fun text => Text.contains (fold text)
      (fold (String.ofList (pattern.toList.filter fun c => c != '\\')))
  escape text := if text = "-" then "\\-" else text
  parseF64 _ := none
  lt a b := decide (a < b)
  le a b := decide (a ≤ b)
  parseAddress _ := none

def encodedAndHidden : Yaml := .array [.string " -enc", .string " -nop"]

def encodedHidden : SigmaEvent := Finmap.insert "commandline" "pwsh -enc SQBFAFgA -nop" ∅

/- The values `-enc` and `-nop`, each with any of the dashes. -/
def flagsKey : String := "CommandLine|contains|all|windash"

def plainFlagsKey : String := "CommandLine|contains|all"

theorem all_over_values_plain :
    ∃ fm, fieldMatch plainLibraries plainFlagsKey encodedAndHidden = .ok fm ∧
      ∃ modifiers groups, Modifiers.parse (modifierNames plainFlagsKey) = .ok modifiers ∧
        matchersByValue plainLibraries plainFlagsKey modifiers encodedAndHidden = .ok groups ∧
        fm.matches plainLibraries encodedHidden = overValues modifiers.all groups
          (fun m => m.matches plainLibraries (encodedHidden.lookup fm.field) encodedHidden) := by
  cases read : fieldMatch plainLibraries plainFlagsKey encodedAndHidden with
  | error e =>
    have reads : (fieldMatch plainLibraries plainFlagsKey encodedAndHidden).isOk = true := by
      decide
    rw [read] at reads
    cases reads
  | ok fm =>
    have counted : (fieldMatch plainLibraries plainFlagsKey encodedAndHidden).map
        (fun fm => fm.exists') = .ok none := by decide
    rw [read] at counted
    obtain ⟨modifiers, groups, names, values, both⟩ :=
      all_over_values plainLibraries read (Except.ok.inj counted)
    have parsed : (Modifiers.parse (modifierNames plainFlagsKey)).map
        (fun m => (m.windash, m.base64Offset)) = .ok (false, false) := by decide
    rw [names] at parsed
    obtain ⟨plain, aligned⟩ := Prod.mk.inj (Except.ok.inj parsed)
    exact ⟨fm, rfl, modifiers, groups, names, values, (both encodedHidden).2 plain aligned⟩

/-- Both flags are on the command line, each with its own dash. -/
theorem not_over_values :
    ¬ ∀ fm modifiers groups, fieldMatch plainLibraries flagsKey encodedAndHidden = .ok fm →
      Modifiers.parse (modifierNames flagsKey) = .ok modifiers →
      matchersByValue plainLibraries flagsKey modifiers encodedAndHidden = .ok groups →
      fm.matches plainLibraries encodedHidden = overValues modifiers.all groups
        (fun m => m.matches plainLibraries (encodedHidden.lookup fm.field) encodedHidden) := by
  intro claimed
  have silent : (fieldMatch plainLibraries flagsKey encodedAndHidden).map
      (fun fm => (fm.field, fm.matches plainLibraries encodedHidden)) =
        .ok ("commandline", false) := by decide
  have asked : ((Modifiers.parse (modifierNames flagsKey)).bind fun modifiers =>
      (matchersByValue plainLibraries flagsKey modifiers encodedAndHidden).map fun groups =>
        overValues modifiers.all groups fun m =>
          m.matches plainLibraries (encodedHidden.lookup "commandline") encodedHidden) =
        .ok true := by decide
  cases read : fieldMatch plainLibraries flagsKey encodedAndHidden with
  | error e =>
    rw [read] at silent
    cases silent
  | ok fm =>
    rw [read] at silent
    obtain ⟨field, quiet⟩ := Prod.mk.inj (Except.ok.inj silent)
    cases names : Modifiers.parse (modifierNames flagsKey) with
    | error e =>
      rw [names] at asked
      cases asked
    | ok modifiers =>
      rw [names] at asked
      cases values : matchersByValue plainLibraries flagsKey modifiers encodedAndHidden with
      | error e =>
        simp only [Except.bind, values] at asked
        cases asked
      | ok groups =>
        simp only [Except.bind, values] at asked
        have same := claimed fm modifiers groups read names values
        rw [quiet, field] at same
        exact absurd (same.trans (Except.ok.inj asked)) Bool.false_ne_true

end SentinelAgent.Sigma
