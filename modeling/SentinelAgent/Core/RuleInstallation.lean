import SentinelAgent.Core.DefaultRules

/- What an installation of the shipped rules does to each rule. -/
namespace SentinelAgent.DefaultRules
open Maps

variable (codec : Codec)

/-! An installation, rule by rule. -/

def isNew (existing : Map String DetectionRule) (installed : Map String String)
    (shipped : DetectionRule) : Bool :=
  (existing.lookup shipped.id).isNone && (installed.lookup shipped.id).isNone

def isSame (existing : Map String DetectionRule) (shipped : DetectionRule) : Bool :=
  (existing.lookup shipped.id).any fun current =>
    decide (definition codec current = definition codec shipped)

def improvement (existing : Map String DetectionRule) (installed : Map String String)
    (shipped : DetectionRule) : Option DetectionRule :=
  (existing.lookup shipped.id).bind fun current =>
    if definition codec current = definition codec shipped then none
    else if installed.lookup shipped.id = some (definition codec current) then
      some (updated current shipped)
    else none

/- Whether the shipped definition is remembered. -/
def isRemembered (existing : Map String DetectionRule) (installed : Map String String)
    (shipped : DetectionRule) : Bool :=
  isNew existing installed shipped || isSame codec existing shipped ||
    (improvement codec existing installed shipped).isSome

theorem planRule_eq (existing : Map String DetectionRule) (installed : Map String String)
    (plan : InstallPlan) (shipped : DetectionRule) :
    planRule codec existing installed plan shipped =
      ⟨plan.insert ++ [shipped].filter (isNew existing installed),
        plan.update ++ [shipped].filterMap (improvement codec existing installed),
        insertAll DetectionRule.id (definition codec)
          ([shipped].filter (isRemembered codec existing installed)) plan.installed⟩ := by
  unfold planRule isRemembered isNew isSame improvement
  cases found : existing.lookup shipped.id with
  | none =>
    cases known : installed.lookup shipped.id with
    | none => simp [insertAll, found, known]
    | some text => simp [insertAll, found, known]
  | some current =>
    by_cases same : definition codec current = definition codec shipped
    · simp [insertAll, found, same]
    · by_cases left : installed.lookup shipped.id = some (definition codec current)
      · simp [insertAll, found, same, left]
      · simp [insertAll, found, same, left]

theorem plan_eq (existing : Map String DetectionRule) (installed : Map String String)
    (catalog : List DetectionRule) (plan : InstallPlan) :
    catalog.foldl (planRule codec existing installed) plan =
      ⟨plan.insert ++ catalog.filter (isNew existing installed),
        plan.update ++ catalog.filterMap (improvement codec existing installed),
        insertAll DetectionRule.id (definition codec)
          (catalog.filter (isRemembered codec existing installed)) plan.installed⟩ := by
  induction catalog generalizing plan with
  | nil => simp [insertAll]
  | cons shipped catalog ih =>
    rw [List.foldl_cons, ih, planRule_eq]
    simp only [insertAll, ← List.foldl_append, List.append_assoc, ← List.filter_append,
      ← List.filterMap_append, List.singleton_append]

/- What an installation does to a shipped rule: what is on the endpoint and what is remembered,
   before and after. -/
inductive RuleInstalled (now : Int) (shipped : DetectionRule) :
    Option StoredDetectionRule → Option String → Option StoredDetectionRule → Option String → Prop
  | deleted (known : String) : RuleInstalled now shipped none (some known) none (some known)
  | new : RuleInstalled now shipped none none
      (some (ruleToStored codec shipped false)) (some (definition codec shipped))
  | same (row : StoredDetectionRule) (known : Option String)
      (same : definition codec (storedRuleToDto codec now row) = definition codec shipped) :
      RuleInstalled now shipped (some row) known (some row) (some (definition codec shipped))
  | improved (row : StoredDetectionRule)
      (different : definition codec (storedRuleToDto codec now row) ≠ definition codec shipped) :
      RuleInstalled now shipped (some row)
        (some (definition codec (storedRuleToDto codec now row)))
        (some (ruleToStored codec (updated (storedRuleToDto codec now row) shipped) false))
        (some (definition codec shipped))
  | edited (row : StoredDetectionRule) (known : Option String)
      (different : definition codec (storedRuleToDto codec now row) ≠ definition codec shipped)
      (changed : known ≠ some (definition codec (storedRuleToDto codec now row))) :
      RuleInstalled now shipped (some row) known (some row) known

/- What is remembered of a rule when an installation starts. -/
def rememberedAt (restoreDeleted : Bool) (e : Endpoint) (id : String) : Option String :=
  if restoreDeleted then (e.installed.lookup id).filter fun _ => (e.rules.lookup id).isSome
  else e.installed.lookup id

/- The shipped rules are told apart by their ids. -/
def Distinct (catalog : List Entry) : Prop := (catalog.map Entry.slug).Nodup

instance (catalog : List Entry) : Decidable (Distinct catalog) :=
  inferInstanceAs (Decidable (catalog.map Entry.slug).Nodup)

theorem slug_of_id {now : Int} {a b : Entry} (same : (defaultRule now a).id = (defaultRule now b).id) :
    a.slug = b.slug := by
  have texts := congrArg String.toList same
  simp only [defaultRule, String.toList_append, List.append_cancel_left_eq] at texts
  exact String.toList_inj.mp texts

theorem entry_unique {now : Int} {catalog : List Entry} (distinct : Distinct catalog) {a b : Entry}
    (first : a ∈ catalog) (second : b ∈ catalog)
    (same : (defaultRule now a).id = (defaultRule now b).id) : a = b :=
  List.inj_on_of_nodup_map distinct first second (slug_of_id same)

theorem existing_lookup (now : Int) (rules : Map String StoredDetectionRule) (id : String) :
    (storedRulesToDto codec now rules).lookup id =
      (rules.lookup id).map (storedRuleToDto codec now) :=
  lookup_adjust _ rules id

/- What an installation starts from. -/
def known (now : Int) (restoreDeleted : Bool) (e : Endpoint) : Map String String :=
  if restoreDeleted then forgetDeleted e.installed (storedRulesToDto codec now e.rules)
  else e.installed

theorem known_lookup (now : Int) (restoreDeleted : Bool) (e : Endpoint) (id : String) :
    (known codec now restoreDeleted e).lookup id = rememberedAt restoreDeleted e id := by
  unfold known rememberedAt
  cases restoreDeleted with
  | false => rfl
  | true =>
    simp only [if_true, forgetDeleted, lookup_retain, existing_lookup, Option.isSome_map]

theorem improvement_id {existing : Map String DetectionRule} {installed : Map String String}
    {shipped rule : DetectionRule}
    (improved : improvement codec existing installed shipped = some rule) :
    rule.id = shipped.id := by
  unfold improvement at improved
  obtain ⟨current, _, chosen⟩ := Option.bind_eq_some_iff.mp improved
  split at chosen
  · cases chosen
  · split at chosen
    · cases chosen
      rfl
    · cases chosen

/- The rules an installation writes. -/
def changed (existing : Map String DetectionRule) (installed : Map String String)
    (catalog : List DetectionRule) : List DetectionRule :=
  catalog.filter (isNew existing installed) ++
    catalog.filterMap (improvement codec existing installed)

theorem install_eq {now : Int} {catalog : List Entry} {restoreDeleted : Bool} {e e' : Endpoint}
    {n : Nat} (result : installDefaultRules codec now catalog restoreDeleted e = some (e', n)) :
    let existing := storedRulesToDto codec now e.rules
    let installed := known codec now restoreDeleted e
    let written := changed codec existing installed (defaultRules catalog now)
    e'.rules = insertAll DetectionRule.id (fun rule => ruleToStored codec rule false) written
        e.rules ∧
      e'.installed = insertAll DetectionRule.id (definition codec)
        ((defaultRules catalog now).filter (isRemembered codec existing installed)) installed ∧
      n = written.length := by
  unfold installDefaultRules at result
  split at result
  · cases result
  · simp only [planInstall, plan_eq, List.nil_append, Option.some.injEq, Prod.mk.injEq] at result
    obtain ⟨rfl, rfl⟩ := result
    exact ⟨rfl, rfl, rfl⟩

/-- A rule that is written under an id is the shipped one with that id, or the improvement of
    the rule there. -/
theorem changed_id (now : Int) {catalog : List Entry} (distinct : Distinct catalog) {entry : Entry}
    (member : entry ∈ catalog) (existing : Map String DetectionRule)
    (installed : Map String String) (rule : DetectionRule)
    (written : rule ∈ changed codec existing installed (defaultRules catalog now))
    (same : rule.id = (defaultRule now entry).id) :
    (rule = defaultRule now entry ∧ isNew existing installed (defaultRule now entry) = true) ∨
      improvement codec existing installed (defaultRule now entry) = some rule := by
  cases List.mem_append.mp written with
  | inl new =>
    obtain ⟨listed, isNew⟩ := List.mem_filter.mp new
    obtain ⟨other, otherMember, rfl⟩ := List.mem_map.mp listed
    cases entry_unique distinct otherMember member same
    exact Or.inl ⟨rfl, isNew⟩
  | inr improved =>
    obtain ⟨shipped, listed, improves⟩ := List.mem_filterMap.mp improved
    obtain ⟨other, otherMember, rfl⟩ := List.mem_map.mp listed
    cases entry_unique distinct otherMember member ((improvement_id codec improves).symm.trans same)
    exact Or.inr improves

theorem remembered_lookup {now : Int} {catalog : List Entry} (distinct : Distinct catalog)
    {entry : Entry} (member : entry ∈ catalog) (existing : Map String DetectionRule)
    (installed : Map String String) :
    (insertAll DetectionRule.id (definition codec)
        ((defaultRules catalog now).filter (isRemembered codec existing installed))
        installed).lookup (defaultRule now entry).id =
      if isRemembered codec existing installed (defaultRule now entry) then
        some (definition codec (defaultRule now entry))
      else installed.lookup (defaultRule now entry).id := by
  have only : ∀ rule ∈ (defaultRules catalog now).filter (isRemembered codec existing installed),
      rule.id = (defaultRule now entry).id → rule = defaultRule now entry ∧
        isRemembered codec existing installed (defaultRule now entry) = true := by
    intro rule kept same
    obtain ⟨listed, remembered⟩ := List.mem_filter.mp kept
    obtain ⟨other, otherMember, rfl⟩ := List.mem_map.mp listed
    cases entry_unique distinct otherMember member same
    exact ⟨rfl, remembered⟩
  split
  · have kept : defaultRule now entry ∈
        (defaultRules catalog now).filter (isRemembered codec existing installed) :=
      List.mem_filter.mpr ⟨List.mem_map_of_mem member, ‹_›⟩
    refine lookup_insertAll_some ⟨_, kept, rfl⟩ ?_ installed
    intro rule other same
    rw [(only rule other same).1]
  · apply lookup_insertAll_none
    intro rule kept same
    exact absurd (only rule kept same).2 ‹_›

theorem written_lookup {now : Int} {catalog : List Entry} (distinct : Distinct catalog)
    {entry : Entry} (member : entry ∈ catalog) (existing : Map String DetectionRule)
    (installed : Map String String) (rules : Map String StoredDetectionRule) :
    (insertAll DetectionRule.id (fun rule => ruleToStored codec rule false)
        (changed codec existing installed (defaultRules catalog now)) rules).lookup
          (defaultRule now entry).id =
      if isNew existing installed (defaultRule now entry) then
        some (ruleToStored codec (defaultRule now entry) false)
      else
        match improvement codec existing installed (defaultRule now entry) with
        | some rule => some (ruleToStored codec rule false)
        | none => rules.lookup (defaultRule now entry).id := by
  have listed : defaultRule now entry ∈ defaultRules catalog now := List.mem_map_of_mem member
  have only := changed_id codec now distinct member existing installed
  by_cases new : isNew existing installed (defaultRule now entry) = true
  · rw [if_pos new]
    have unimproved : improvement codec existing installed (defaultRule now entry) = none := by
      obtain ⟨absent, _⟩ := Bool.and_eq_true_iff.mp new
      rw [improvement, Option.isNone_iff_eq_none.mp absent, Option.bind_none]
    refine lookup_insertAll_some ⟨_, List.mem_append_left _ (List.mem_filter.mpr ⟨listed, new⟩),
      rfl⟩ ?_ rules
    intro rule written same
    cases only rule written same with
    | inl shipped => rw [shipped.1]
    | inr improved => simp [unimproved] at improved
  · rw [if_neg new]
    cases improved : improvement codec existing installed (defaultRule now entry) with
    | none =>
      apply lookup_insertAll_none
      intro rule written same
      cases only rule written same with
      | inl shipped => exact new shipped.2
      | inr improves => simp [improved] at improves
    | some rule =>
      refine lookup_insertAll_some ⟨rule, List.mem_append_right _
        (List.mem_filterMap.mpr ⟨_, listed, improved⟩), improvement_id codec improved⟩ ?_ rules
      intro other written same
      cases only other written same with
      | inl shipped => exact absurd shipped.2 new
      | inr improves => rw [Option.some.inj (improves.symm.trans improved)]

/-- The spec of an installation for the rules of the catalogue. -/
theorem install_rule {now : Int} {catalog : List Entry} (distinct : Distinct catalog)
    {restoreDeleted : Bool} {e e' : Endpoint} {n : Nat}
    (result : installDefaultRules codec now catalog restoreDeleted e = some (e', n))
    {entry : Entry} (member : entry ∈ catalog) :
    RuleInstalled codec now (defaultRule now entry) (e.rules.lookup (defaultRule now entry).id)
      (rememberedAt restoreDeleted e (defaultRule now entry).id)
      (e'.rules.lookup (defaultRule now entry).id)
      (e'.installed.lookup (defaultRule now entry).id) := by
  obtain ⟨rules, installed, _⟩ := install_eq codec result
  rw [rules, installed, written_lookup codec distinct member, remembered_lookup codec distinct member,
    ← known_lookup codec now]
  have found := existing_lookup codec now e.rules (defaultRule now entry).id
  generalize known codec now restoreDeleted e = installed
  generalize storedRulesToDto codec now e.rules = existing at found ⊢
  simp only [isRemembered, isNew, isSame, improvement, found]
  cases e.rules.lookup (defaultRule now entry).id with
  | none =>
    cases installed.lookup (defaultRule now entry).id with
    | none => exact .new
    | some text => exact .deleted text
  | some row =>
    by_cases same : definition codec (storedRuleToDto codec now row) =
        definition codec (defaultRule now entry)
    · simpa [same] using RuleInstalled.same row _ same
    · by_cases left : installed.lookup (defaultRule now entry).id =
          some (definition codec (storedRuleToDto codec now row))
      · simpa [same, left] using RuleInstalled.improved row same
      · simpa [same, left] using RuleInstalled.edited row _ same left

/-- The spec of an installation for all other rules. -/
theorem install_other {now : Int} {catalog : List Entry} {restoreDeleted : Bool} {e e' : Endpoint}
    {n : Nat} (result : installDefaultRules codec now catalog restoreDeleted e = some (e', n))
    {id : String} (other : ∀ entry ∈ catalog, (defaultRule now entry).id ≠ id) :
    e'.rules.lookup id = e.rules.lookup id ∧
      e'.installed.lookup id = rememberedAt restoreDeleted e id := by
  obtain ⟨rules, installed, _⟩ := install_eq codec result
  rw [rules, installed, ← known_lookup codec now]
  constructor
  · apply lookup_insertAll_none
    intro rule written same
    cases List.mem_append.mp written with
    | inl new =>
      obtain ⟨entry, member, rfl⟩ := List.mem_map.mp (List.mem_of_mem_filter new)
      exact other entry member same
    | inr improved =>
      obtain ⟨shipped, listed, improves⟩ := List.mem_filterMap.mp improved
      obtain ⟨entry, member, rfl⟩ := List.mem_map.mp listed
      exact other entry member ((improvement_id codec improves).symm.trans same)
  · apply lookup_insertAll_none
    intro rule kept same
    obtain ⟨entry, member, rfl⟩ := List.mem_map.mp (List.mem_of_mem_filter kept)
    exact other entry member same

end SentinelAgent.DefaultRules
