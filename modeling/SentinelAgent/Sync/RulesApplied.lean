import SentinelAgent.Library.Runs
import SentinelAgent.Sync.RuleSync

/-!
Whether the table of check rules is what the platform last answered: over starts of the agent,
which seed the built-in rules, and synchronisations, answered or not.
-/
namespace SentinelAgent.RuleSync
open Maps Runs

variable (timeText : Int → String) (listOf : String → List ApiCheckRule)

inductive Action where
  | start (clock : Nat → Int) (checks : List CheckDefinition)
  | sync (now : Int) (answer : Answer) (again : Except String Unit)
  | force (now : Int) (answer : Answer)

/- What is stored, and the rules of the lists the platform has answered with so far. -/
structure History where
  store : RuleStore
  earlier : Finset String

def History.start : History := ⟨⟨∅, none, none⟩, ∅⟩

def ids (rules : List ApiCheckRule) : Finset String := (rules.map ApiCheckRule.id).toFinset

/- Synchronised, and not from what was stored before because of a failure. -/
def synced : Except String RuleSyncResult → Bool
  | .ok result => result.warnings.isEmpty
  | .error _ => false

def afterSync (h : History) (answer : Answer) (made : RuleStore × Except String RuleSyncResult) :
    History :=
  match answer with
  | .ok current =>
    ⟨made.1, if synced made.2 then h.earlier ∪ ids (current.rules listOf) else h.earlier⟩
  | .error _ => ⟨made.1, h.earlier⟩

def historyStep (h : History) : Action → History
  | .start clock checks => { h with store := seedBuiltinCheckRules timeText clock checks h.store }
  | .sync now answer again =>
    afterSync listOf h answer (syncRules timeText listOf now answer again h.store)
  | .force now answer => afterSync listOf h answer (forceSync timeText listOf now answer h.store)

/- The rules of a list are stored as it has them, and no other rule of an earlier list is on. -/
structure Holds (store : RuleStore) (earlier : Finset String) (rules : List ApiCheckRule) :
    Prop where
  stored : ∀ rule ∈ rules, store.rules.lookup rule.id = some ((CheckRule.from rule).row timeText)
  dropped : ∀ id ∈ earlier, id ∉ ids rules → ∀ row, store.rules.lookup id = some row →
    row.enabled = false

def Applied (h : History) (answer : Answer) (made : RuleStore × Except String RuleSyncResult) :
    Prop :=
  ∀ current, answer = .ok current → synced made.2 = true →
    Holds timeText made.1 h.earlier (current.rules listOf)

def Good (h : History) : Action → Prop
  | .start _ _ => True
  | .sync now answer again =>
    Applied timeText listOf h answer (syncRules timeText listOf now answer again h.store)
  | .force now answer => Applied timeText listOf h answer (forceSync timeText listOf now answer h.store)

/- A list that can be stored over what there is: it does not name one rule twice in two ways, it
   leaves out no rule that is on, and it has a tag of its own, unless no tag or its own is stored. -/
structure ClearList (h : History) (newTag : Option String) (rules : List ApiCheckRule) : Prop where
  named : ∀ a ∈ rules, ∀ b ∈ rules, a.id = b.id →
    (CheckRule.from a).row timeText = (CheckRule.from b).row timeText
  dropped : ∀ id ∈ h.earlier, id ∉ ids rules → ∀ row, h.store.rules.lookup id = some row →
    row.enabled = false
  tag : newTag = none → ∀ t, h.store.etag = some t → rules = listOf t

def builtinRules (clock : Nat → Int) (checks : List CheckDefinition) : List CheckRule :=
  checks.zipIdx.map fun check => builtinRule (clock check.2) check.1

def Clear (h : History) : Action → Prop
  | .start clock checks => h.store.etag.isSome → ∀ rule ∈ builtinRules clock checks,
    rule.id ∈ h.earlier → h.store.rules.lookup rule.id = some (rule.row timeText)
  | .sync _ (.ok current) _ => (h.store.etag.isSome ∧ h.store.etag = current.tag) ∨
    ClearList timeText listOf h (current.headerTag <|> current.bodyTag) (current.rules listOf)
  | .force _ (.ok current) => ClearList timeText listOf h current.bodyTag (current.rules listOf)
  | _ => True

/-! What every run keeps: the list of the stored tag is the one that is stored. -/

structure Inv (h : History) : Prop where
  holds : ∀ t, h.store.etag = some t → Holds timeText h.store h.earlier (listOf t)
  met : ∀ t, h.store.etag = some t → ∀ rule ∈ listOf t, rule.id ∈ h.earlier

theorem mem_ids {rules : List ApiCheckRule} {id : String} :
    id ∈ ids rules ↔ ∃ rule ∈ rules, rule.id = id := by
  simp [ids]

/-- A list that is clear is what the table holds once it is stored. -/
theorem upsert_holds {h : History} {newTag : Option String} {rules : List ApiCheckRule}
    (clear : ClearList timeText listOf h newTag rules) :
    Holds timeText (upsertBatch timeText (rules.map CheckRule.from) h.store)
      (h.earlier ∪ ids rules) rules := by
  constructor
  · intro rule member
    refine lookup_insertAll_some ⟨_, List.mem_map_of_mem member, rfl⟩ ?_ h.store.rules
    intro other listed same
    obtain ⟨a, aMember, rfl⟩ := List.mem_map.mp listed
    exact clear.named a aMember rule member same
  · intro id known left row found
    have untouched : (upsertBatch timeText (rules.map CheckRule.from) h.store).rules.lookup id =
        h.store.rules.lookup id := by
      apply lookup_insertAll_none
      intro other listed same
      obtain ⟨a, aMember, rfl⟩ := List.mem_map.mp listed
      exact left (mem_ids.mpr ⟨a, aMember, same⟩)
    rw [untouched] at found
    cases Finset.mem_union.mp known with
    | inl earlier => exact clear.dropped id earlier left row found
    | inr listed => exact absurd listed left

theorem holds_mono {store : RuleStore} {few many : Finset String} {rules : List ApiCheckRule}
    (holds : Holds timeText store many rules) (fewer : few ⊆ many) :
    Holds timeText store few rules :=
  ⟨holds.stored, fun id known => holds.dropped id (fewer known)⟩

theorem upsert_earlier {h : History} {newTag : Option String} {rules : List ApiCheckRule}
    (clear : ClearList timeText listOf h newTag rules) :
    Holds timeText (upsertBatch timeText (rules.map CheckRule.from) h.store) h.earlier rules :=
  holds_mono timeText (upsert_holds timeText listOf clear) Finset.subset_union_left

/- A rule that is on a list is not one that was left out of it. -/
theorem holds_union {store : RuleStore} {earlier : Finset String} {rules : List ApiCheckRule}
    (holds : Holds timeText store earlier rules) :
    Holds timeText store (earlier ∪ ids rules) rules := by
  refine ⟨holds.stored, ?_⟩
  intro id known left
  cases Finset.mem_union.mp known with
  | inl before => exact holds.dropped id before left
  | inr listed => exact absurd listed left

/-- A clear list that is stored, whatever its tag is read from. -/
theorem stored_inv {h : History} (inv : Inv timeText listOf h) {newTag : Option String}
    {rules : List ApiCheckRule} (clear : ClearList timeText listOf h newTag rules)
    (named : ∀ t, newTag = some t → rules = listOf t) (now : Int) :
    Inv timeText listOf
      ⟨updateCacheMetadata now newTag (upsertBatch timeText (rules.map CheckRule.from) h.store),
        h.earlier ∪ ids rules⟩ := by
  have holds := upsert_holds timeText listOf clear
  have same : ∀ t, (newTag <|> h.store.etag) = some t → rules = listOf t := by
    intro t tagged
    cases newTag with
    | none => exact clear.tag rfl t tagged
    | some tag => exact named t tagged
  constructor
  · intro t tagged
    rw [← same t tagged]
    exact ⟨holds.stored, holds.dropped⟩
  · intro t tagged rule member
    rw [← same t tagged] at member
    exact Finset.mem_union_right _ (mem_ids.mpr ⟨rule, member, rfl⟩)

theorem start_inv : Inv timeText listOf History.start where
  holds t tagged := by cases tagged
  met t tagged := by cases tagged

/- Seeding leaves the rows of the lists so far alone, where it is clear. -/
theorem seed_inv {h : History} (inv : Inv timeText listOf h) {clock : Nat → Int}
    {checks : List CheckDefinition} (clear : Clear timeText listOf h (.start clock checks)) :
    Inv timeText listOf (historyStep timeText listOf h (.start clock checks)) := by
  have untouched : ∀ t, h.store.etag = some t → ∀ id ∈ h.earlier,
      (seedBuiltinCheckRules timeText clock checks h.store).rules.lookup id =
        h.store.rules.lookup id := by
    intro t tagged id known
    have same := clear (by rw [tagged]; rfl)
    by_cases builtin : ∃ rule ∈ builtinRules clock checks, rule.id = id
    · obtain ⟨rule, member, rfl⟩ := builtin
      rw [same rule member known]
      refine lookup_insertAll_some ⟨rule, member, rfl⟩ ?_ h.store.rules
      intro other listed named
      have stored := same other listed (named ▸ known)
      rw [named, same rule member known] at stored
      exact (Option.some.inj stored).symm
    · exact lookup_insertAll_none (fun rule member named => builtin ⟨rule, member, named⟩) _
  constructor
  · intro t tagged
    have holds := inv.holds t tagged
    constructor
    · intro rule member
      exact (untouched t tagged rule.id (inv.met t tagged rule member)).trans
        (holds.stored rule member)
    · intro id known left row found
      exact holds.dropped id known left row ((untouched t tagged id known).symm.trans found)
  · intro t tagged
    exact inv.met t tagged

theorem size_zero_lookup {m : Map String CheckRuleRow} (empty : m.size = 0) (id : String) :
    m.lookup id = none := by
  cases found : m.lookup id with
  | none => rfl
  | some row =>
    have member : id ∈ m.keys := Finmap.mem_keys.mpr (mem_iff_lookup.mpr ⟨row, found⟩)
    rw [Finset.card_eq_zero.mp empty] at member
    cases member

/- What a synchronisation does, by the answer. -/
inductive Synchronised (now : Int) (current : PlatformList) (store : RuleStore) :
    RuleStore × Except String RuleSyncResult → Prop
  | unchanged (sent : store.etag.isSome) (same : store.etag = current.tag)
      (some_stored : store.rules.size ≠ 0) :
      Synchronised now current store
        (updateCacheMetadata now store.etag store, .ok ⟨0, true, store.etag, now, []⟩)
  | asked_again (sent : store.etag.isSome) (same : store.etag = current.tag)
      (none_stored : store.rules.size = 0) :
      Synchronised now current store
        (updateCacheMetadata now current.bodyTag
            (upsertBatch timeText ((current.rules listOf).map CheckRule.from) store),
          .ok ⟨((current.rules listOf).map CheckRule.from).length, false, current.bodyTag, now, []⟩)
  | downloaded (other : ¬ (store.etag.isSome ∧ store.etag = current.tag)) :
      Synchronised now current store
        (updateCacheMetadata now (current.headerTag <|> current.bodyTag)
            (upsertBatch timeText ((current.rules listOf).map CheckRule.from) store),
          .ok ⟨((current.rules listOf).map CheckRule.from).length, false,
            current.headerTag <|> current.bodyTag, now, []⟩)
  | failed (result : Except String RuleSyncResult) (unsynced : synced result = false) :
      Synchronised now current store (store, result)

theorem syncRules_cases (now : Int) (current : PlatformList) (again : Except String Unit)
    (store : RuleStore) :
    Synchronised timeText listOf now current store
      (syncRules timeText listOf now (.ok current) again store) := by
  unfold syncRules downloadRules getWithEtag
  by_cases same : store.etag.isSome ∧ store.etag = current.tag
  · simp only [if_pos same]
    by_cases empty : store.rules.size = 0
    · simp only [if_pos empty]
      cases again with
      | error e =>
        simp only [isCacheValid, if_pos empty, Bool.false_eq_true, if_false]
        exact .failed _ rfl
      | ok _ => exact .asked_again same.1 same.2 empty
    · simp only [if_neg empty]
      exact .unchanged same.1 same.2 empty
  · simp only [if_neg same]
    exact .downloaded same

theorem syncRules_failed (now : Int) (e : String) (again : Except String Unit)
    (store : RuleStore) : (syncRules timeText listOf now (.error e) again store).1 = store := by
  simp only [syncRules, downloadRules]
  split <;> rfl

/- The tag a list is stored under is its own. -/
theorem named_by_tag {current : PlatformList} {t : String}
    (tag : (current.headerTag <|> current.bodyTag) = some t ∨ current.bodyTag = some t ∨
      current.tag = some t) : current.rules listOf = listOf t := by
  cases current with
  | untagged rules => rcases tag with tag | tag | tag <;> cases tag
  | tagged own place =>
    have same : own = t := by
      cases place <;> simpa [PlatformList.headerTag, PlatformList.bodyTag, PlatformList.tag]
        using tag
    rw [← same]
    rfl

/-- Nothing is stored, and the stored tag is that of the list: the list is empty. -/
theorem clear_of_empty {h : History} (inv : Inv timeText listOf h) {current : PlatformList}
    (sent : h.store.etag.isSome) (same : h.store.etag = current.tag)
    (empty : h.store.rules.size = 0) (newTag : Option String) :
    ClearList timeText listOf h newTag (current.rules listOf) := by
  obtain ⟨t, tagged⟩ := Option.isSome_iff_exists.mp sent
  have list := named_by_tag listOf (Or.inr (Or.inr (same.symm.trans tagged)))
  constructor
  · intro a member
    rw [list] at member
    have stored := (inv.holds t tagged).stored a member
    rw [size_zero_lookup empty] at stored
    cases stored
  · intro id known left row found
    rw [size_zero_lookup empty] at found
    cases found
  · intro _ other otherTag
    rw [list, Option.some.inj (tagged.symm.trans otherTag)]

theorem sync_keeps {h : History} (inv : Inv timeText listOf h) {now : Int}
    {current : PlatformList} {again : Except String Unit}
    (clear : Clear timeText listOf h (.sync now (.ok current) again)) :
    Inv timeText listOf (historyStep timeText listOf h (.sync now (.ok current) again)) ∧
      Good timeText listOf h (.sync now (.ok current) again) := by
  have cases_of := syncRules_cases timeText listOf now current again h.store
  simp only [historyStep, Good, Applied, afterSync]
  generalize syncRules timeText listOf now (.ok current) again h.store = made at cases_of ⊢
  cases cases_of with
  | unchanged sent same stored =>
    obtain ⟨t, tagged⟩ := Option.isSome_iff_exists.mp sent
    have list := named_by_tag listOf (Or.inr (Or.inr (same.symm.trans tagged)))
    have holds := inv.holds t tagged
    rw [← list] at holds
    have etag : (updateCacheMetadata now h.store.etag h.store).etag = some t := by
      simp [updateCacheMetadata, tagged]
    refine ⟨⟨?_, ?_⟩, ?_⟩
    · intro other otherTag
      cases etag.symm.trans otherTag
      rw [← list]
      have after := holds_union timeText holds
      exact ⟨after.stored, after.dropped⟩
    · intro other otherTag rule member
      cases etag.symm.trans otherTag
      exact Finset.mem_union_left _ (inv.met t tagged rule member)
    · rintro other ⟨⟩ _
      exact ⟨holds.stored, holds.dropped⟩
  | asked_again sent same empty =>
    have list := clear_of_empty timeText listOf inv sent same empty current.bodyTag
    refine ⟨stored_inv timeText listOf inv list
      (fun t tagged => named_by_tag listOf (Or.inr (Or.inl tagged))) now, ?_⟩
    rintro other ⟨⟩ _
    have before := upsert_earlier timeText listOf list
    exact ⟨before.stored, before.dropped⟩
  | downloaded other =>
    have list := clear.resolve_left other
    refine ⟨stored_inv timeText listOf inv list
      (fun t tagged => named_by_tag listOf (Or.inl tagged)) now, ?_⟩
    rintro other ⟨⟩ _
    have before := upsert_earlier timeText listOf list
    exact ⟨before.stored, before.dropped⟩
  | failed result unsynced =>
    simp only [unsynced, Bool.false_eq_true, if_false]
    exact ⟨inv, fun _ _ never => (by cases never)⟩

theorem force_keeps {h : History} (inv : Inv timeText listOf h) {now : Int}
    {current : PlatformList} (clear : Clear timeText listOf h (.force now (.ok current))) :
    Inv timeText listOf (historyStep timeText listOf h (.force now (.ok current))) ∧
      Good timeText listOf h (.force now (.ok current)) := by
  have list : ClearList timeText listOf h current.bodyTag (current.rules listOf) := clear
  refine ⟨stored_inv timeText listOf inv list
    (fun t tagged => named_by_tag listOf (Or.inr (Or.inl tagged))) now, ?_⟩
  rintro other ⟨⟩ _
  have before := upsert_earlier timeText listOf list
  exact ⟨before.stored, before.dropped⟩

theorem step_keeps (h : History) (a : Action) (inv : Inv timeText listOf h)
    (clear : Clear timeText listOf h a) :
    Inv timeText listOf (historyStep timeText listOf h a) ∧ Good timeText listOf h a := by
  cases a with
  | start clock checks => exact ⟨seed_inv timeText listOf inv clear, trivial⟩
  | sync now answer again =>
    cases answer with
    | ok current => exact sync_keeps timeText listOf inv clear
    | error e =>
      refine ⟨?_, fun _ never => (by cases never)⟩
      simp only [historyStep, afterSync, syncRules_failed]
      exact inv
  | force now answer =>
    cases answer with
    | ok current => exact force_keeps timeText listOf inv clear
    | error e => exact ⟨inv, fun _ never => (by cases never)⟩

/-- Where every list that is stored is clear, and no start writes a built-in rule over one of the
    platform's while the tag of its list is stored, every synchronisation leaves the rules of the
    platform, on or off as it has them, and none on that it no longer has. -/
theorem platform_rules_applied (as : List Action)
    (clear : Along (historyStep timeText listOf) (Clear timeText listOf) History.start as) :
    Along (historyStep timeText listOf) (Good timeText listOf) History.start as :=
  along_imp (I := Inv timeText listOf)
    (fun h a inv condition => (step_keeps timeText listOf h a inv condition).2)
    (fun h a inv condition => (step_keeps timeText listOf h a inv condition).1)
    (start_inv timeText listOf) clear

/-! Runs on few rules, all made at the epoch. -/

def epochText (_ : Int) : String := "1970-01-01T00:00:00+00:00"

def apiRule (id severity : String) (enabled : Bool) : ApiCheckRule where
  id := id
  name := id
  description := none
  category := "security"
  severity := severity
  enabled := enabled
  checkType := id
  parameters := none
  frameworks := ["NIS2"]
  version := "2"
  createdAt := 0
  updatedAt := 0
  checkCommand := none
  expectedResult := none
  remediation := none
  platforms := none
  controlId := none

def firewallCheck : CheckDefinition where
  id := "firewall"
  name := "Firewall"
  description := "The firewall is on"
  category := "security"
  severity := .high
  frameworks := ["NIS2"]

def versions : String → List ApiCheckRule
  | "v1" => [apiRule "firewall" "low" true, apiRule "backup" "high" true]
  | "v2" => [apiRule "firewall" "low" false, apiRule "backup" "high" true]
  | "v3" => [apiRule "backup" "high" true]
  | _ => []

def syncWith (current : PlatformList) : Action := .sync 0 (.ok current) (.ok ())

def startAgent : Action := .start (fun _ => 0) [firewallCheck]

theorem clear_of_all {h : History} {tag : String} {rules : List ApiCheckRule}
    (named : ∀ a ∈ rules, ∀ b ∈ rules, a.id = b.id →
      (CheckRule.from a).row timeText = (CheckRule.from b).row timeText)
    (all : h.earlier ⊆ ids rules) : ClearList timeText listOf h (some tag) rules where
  named := named
  dropped id known left := absurd (all known) left
  tag none := by cases none

/- A list that does not change, then one in which a rule is turned off. -/
def ordinaryDays : List Action :=
  [startAgent, syncWith (.tagged "v1" .header), syncWith (.tagged "v1" .header),
    syncWith (.tagged "v2" .both)]

theorem platform_rules_applied_ordinary :
    Along (historyStep epochText versions) (Good epochText versions) History.start ordinaryDays := by
  refine platform_rules_applied epochText versions ordinaryDays ⟨?_, Or.inr ?_, Or.inl ?_, Or.inr ?_,
    trivial⟩
  · intro sent
    cases sent
  · exact clear_of_all epochText versions (by decide) (by decide)
  · decide
  · exact clear_of_all epochText versions (by decide) (by decide)

/- The row of a rule after a synchronisation that was made. -/
theorem stored_of_good {h : History} {current : PlatformList}
    (good : Good timeText listOf h (syncWith current))
    (made : synced (syncRules timeText listOf 0 (.ok current) (.ok ()) h.store).2 = true) :
    Holds timeText (syncRules timeText listOf 0 (.ok current) (.ok ()) h.store).1 h.earlier
      (current.rules listOf) :=
  good current rfl made

/-- A rule the platform removed stays on; a start turns on again the rule the platform turned
    off; and a list without a tag is still there when the platform is back to the one before. -/
theorem platform_rules_not_applied :
    ¬ Along (historyStep epochText versions) (Good epochText versions) History.start
        [syncWith (.tagged "v1" .header), syncWith (.tagged "v3" .header)] ∧
      ¬ Along (historyStep epochText versions) (Good epochText versions) History.start
        [startAgent, syncWith (.tagged "v2" .header), startAgent, syncWith (.tagged "v2" .header)] ∧
      ¬ Along (historyStep epochText versions) (Good epochText versions) History.start
        [syncWith (.tagged "v1" .header),
          syncWith (.untagged [apiRule "firewall" "low" false, apiRule "backup" "high" true]),
          syncWith (.tagged "v1" .header)] := by
  refine ⟨?_, ?_, ?_⟩
  · rintro ⟨_, last, _⟩
    have holds := stored_of_good epochText versions last (by decide)
    have off := holds.dropped "firewall" (by decide) (by decide)
      ((CheckRule.from (apiRule "firewall" "low" true)).row epochText) (by decide)
    cases off
  · rintro ⟨_, _, _, last, _⟩
    have holds := stored_of_good epochText versions last (by decide)
    have stored := holds.stored (apiRule "firewall" "low" false) (by decide)
    revert stored
    decide
  · rintro ⟨_, _, last, _⟩
    have holds := stored_of_good epochText versions last (by decide)
    have stored := holds.stored (apiRule "firewall" "low" true) (by decide)
    revert stored
    decide

end SentinelAgent.RuleSync
