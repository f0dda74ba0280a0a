import SentinelAgent.Core.RuleInstallation
import SentinelAgent.Core.RuleTexts
import SentinelAgent.Library.Runs

/-!
What of the operator's changes is respected over the whole history of an endpoint: saves,
toggles, matches, deletions, what the platform sends, and installations by any versions of the
agent.
-/
namespace SentinelAgent.DefaultRules
open Maps Runs

/- A rule as the platform sends it, its conditions and actions in the texts they are stored in. -/
structure DetectionRulePayload where
  id : String
  name : String
  description : String
  severity : String
  conditions : String
  actions : String
  enabled : Bool
  createdAt : Int
  lastMatch : Option Int
  matchCount : Nat

/- The catalogue of a version of the agent. -/
structure Catalog where
  entries : List Entry
  distinct : Distinct entries

inductive Action where
  | save (rule : DetectionRule)
  | receive (payload : DetectionRulePayload)
  | toggle (id : String) (enabled : Bool)
  | matched (id : String) (count : Nat) (moment : Int)
  | delete (id : String)
  | install (now : Int) (catalog : Catalog) (restoreDeleted : Bool)

/- The endpoint, the definition each rule has that is as an installation left or found it, and
   the rules deleted since the defaults were last asked for. -/
structure History where
  endpoint : Endpoint
  asInstalled : Map String Definition
  deleted : Finset String

def History.start : History := ⟨⟨∅, ∅⟩, ∅, ∅⟩

variable (codec : Codec)

def payloadToStored (payload : DetectionRulePayload) : StoredDetectionRule where
  id := payload.id
  name := payload.name
  description := payload.description
  severity := payload.severity
  conditions := payload.conditions
  actions := payload.actions
  enabled := payload.enabled
  createdAt := codec.timeText payload.createdAt
  lastMatch := payload.lastMatch.map codec.timeText
  matchCount := min payload.matchCount i32Max
  synced := true

/- What a row says it detects and does: nothing for one that cannot be read as it is. -/
def rowDefinition (row : StoredDetectionRule) : Option Definition := do
  let severity ← readSeverity row.severity
  let conditions ← codec.readConditions row.conditions
  let actions ← codec.readActions row.actions
  some ⟨row.name, row.description, severity.asStr, conditionNames conditions,
    actions.map PlaybookActionType.asStr⟩

/- The rules of a catalogue that are on the endpoint as they are shipped. -/
def asShipped (now : Int) (catalog : Catalog) (e : Endpoint) : List DetectionRule :=
  (defaultRules catalog.entries now).filter fun shipped =>
    decide ((e.rules.lookup shipped.id).bind (rowDefinition codec) = some (definitionOf shipped))

def writeRow (h : History) (row : StoredDetectionRule) : History :=
  { h with
    endpoint := { h.endpoint with rules := h.endpoint.rules.insert row.id row }
    deleted := h.deleted.erase row.id }

def changeRow (h : History) (id : String) (change : StoredDetectionRule → StoredDetectionRule) :
    History :=
  match h.endpoint.rules.lookup id with
  | some row =>
    { h with endpoint := { h.endpoint with rules := h.endpoint.rules.insert id (change row) } }
  | none => h

def matchRow (count : Nat) (last : String) (row : StoredDetectionRule) : StoredDetectionRule :=
  { row with
    matchCount := row.matchCount + count
    lastMatch := match row.lastMatch with
      | some known => some (if known < last then last else known)
      | none => some last }

def historyStep (h : History) : Action → History
  | .save rule => writeRow h (ruleToStored codec rule false)
  | .receive payload => writeRow h (payloadToStored codec payload)
  | .toggle id enabled =>
    changeRow h id fun row => { row with enabled := enabled, synced := false }
  | .matched id count moment => changeRow h id (matchRow count (codec.timeText moment))
  | .delete id =>
    match h.endpoint.rules.lookup id with
    | some _ =>
      { endpoint := { h.endpoint with rules := h.endpoint.rules.erase id }
        asInstalled := h.asInstalled.erase id
        deleted := insert id h.deleted }
    | none => h
  | .install now catalog restoreDeleted =>
    match installDefaultRules codec now catalog.entries restoreDeleted h.endpoint with
    | some (e, _) =>
      { endpoint := e
        asInstalled := insertAll DetectionRule.id definitionOf (asShipped codec now catalog e)
          h.asInstalled
        deleted := if restoreDeleted then ∅ else h.deleted }
    | none => h

/- What an installation that could be made has to respect. -/
structure Respects (h : History) (now : Int) (catalog : Catalog) (restoreDeleted : Bool)
    (e : Endpoint) : Prop where
  edited : ∀ id row d, h.endpoint.rules.lookup id = some row → h.asInstalled.lookup id = some d →
    rowDefinition codec row ≠ some d → e.rules.lookup id = some row
  state : ∀ id row, h.endpoint.rules.lookup id = some row → ∃ after, e.rules.lookup id = some after ∧
    after.enabled = row.enabled ∧ after.matchCount = row.matchCount ∧ after.lastMatch = row.lastMatch
  gone : restoreDeleted = false → ∀ id ∈ h.deleted, e.rules.lookup id = none
  current : ∀ entry ∈ catalog.entries, ∀ row d,
    h.endpoint.rules.lookup (defaultRule now entry).id = some row →
    h.asInstalled.lookup (defaultRule now entry).id = some d → rowDefinition codec row = some d →
    ∃ after, e.rules.lookup (defaultRule now entry).id = some after ∧
      rowDefinition codec after = some (definitionOf (defaultRule now entry))
  again : ∀ later, installDefaultRules codec later catalog.entries false e = some (e, 0)

def Respected (h : History) : Action → Prop
  | .install now catalog restoreDeleted =>
    ∀ e n, installDefaultRules codec now catalog.entries restoreDeleted h.endpoint = some (e, n) →
      Respects codec h now catalog restoreDeleted e
  | _ => True

/- A row that cannot be read as it is, and is read as the rule that was installed or is shipped. -/
def Mistaken (now : Int) (shipped : DetectionRule) (known : Option String)
    (row : StoredDetectionRule) : Prop :=
  rowDefinition codec row = none ∧
    (known = some (definition codec (storedRuleToDto codec now row)) ∨
      definition codec (storedRuleToDto codec now row) = definition codec shipped)

def Careful (h : History) : Action → Prop
  | .delete id => (h.endpoint.rules.lookup id).isSome → (h.endpoint.installed.lookup id).isSome
  | .install now catalog restoreDeleted => ∀ entry ∈ catalog.entries, ∀ row,
    h.endpoint.rules.lookup (defaultRule now entry).id = some row →
      ¬ Mistaken codec now (defaultRule now entry)
        (rememberedAt restoreDeleted h.endpoint (defaultRule now entry).id) row
  | _ => True

/-! What is read of a row. -/

theorem readSeverity_asStr (severity : Severity) : readSeverity severity.asStr = some severity := by
  cases severity <;> decide

theorem rowDefinition_stored (rule : DetectionRule) (synced : Bool) :
    rowDefinition codec (ruleToStored codec rule synced) = some (definitionOf rule) := by
  simp only [rowDefinition, ruleToStored, readSeverity_asStr, codec.conditions_read,
    codec.actions_read, Option.bind_eq_bind, Option.bind_some]
  rfl

theorem rowDefinition_read {row : StoredDetectionRule} {d : Definition}
    (read : rowDefinition codec row = some d) (now : Int) :
    definitionOf (storedRuleToDto codec now row) = d ∧
      (storedRuleToDto codec now row).enabled = row.enabled := by
  simp only [rowDefinition, Option.bind_eq_bind, Option.bind_eq_some_iff] at read
  obtain ⟨severity, readSeverity, conditions, readConditions, actions, readActions, same⟩ := read
  cases same
  simp [definitionOf, storedRuleToDto, readSeverity, readConditions, readActions]

theorem definition_inj {a b : DetectionRule} :
    definition codec a = definition codec b ↔ definitionOf a = definitionOf b :=
  codec.definitionText_injective.eq_iff

/- A row that is not mistaken and is read as the rule that was installed is that rule. -/
theorem read_of_known {now : Int} {shipped : DetectionRule} {row : StoredDetectionRule}
    (clear : ¬ Mistaken codec now shipped
      (some (definition codec (storedRuleToDto codec now row))) row) :
    rowDefinition codec row = some (definitionOf (storedRuleToDto codec now row)) := by
  cases read : rowDefinition codec row with
  | none => exact absurd ⟨read, Or.inl rfl⟩ clear
  | some d => rw [(rowDefinition_read codec read now).1]

/- Times as they are written. -/
def Written (row : StoredDetectionRule) : Prop :=
  ∃ time : Option Int, row.lastMatch = time.map codec.timeText

theorem lastMatch_kept {row : StoredDetectionRule} (written : Written codec row) :
    (row.lastMatch.bind codec.readTime).map codec.timeText = row.lastMatch := by
  obtain ⟨time, same⟩ := written
  rw [same]
  cases time with
  | none => rfl
  | some time => simp [codec.time_read]

/-! What an installation does to a shipped rule, as the operator sees it. -/

/- A rule an installation has nothing to do for. -/
def Settled (now : Int) (shipped : DetectionRule) (row : Option StoredDetectionRule)
    (known : Option String) : Prop :=
  (row = none → known.isSome) ∧ ∀ r, row = some r →
    (definition codec (storedRuleToDto codec now r) = definition codec shipped ∧
      known = some (definition codec shipped)) ∨
    (definition codec (storedRuleToDto codec now r) ≠ definition codec shipped ∧
      known ≠ some (definition codec (storedRuleToDto codec now r)))

section
variable {codec} {now : Int} {shipped : DetectionRule}
  {before after : Option StoredDetectionRule} {known remembered : Option String}

theorem RuleInstalled.edited_stays (installed : RuleInstalled codec now shipped before known after remembered)
    {row : StoredDetectionRule} {d : Definition} (there : before = some row)
    (wasInstalled : known = some (codec.definitionText d)) (changed : rowDefinition codec row ≠ some d)
    (clear : ¬ Mistaken codec now shipped known row) : after = some row := by
  cases installed with
  | deleted | new => cases there
  | same | edited => exact there
  | improved other different =>
    cases there
    refine absurd (read_of_known codec clear) ?_
    rw [codec.definitionText_injective (Option.some.inj wasInstalled)]
    exact changed

theorem RuleInstalled.state_stays (installed : RuleInstalled codec now shipped before known after remembered)
    {row : StoredDetectionRule} (there : before = some row) (written : Written codec row)
    (counted : row.matchCount ≤ i32Max) (clear : ¬ Mistaken codec now shipped known row) :
    ∃ left, after = some left ∧ left.enabled = row.enabled ∧ left.matchCount = row.matchCount ∧
      left.lastMatch = row.lastMatch := by
  cases installed with
  | deleted | new => cases there
  | same | edited => exact ⟨row, there, rfl, rfl, rfl⟩
  | improved other different =>
    cases there
    refine ⟨_, rfl, (rowDefinition_read codec (read_of_known codec clear) now).2, ?_, ?_⟩
    · exact Nat.min_eq_left counted
    · exact lastMatch_kept codec written

theorem RuleInstalled.gone_stays (installed : RuleInstalled codec now shipped before known after remembered)
    (absent : before = none) (recorded : known.isSome) : after = none := by
  cases installed with
  | deleted => rfl
  | new => cases recorded
  | same | improved | edited => cases absent

theorem RuleInstalled.left_improves (installed : RuleInstalled codec now shipped before known after remembered)
    {row : StoredDetectionRule} {d : Definition} (there : before = some row)
    (wasInstalled : known = some (codec.definitionText d)) (left : rowDefinition codec row = some d) :
    ∃ row, after = some row ∧ rowDefinition codec row = some (definitionOf shipped) := by
  cases installed with
  | deleted | new => cases there
  | same other known alike =>
    cases there
    refine ⟨_, rfl, ?_⟩
    rw [left, ← (rowDefinition_read codec left now).1, (definition_inj codec).mp alike]
  | improved => exact ⟨_, rfl, rowDefinition_stored codec _ false⟩
  | edited other known different changed =>
    cases there
    refine absurd ?_ changed
    rw [wasInstalled, ← (rowDefinition_read codec left now).1]
    rfl

/-- The shipped definition is remembered of a rule that has it, and nothing new of another. -/
theorem RuleInstalled.remembers (installed : RuleInstalled codec now shipped before known after remembered) :
    (after.bind (rowDefinition codec) = some (definitionOf shipped) →
        remembered = some (definition codec shipped)) ∧
      ∀ row, before = some row → ¬ Mistaken codec now shipped known row →
        after.bind (rowDefinition codec) ≠ some (definitionOf shipped) →
          after.isSome ∧ remembered = known := by
  cases installed with
  | deleted known => exact ⟨fun other => (by cases other), fun row there => (by cases there)⟩
  | new => exact ⟨fun _ => rfl, fun row there => (by cases there)⟩
  | same row known same =>
    refine ⟨fun _ => rfl, ?_⟩
    rintro row ⟨⟩ clear other
    cases read : rowDefinition codec row with
    | none => exact absurd ⟨read, Or.inr same⟩ clear
    | some d =>
      refine absurd ?_ other
      rw [Option.bind_some, read, ← (rowDefinition_read codec read now).1]
      exact congrArg some ((definition_inj codec).mp same)
  | improved row different =>
    refine ⟨fun _ => rfl, ?_⟩
    rintro row there clear other
    exact absurd (rowDefinition_stored codec _ false) other
  | edited row known different changed =>
    refine ⟨?_, fun row there clear other => ⟨rfl, rfl⟩⟩
    intro read
    refine absurd ?_ different
    rw [definition_inj]
    exact (rowDefinition_read codec read now).1

theorem RuleInstalled.written_stays (installed : RuleInstalled codec now shipped before known after remembered)
    (written : ∀ row, before = some row → Written codec row) {row : StoredDetectionRule}
    (there : after = some row) : Written codec row := by
  cases installed with
  | deleted => cases there
  | new =>
    cases there
    exact ⟨shipped.lastMatch, rfl⟩
  | same | edited => exact written row there
  | improved other different =>
    cases there
    exact ⟨(storedRuleToDto codec now other).lastMatch, rfl⟩

/-- Nothing is left to do for the rule afterwards. -/
theorem RuleInstalled.settled (installed : RuleInstalled codec now shipped before known after remembered) :
    Settled codec now shipped after remembered := by
  cases installed with
  | deleted known => exact ⟨fun _ => rfl, fun row there => (by cases there)⟩
  | new =>
    refine ⟨fun absent => (by cases absent), ?_⟩
    rintro row ⟨⟩
    have read := rowDefinition_read codec (rowDefinition_stored codec shipped false) now
    exact Or.inl ⟨(definition_inj codec).mpr read.1, rfl⟩
  | same row known same =>
    refine ⟨fun absent => (by cases absent), ?_⟩
    rintro row ⟨⟩
    exact Or.inl ⟨same, rfl⟩
  | improved row different =>
    refine ⟨fun absent => (by cases absent), ?_⟩
    rintro row ⟨⟩
    have read := rowDefinition_read codec (rowDefinition_stored codec
      (updated (storedRuleToDto codec now row) shipped) false) now
    exact Or.inl ⟨(definition_inj codec).mpr read.1, rfl⟩
  | edited row known different changed =>
    refine ⟨fun absent => (by cases absent), ?_⟩
    rintro row ⟨⟩
    exact Or.inr ⟨different, changed⟩

end

theorem settled_nothing {now : Int} {shipped : DetectionRule} {e : Endpoint}
    (settled : Settled codec now shipped (e.rules.lookup shipped.id) (e.installed.lookup shipped.id)) :
    isNew (storedRulesToDto codec now e.rules) e.installed shipped = false ∧
      improvement codec (storedRulesToDto codec now e.rules) e.installed shipped = none ∧
      (isSame codec (storedRulesToDto codec now e.rules) shipped = true →
        e.installed.lookup shipped.id = some (definition codec shipped)) := by
  obtain ⟨absent, present⟩ := settled
  simp only [isNew, isSame, improvement, existing_lookup]
  cases found : e.rules.lookup shipped.id with
  | none => simpa using absent found
  | some row =>
    cases present row found with
    | inl same => simp [same.1, same.2]
    | inr other => simp [other.1, other.2]

/-- An installation that has nothing to do. -/
theorem install_settled {now : Int} {catalog : List Entry} (distinct : Distinct catalog)
    {e : Endpoint} (counted : ∀ id row, e.rules.lookup id = some row → row.matchCount ≤ i32Max)
    (settled : ∀ entry ∈ catalog, Settled codec now (defaultRule now entry)
      (e.rules.lookup (defaultRule now entry).id) (e.installed.lookup (defaultRule now entry).id)) :
    installDefaultRules codec now catalog false e = some (e, 0) := by
  have nothing := fun entry member => settled_nothing codec (settled entry member)
  have unchanged : changed codec (storedRulesToDto codec now e.rules) e.installed
      (defaultRules catalog now) = [] := by
    refine List.append_eq_nil_iff.mpr ⟨List.filter_eq_nil_iff.mpr ?_, List.filterMap_eq_nil_iff.mpr ?_⟩
    · intro shipped listed
      obtain ⟨entry, member, rfl⟩ := List.mem_map.mp listed
      simp [(nothing entry member).1]
    · intro shipped listed
      obtain ⟨entry, member, rfl⟩ := List.mem_map.mp listed
      exact (nothing entry member).2.1
  have remembered : insertAll DetectionRule.id (definition codec) ((defaultRules catalog now).filter
      (isRemembered codec (storedRulesToDto codec now e.rules) e.installed)) e.installed =
        e.installed := by
    apply Finmap.ext_lookup
    intro id
    by_cases listed : ∃ entry ∈ catalog, (defaultRule now entry).id = id
    · obtain ⟨entry, member, rfl⟩ := listed
      rw [remembered_lookup codec distinct member]
      obtain ⟨old, unimproved, same⟩ := nothing entry member
      split
      · simp only [isRemembered, old, unimproved, Bool.false_or, Option.isSome_none, Bool.or_false]
          at *
        exact (same ‹_›).symm
      · rfl
    · apply lookup_insertAll_none
      intro rule kept same
      obtain ⟨entry, member, rfl⟩ := List.mem_map.mp (List.mem_of_mem_filter kept)
      exact listed ⟨entry, member, same⟩
  have read : ¬ 0 < e.rules.entries.countP fun entry => i32Max < entry.2.matchCount := by
    intro some
    obtain ⟨entry, member, beyond⟩ := Multiset.countP_pos.mp some
    exact absurd (counted entry.1 entry.2 (Finmap.mem_lookup_iff.mpr member)) (by omega)
  unfold installDefaultRules
  rw [if_neg read]
  simp only [planInstall, plan_eq, List.nil_append, Bool.false_eq_true, if_false]
  rw [remembered, show _ ++ _ = [] from unchanged]
  rfl

/-! What every run keeps. -/

structure Inv (h : History) : Prop where
  remembered : ∀ id d, h.asInstalled.lookup id = some d →
    (h.endpoint.rules.lookup id).isSome ∧
      h.endpoint.installed.lookup id = some (codec.definitionText d)
  gone : ∀ id ∈ h.deleted, h.endpoint.rules.lookup id = none ∧
    (h.endpoint.installed.lookup id).isSome
  written : ∀ id row, h.endpoint.rules.lookup id = some row → Written codec row

theorem start_inv : Inv codec History.start where
  remembered id d found := by cases found
  gone id member := absurd member (Finset.notMem_empty id)
  written id row found := by cases found

theorem writeRow_inv {h : History} (inv : Inv codec h) {row : StoredDetectionRule}
    (written : Written codec row) : Inv codec (writeRow h row) where
  remembered id d found := by
    obtain ⟨present, known⟩ := inv.remembered id d found
    refine ⟨?_, known⟩
    simp only [writeRow, lookup_insert_eq]
    split
    · rfl
    · exact present
  gone id member := by
    obtain ⟨other, old⟩ := Finset.mem_erase.mp member
    obtain ⟨absent, known⟩ := inv.gone id old
    refine ⟨?_, known⟩
    simp only [writeRow, lookup_insert_eq, if_neg other, absent]
  written id r found := by
    simp only [writeRow, lookup_insert_eq] at found
    split at found
    · cases found
      exact written
    · exact inv.written id r found

theorem changeRow_inv {h : History} (inv : Inv codec h) (id : String)
    {change : StoredDetectionRule → StoredDetectionRule}
    (written : ∀ row, Written codec row → Written codec (change row)) :
    Inv codec (changeRow h id change) := by
  unfold changeRow
  cases found : h.endpoint.rules.lookup id with
  | none => exact inv
  | some row =>
    constructor
    · intro other d known
      obtain ⟨present, remembered⟩ := inv.remembered other d known
      refine ⟨?_, remembered⟩
      simp only [lookup_insert_eq]
      split
      · rfl
      · exact present
    · intro other member
      obtain ⟨absent, remembered⟩ := inv.gone other member
      refine ⟨?_, remembered⟩
      rw [lookup_insert_eq, if_neg fun same => ?_, absent]
      rw [same, found] at absent
      cases absent
    · intro other r there
      simp only [lookup_insert_eq] at there
      split at there
      · cases there
        exact written row (inv.written id row found)
      · exact inv.written other r there

theorem delete_inv {h : History} (inv : Inv codec h) (id : String)
    (careful : Careful codec h (.delete id)) : Inv codec (historyStep codec h (.delete id)) := by
  simp only [historyStep]
  cases found : h.endpoint.rules.lookup id with
  | none => exact inv
  | some row =>
    constructor
    · intro other d known
      simp only [lookup_erase_eq] at known ⊢
      split at known
      · cases known
      · obtain ⟨present, remembered⟩ := inv.remembered other d known
        rw [if_neg ‹_›]
        exact ⟨present, remembered⟩
    · intro other member
      simp only [lookup_erase_eq]
      cases Finset.mem_insert.mp member with
      | inl same =>
        subst same
        exact ⟨if_pos rfl, careful (by rw [found]; rfl)⟩
      | inr old =>
        obtain ⟨absent, remembered⟩ := inv.gone other old
        refine ⟨?_, remembered⟩
        split
        · rfl
        · exact absent
    · intro other r there
      simp only [lookup_erase_eq] at there
      split at there
      · cases there
      · exact inv.written other r there

theorem rememberedAt_present (restoreDeleted : Bool) {e : Endpoint} {id : String}
    (present : (e.rules.lookup id).isSome) :
    rememberedAt restoreDeleted e id = e.installed.lookup id := by
  unfold rememberedAt
  split
  · rw [present]
    cases e.installed.lookup id with
    | none => rfl
    | some known => rfl
  · rfl

/- What is noted of the rules of a catalogue after an installation. -/
theorem asShipped_lookup {now : Int} {catalog : Catalog} (e : Endpoint)
    (asInstalled : Map String Definition) {entry : Entry} (member : entry ∈ catalog.entries) :
    (insertAll DetectionRule.id definitionOf (asShipped codec now catalog e) asInstalled).lookup
        (defaultRule now entry).id =
      if (e.rules.lookup (defaultRule now entry).id).bind (rowDefinition codec) =
          some (definitionOf (defaultRule now entry)) then
        some (definitionOf (defaultRule now entry))
      else asInstalled.lookup (defaultRule now entry).id := by
  have only : ∀ rule ∈ asShipped codec now catalog e, rule.id = (defaultRule now entry).id →
      rule = defaultRule now entry ∧
        (e.rules.lookup (defaultRule now entry).id).bind (rowDefinition codec) =
          some (definitionOf (defaultRule now entry)) := by
    intro rule kept same
    obtain ⟨listed, shipped⟩ := List.mem_filter.mp kept
    obtain ⟨other, otherMember, rfl⟩ := List.mem_map.mp listed
    cases entry_unique catalog.distinct otherMember member same
    exact ⟨rfl, of_decide_eq_true shipped⟩
  split
  · have kept : defaultRule now entry ∈ asShipped codec now catalog e :=
      List.mem_filter.mpr ⟨List.mem_map_of_mem member, decide_eq_true ‹_›⟩
    refine lookup_insertAll_some ⟨_, kept, rfl⟩ ?_ asInstalled
    intro rule other same
    rw [(only rule other same).1]
  · apply lookup_insertAll_none
    intro rule kept same
    exact absurd (only rule kept same).2 ‹_›

theorem asShipped_other {now : Int} {catalog : Catalog} (e : Endpoint)
    (asInstalled : Map String Definition) {id : String}
    (other : ∀ entry ∈ catalog.entries, (defaultRule now entry).id ≠ id) :
    (insertAll DetectionRule.id definitionOf (asShipped codec now catalog e) asInstalled).lookup id =
      asInstalled.lookup id := by
  apply lookup_insertAll_none
  intro rule kept same
  obtain ⟨entry, member, rfl⟩ := List.mem_map.mp (List.mem_of_mem_filter kept)
  exact other entry member same

theorem install_inv {h : History} (inv : Inv codec h) {now : Int} {catalog : Catalog}
    {restoreDeleted : Bool} (careful : Careful codec h (.install now catalog restoreDeleted)) :
    Inv codec (historyStep codec h (.install now catalog restoreDeleted)) := by
  simp only [historyStep]
  cases result : installDefaultRules codec now catalog.entries restoreDeleted h.endpoint with
  | none => exact inv
  | some made =>
    obtain ⟨e, n⟩ := made
    constructor
    · intro id d known
      by_cases listed : ∃ entry ∈ catalog.entries, (defaultRule now entry).id = id
      · obtain ⟨entry, member, rfl⟩ := listed
        have installed := install_rule codec catalog.distinct result member
        obtain ⟨shipped, other⟩ := installed.remembers
        simp only [asShipped_lookup codec e h.asInstalled member] at known
        split at known
        · cases known
          refine ⟨?_, shipped ‹_›⟩
          obtain ⟨row, there, _⟩ := Option.bind_eq_some_iff.mp ‹_›
          rw [there]
          rfl
        · obtain ⟨present, remembered⟩ := inv.remembered _ d known
          obtain ⟨row, there⟩ := Option.isSome_iff_exists.mp present
          obtain ⟨still, same⟩ := other row there (careful entry member row there) ‹_›
          exact ⟨still, same.trans ((rememberedAt_present restoreDeleted present).trans remembered)⟩
      · have others : ∀ entry ∈ catalog.entries, (defaultRule now entry).id ≠ id :=
          fun entry member same => listed ⟨entry, member, same⟩
        simp only [asShipped_other codec e h.asInstalled others] at known
        obtain ⟨rules, remembered⟩ := install_other codec result others
        obtain ⟨present, before⟩ := inv.remembered id d known
        simp only [rules, remembered]
        exact ⟨present, (rememberedAt_present restoreDeleted present).trans before⟩
    · intro id wasDeleted
      cases restoreDeleted with
      | true => cases wasDeleted
      | false =>
        obtain ⟨absent, recorded⟩ := inv.gone id wasDeleted
        by_cases listed : ∃ entry ∈ catalog.entries, (defaultRule now entry).id = id
        · obtain ⟨entry, member, rfl⟩ := listed
          have installed := install_rule codec catalog.distinct result member
          have gone := installed.gone_stays absent recorded
          exact ⟨gone, installed.settled.1 gone⟩
        · have others : ∀ entry ∈ catalog.entries, (defaultRule now entry).id ≠ id :=
            fun entry member same => listed ⟨entry, member, same⟩
          obtain ⟨rules, remembered⟩ := install_other codec result others
          simp only [rules, remembered]
          exact ⟨absent, recorded⟩
    · intro id row there
      by_cases listed : ∃ entry ∈ catalog.entries, (defaultRule now entry).id = id
      · obtain ⟨entry, member, rfl⟩ := listed
        exact (install_rule codec catalog.distinct result member).written_stays
          (inv.written _) there
      · have others : ∀ entry ∈ catalog.entries, (defaultRule now entry).id ≠ id :=
          fun entry member same => listed ⟨entry, member, same⟩
        rw [(install_other codec result others).1] at there
        exact inv.written id row there

theorem step_inv (h : History) (a : Action) (inv : Inv codec h) (careful : Careful codec h a) :
    Inv codec (historyStep codec h a) := by
  cases a with
  | save rule => exact writeRow_inv codec inv ⟨rule.lastMatch, rfl⟩
  | receive payload => exact writeRow_inv codec inv ⟨payload.lastMatch, rfl⟩
  | toggle id enabled => exact changeRow_inv codec inv id fun row written => written
  | matched id count moment =>
    refine changeRow_inv codec inv id ?_
    rintro row ⟨time, same⟩
    simp only [Written, matchRow, same]
    cases time with
    | none => exact ⟨some moment, rfl⟩
    | some known =>
      simp only [Option.map_some]
      split
      · exact ⟨some moment, rfl⟩
      · exact ⟨some known, rfl⟩
  | delete id => exact delete_inv codec inv id careful
  | install now catalog restoreDeleted => exact install_inv codec inv careful

/-! What an installation respects. -/

theorem install_counted {now : Int} {catalog : List Entry} {restoreDeleted : Bool}
    {e e' : Endpoint} {n : Nat}
    (result : installDefaultRules codec now catalog restoreDeleted e = some (e', n)) {id : String}
    {row : StoredDetectionRule} (there : e.rules.lookup id = some row) :
    row.matchCount ≤ i32Max := by
  unfold installDefaultRules at result
  split at result
  · cases result
  · rename_i few
    by_contra beyond
    exact few (Multiset.countP_pos.mpr
      ⟨⟨id, row⟩, Finmap.mem_lookup_iff.mp there, Nat.lt_of_not_le beyond⟩)

theorem RuleInstalled.counted_after {now : Int} {shipped : DetectionRule}
    {before after : Option StoredDetectionRule} {known remembered : Option String}
    (installed : RuleInstalled codec now shipped before known after remembered)
    (counted : ∀ row, before = some row → row.matchCount ≤ i32Max) {row : StoredDetectionRule}
    (there : after = some row) : row.matchCount ≤ i32Max := by
  cases installed with
  | deleted => cases there
  | new | improved =>
    cases there
    exact Nat.min_le_right _ _
  | same | edited => exact counted row there

theorem install_respects {h : History} (inv : Inv codec h) {now : Int} {catalog : Catalog}
    {restoreDeleted : Bool} (careful : Careful codec h (.install now catalog restoreDeleted))
    {e : Endpoint} {n : Nat}
    (result : installDefaultRules codec now catalog.entries restoreDeleted h.endpoint = some (e, n)) :
    Respects codec h now catalog restoreDeleted e := by
  have spec := fun entry member =>
    @install_rule codec now catalog.entries catalog.distinct restoreDeleted _ e n result entry member
  have others : ∀ id, (¬ ∃ entry ∈ catalog.entries, (defaultRule now entry).id = id) →
      e.rules.lookup id = h.endpoint.rules.lookup id := fun id listed =>
    (install_other codec result fun entry member same => listed ⟨entry, member, same⟩).1
  have counted : ∀ id row, e.rules.lookup id = some row → row.matchCount ≤ i32Max := by
    intro id row there
    by_cases listed : ∃ entry ∈ catalog.entries, (defaultRule now entry).id = id
    · obtain ⟨entry, member, rfl⟩ := listed
      exact (spec entry member).counted_after codec (fun _ => install_counted codec result) there
    · rw [others id listed] at there
      exact install_counted codec result there
  constructor
  · intro id row d there wasInstalled changed
    by_cases listed : ∃ entry ∈ catalog.entries, (defaultRule now entry).id = id
    · obtain ⟨entry, member, rfl⟩ := listed
      have known := (rememberedAt_present restoreDeleted
        (inv.remembered _ d wasInstalled).1).trans (inv.remembered _ d wasInstalled).2
      exact (spec entry member).edited_stays there known changed (careful entry member row there)
    · rw [others id listed, there]
  · intro id row there
    by_cases listed : ∃ entry ∈ catalog.entries, (defaultRule now entry).id = id
    · obtain ⟨entry, member, rfl⟩ := listed
      exact (spec entry member).state_stays there (inv.written _ row there)
        (install_counted codec result there) (careful entry member row there)
    · exact ⟨row, (others id listed).trans there, rfl, rfl, rfl⟩
  · rintro rfl id wasDeleted
    obtain ⟨absent, recorded⟩ := inv.gone id wasDeleted
    by_cases listed : ∃ entry ∈ catalog.entries, (defaultRule now entry).id = id
    · obtain ⟨entry, member, rfl⟩ := listed
      exact (spec entry member).gone_stays absent recorded
    · rw [others id listed, absent]
  · intro entry member row d there wasInstalled left
    have known := (rememberedAt_present restoreDeleted
      (inv.remembered _ d wasInstalled).1).trans (inv.remembered _ d wasInstalled).2
    exact (spec entry member).left_improves there known left
  · intro later
    exact install_settled codec catalog.distinct counted fun entry member =>
      (spec entry member).settled

/-- Where every rule that is deleted has been remembered, and no row that cannot be read as it is
    is taken for the rule that was installed or is shipped, every installation of a run respects
    what was changed. -/
theorem operator_respected (as : List Action)
    (careful : Along (historyStep codec) (Careful codec) History.start as) :
    Along (historyStep codec) (Respected codec) History.start as := by
  refine along_imp (I := Inv codec) ?_ (step_inv codec) (start_inv codec) careful
  intro h a inv clear
  cases a with
  | install now catalog restoreDeleted =>
    intro e n result
    exact install_respects codec inv clear result
  | save | receive | toggle | matched | delete => trivial

/-! Runs with one shipped rule. -/

def lowVersion : Catalog := ⟨[⟨"shell", "Shell", "A shell", .low, []⟩], by decide⟩

def highVersion : Catalog := ⟨[⟨"shell", "Shell", "A shell", .high, []⟩], by decide⟩

/- The rule as the platform has it. -/
def fromPlatform (severity actions : String) : DetectionRulePayload where
  id := "default-shell"
  name := "Shell"
  description := "A shell"
  severity := severity
  conditions := "[]"
  actions := actions
  enabled := true
  createdAt := 0
  lastMatch := none
  matchCount := 0

/- A rule that is installed, turned off and improved, edited and left, and deleted. -/
def ordinaryLife : List Action :=
  [.install 0 lowVersion false, .toggle "default-shell" false, .install 0 highVersion false,
    .receive (fromPlatform "medium" "[]"), .install 0 lowVersion false, .delete "default-shell",
    .install 0 lowVersion false]

theorem careful_of_readable {h : History} {now : Int} {catalog : Catalog} {restoreDeleted : Bool}
    (readable : ∀ entry ∈ catalog.entries,
      ((h.endpoint.rules.lookup (defaultRule now entry).id).all fun row =>
        (rowDefinition codec row).isSome) = true) :
    Careful codec h (.install now catalog restoreDeleted) := by
  intro entry member row there mistaken
  have read := readable entry member
  rw [there, Option.all_some, mistaken.1] at read
  cases read

theorem ordinaryLife_careful :
    Along (historyStep serialTexts) (Careful serialTexts) History.start ordinaryLife := by
  refine ⟨careful_of_readable _ ?_, trivial, careful_of_readable _ ?_, trivial,
    careful_of_readable _ ?_, fun _ => ?_, careful_of_readable _ ?_, trivial⟩
  all_goals decide +kernel

theorem operator_respected_ordinary :
    Along (historyStep serialTexts) (Respected serialTexts) History.start ordinaryLife :=
  operator_respected serialTexts ordinaryLife ordinaryLife_careful

/- The platform has an edited rule under the id before the agent is shipped with it. -/
def editedFirst : List Action :=
  [.receive (fromPlatform "medium" "[]"), .install 0 lowVersion false, .delete "default-shell",
    .install 0 lowVersion false]

/- The platform gives the rule a response this version does not know. -/
def unknownResponse : List Action :=
  [.install 0 lowVersion false, .receive (fromPlatform "low" "[\"block_account\"]"),
    .install 0 highVersion false]

/- What an installation is found to have done. -/
theorem installed_lookup (now : Int) (catalog : Catalog) (h : History) (id : String)
    (found : Option StoredDetectionRule)
    (does : (installDefaultRules codec now catalog.entries false h.endpoint).map
      (fun made => made.1.rules.lookup id) = some found) :
    ∃ e n, installDefaultRules codec now catalog.entries false h.endpoint = some (e, n) ∧
      e.rules.lookup id = found := by
  obtain ⟨⟨e, n⟩, result, same⟩ := Option.map_eq_some_iff.mp does
  exact ⟨e, n, result, same⟩

def fromCatalog : StoredDetectionRule :=
  ruleToStored serialTexts (defaultRule 0 ⟨"shell", "Shell", "A shell", .low, []⟩) false

def withUnknown : StoredDetectionRule :=
  payloadToStored serialTexts (fromPlatform "low" "[\"block_account\"]")

def replaced : StoredDetectionRule :=
  { fromCatalog with severity := "high", enabled := false }

/-- The rule the operator deleted comes back, and the rule the platform edited is replaced. -/
theorem changes_not_respected :
    ¬ Along (historyStep serialTexts) (Respected serialTexts) History.start editedFirst ∧
      ¬ Along (historyStep serialTexts) (Respected serialTexts) History.start unknownResponse := by
  constructor
  · rintro ⟨_, _, _, last, _⟩
    obtain ⟨e, n, result, there⟩ := installed_lookup serialTexts 0 lowVersion
      (run (historyStep serialTexts) History.start (editedFirst.take 3)) "default-shell"
      (some fromCatalog) (by decide +kernel)
    have gone := (last e n result).gone rfl "default-shell" (by decide +kernel)
    rw [there] at gone
    cases gone
  · rintro ⟨_, _, last, _⟩
    obtain ⟨e, n, result, there⟩ := installed_lookup serialTexts 0 highVersion
      (run (historyStep serialTexts) History.start (unknownResponse.take 2)) "default-shell"
      (some replaced) (by decide +kernel)
    obtain ⟨after, found, state, _⟩ :=
      (last e n result).state "default-shell" withUnknown (by decide +kernel)
    rw [there] at found
    cases found
    cases state

end SentinelAgent.DefaultRules
