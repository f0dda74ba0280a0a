import SentinelAgent.Library.Search
import SentinelAgent.Scanner.Correlation

/-!
The log rules and the correlation rules of an endpoint: how the engine is built from what was
read, and what holds for one event. A reference of a correlation is the id or the name of a rule
or of another correlation; where several carry it the last correlation is meant, or the last
rule when no correlation does.
-/
namespace SentinelAgent.Scanner

open Maps

structure SigmaRule where
  id : String
  title : String
  description : String
  level : SigmaLevel
  tags : List String
  category : Option String
  service : Option String
  name : Option String
  /-- What its searches and conditions say of an event. -/
  matchesEvent : SigmaEvent → Bool

def SigmaRule.names (r : SigmaRule) : List String := r.id :: r.name.toList

def CorrelationRule.names (r : CorrelationRule) : List String := r.id :: r.name.toList

def ruleNames (rules : List SigmaRule) : Map String Source :=
  nameFrom SigmaRule.names Source.rule 0 rules ∅

def namesOf (rules : List SigmaRule) (kept : List CorrelationRule) : Map String Source :=
  nameFrom CorrelationRule.names Source.correlation 0 kept (ruleNames rules)

/-! Refusing what lists a rule that is not there. -/

/-- What the passes over the correlations have found out. -/
structure Settling where
  absent : Finset String
  notApplicable : Nat
  errors : List String

def missing (known : Map String Source) (r : CorrelationRule) : Option String :=
  r.rules.find? (fun listed => decide (listed ∉ known))

/-- A correlation that lists a rule not meant for this endpoint is not meant for it either. -/
def Settling.refuse (s : Settling) (r : CorrelationRule) (listed : String) : Settling :=
  if listed ∈ s.absent then
    { s with
      notApplicable := s.notApplicable + 1
      absent := insert r.id (s.absent ∪ r.name.toList.toFinset) }
  else
    { s with errors := s.errors ++ [s!"correlation '{r.title}': rule '{listed}' is not loaded"] }

def pass (known : Map String Source) :
    List CorrelationRule → Settling → List CorrelationRule × Settling
  | [], s => ([], s)
  | r :: rs, s =>
    match missing known r with
    | none => ((pass known rs s).1.cons r, (pass known rs s).2)
    | some listed => pass known rs (s.refuse r listed)

theorem pass_kept (known : Map String Source) (rs : List CorrelationRule) (s : Settling) :
    (pass known rs s).1 = rs.filter (fun r => (missing known r).isNone) := by
  induction rs generalizing s with
  | nil => rfl
  | cons r rs ih =>
    unfold pass
    cases found : missing known r with
    | none => simp [found, ih]
    | some listed => simp [found, ih]

theorem pass_sublist (known : Map String Source) (rs : List CorrelationRule) (s : Settling) :
    (pass known rs s).1.Sublist rs := by
  rw [pass_kept]
  exact List.filter_sublist

/-- One correlation may list another, so a refusal is propagated until nothing changes. -/
def settle (rules : List SigmaRule) (kept : List CorrelationRule) (s : Settling) :
    List CorrelationRule × Settling :=
  if (pass (namesOf rules kept) kept s).1.length = kept.length then
    pass (namesOf rules kept) kept s
  else
    settle rules (pass (namesOf rules kept) kept s).1 (pass (namesOf rules kept) kept s).2
  termination_by kept.length
  decreasing_by
    have fewer := (pass_sublist (namesOf rules kept) kept s).length_le
    omega

theorem settle_sublist (rules : List SigmaRule) (kept : List CorrelationRule) (s : Settling) :
    (settle rules kept s).1.Sublist kept := by
  induction kept, s using settle.induct rules with
  | case1 kept s same =>
    rw [settle, if_pos same]
    exact pass_sublist (namesOf rules kept) kept s
  | case2 kept s fewer ih =>
    rw [settle, if_neg fewer]
    exact ih.trans (pass_sublist (namesOf rules kept) kept s)

/-! Leaving out what lists itself. -/

/-- The sources of a correlation whose references all have one. -/
def sourcesOf (names : Map String Source) (r : CorrelationRule) : List Source :=
  r.rules.filterMap (fun listed => names.lookup listed)

def listedBy (rules : List SigmaRule) (kept : List CorrelationRule) : List (List Source) :=
  kept.map (sourcesOf (namesOf rules kept))

def Source.correlation? : Source → Option Nat
  | .rule _ => none
  | .correlation index => some index

def listGraph (listed : List (List Source)) : Search.Graph Nat where
  next i := (listed.getD i []).filterMap Source.correlation?
  all := (listed.flatMap (fun sources => sources.filterMap Source.correlation?)).toFinset
  inside i j edge := by
    rw [List.mem_toFinset, List.mem_flatMap]
    rw [List.getD_eq_getElem?_getD] at edge
    cases found : listed[i]? with
    | none => simp [found] at edge
    | some sources =>
      rw [found] at edge
      exact ⟨sources, List.mem_of_getElem? found, edge⟩

def cyclic (listed : List (List Source)) : List Nat :=
  (List.range listed.length).filter (fun i => (listGraph listed).onCycle i)

def without (kept : List CorrelationRule) (dropped : List Nat) : List CorrelationRule :=
  (kept.zipIdx.filter (fun entry => decide (entry.2 ∉ dropped))).map (fun entry => entry.1)

theorem without_sublist (kept : List CorrelationRule) (dropped : List Nat) :
    (without kept dropped).Sublist kept := by
  have sub : (without kept dropped).Sublist (kept.zipIdx.map (fun entry => entry.1)) :=
    List.Sublist.map _ List.filter_sublist
  rwa [List.zipIdx_map_fst] at sub

theorem without_shorter {kept : List CorrelationRule} {dropped : List Nat} {i : Nat}
    (there : i < kept.length) (drops : i ∈ dropped) :
    (without kept dropped).length < kept.length := by
  have entry : (kept[i], i) ∈ kept.zipIdx := by
    rw [List.mem_zipIdx_iff_getElem?]
    exact List.getElem?_eq_getElem there
  have lost : (kept.zipIdx.filter (fun entry => decide (entry.2 ∉ dropped))).length <
      kept.zipIdx.length := by
    apply List.length_filter_lt_length_iff_exists.mpr
    exact ⟨(kept[i], i), entry, by simp [drops]⟩
  rw [List.length_zipIdx] at lost
  simpa [without] using lost

/-! The engine. -/

structure LogRule where
  rule : SigmaRule
  /-- Whether a match is a detection of its own. -/
  alerts : Bool

structure LogRuleEngine where
  rules : List LogRule
  correlations : List Correlation
  byService : Map String (List Nat)
  byCategory : Map String (List Nat)
  everyLog : List Nat
  countedBy : Map Source (List Nat)

/-- Each source with each correlation that lists it, as often as it lists it. -/
def countings (listed : List (List Source)) : List (Source × Nat) :=
  listed.zipIdx.flatMap (fun entry => entry.1.map (fun source => (source, entry.2)))

def generated (kept : List CorrelationRule) (listed : List (List Source)) : List Source :=
  (kept.zip listed).flatMap (fun entry => if entry.1.generate then entry.2 else [])

/-- A source counted by a correlation is silent unless one of those counting it asks for it. -/
def alerts (kept : List CorrelationRule) (listed : List (List Source)) (source : Source) : Bool :=
  decide (source ∉ pushAll (countings listed) ∅ ∨ source ∈ generated kept listed)

def build (rules : List SigmaRule) (kept : List CorrelationRule) (listed : List (List Source)) :
    LogRuleEngine where
  rules := rules.mapIdx (fun i r => { rule := r, alerts := alerts kept listed (.rule i) })
  correlations := (kept.zip listed).mapIdx (fun i entry =>
    { rule := entry.1, sources := entry.2, alerts := alerts kept listed (.correlation i),
      groups := ∅ })
  byService := pushAll (rules.zipIdx.filterMap (fun entry =>
    entry.1.service.map (fun service => (service, entry.2)))) ∅
  byCategory := pushAll (rules.zipIdx.filterMap (fun entry =>
    if entry.1.service.isNone then entry.1.category.map (fun category => (category, entry.2))
    else none)) ∅
  everyLog := rules.zipIdx.filterMap (fun entry =>
    if entry.1.service.isNone ∧ entry.1.category.isNone then some entry.2 else none)
  countedBy := pushAll (countings listed) ∅

def cyclicErrors (kept : List CorrelationRule) (indices : List Nat) : List String :=
  indices.filterMap (fun i => kept[i]?.map (fun r =>
    s!"correlation '{r.title}' lists itself, directly or through another"))

theorem mem_cyclic {listed : List (List Source)} {i : Nat} :
    i ∈ cyclic listed ↔ i < listed.length ∧ (listGraph listed).onCycle i = true := by
  rw [cyclic, List.mem_filter, List.mem_range]

theorem without_cyclic_shorter (kept : List CorrelationRule) {listed : List (List Source)}
    (same : listed.length = kept.length) (found : cyclic listed ≠ []) :
    (without kept (cyclic listed)).length < kept.length := by
  obtain ⟨i, member⟩ := List.exists_mem_of_ne_nil _ found
  have inside := (mem_cyclic.mp member).1
  exact without_shorter (by omega) member

/-- The correlations whose references are all there, and what was found out on the way. -/
def settled (rules : List SigmaRule) (correlations : List CorrelationRule)
    (absent : Finset String) : List CorrelationRule × Settling :=
  settle rules correlations { absent := absent, notApplicable := 0, errors := [] }

def onCycles (rules : List SigmaRule) (correlations : List CorrelationRule)
    (absent : Finset String) : List Nat :=
  cyclic (listedBy rules (settled rules correlations absent).1)

def remaining (rules : List SigmaRule) (correlations : List CorrelationRule)
    (absent : Finset String) : List CorrelationRule :=
  without (settled rules correlations absent).1 (onCycles rules correlations absent)

theorem remaining_shorter {rules : List SigmaRule} {correlations : List CorrelationRule}
    {absent : Finset String} (found : onCycles rules correlations absent ≠ []) :
    (remaining rules correlations absent).length < correlations.length := by
  have fewer : (settled rules correlations absent).1.length ≤ correlations.length :=
    (settle_sublist rules _ _).length_le
  have shorter := without_cyclic_shorter (settled rules correlations absent).1
    (List.length_map _) found
  exact Nat.lt_of_lt_of_le shorter fewer

/-- The engine, the errors (those about cycles are in no particular order in the source) and how
    many correlations are not for this endpoint. Without the correlations on a cycle the others
    are looked at again: their indices change. -/
def withAbsent (rules : List SigmaRule) (correlations : List CorrelationRule)
    (absent : Finset String) : LogRuleEngine × List String × Nat :=
  let kept := (settled rules correlations absent).1
  let found := (settled rules correlations absent).2
  if onCycles rules correlations absent = [] then
    (build rules kept (listedBy rules kept), found.errors, found.notApplicable)
  else
    let again := withAbsent rules (remaining rules correlations absent) found.absent
    (again.1, found.errors ++ cyclicErrors kept (onCycles rules correlations absent) ++ again.2.1,
      found.notApplicable + again.2.2)
  termination_by correlations.length
  decreasing_by exact remaining_shorter ‹_›

/-! One event. -/

structure LogEvent where
  services : List String
  categories : List String
  fields : SigmaEvent
  timestamp : Int

structure Detection where
  ruleId : String
  title : String
  description : String
  level : SigmaLevel
  tags : List String
  /-- Set for a correlation. -/
  correlation : Option CorrelationHit
  deriving DecidableEq

def LogRule.detection (r : LogRule) : Detection where
  ruleId := r.rule.id
  title := r.rule.title
  description := r.rule.description
  level := r.rule.level
  tags := r.rule.tags
  correlation := none

def Correlation.detection (c : Correlation) (hit : CorrelationHit) : Detection where
  ruleId := c.rule.id
  title := c.rule.title
  description := c.rule.description
  level := c.rule.level
  tags := c.rule.tags
  correlation := some hit

def LogRuleEngine.candidates (e : LogRuleEngine) (ev : LogEvent) : List Nat :=
  e.everyLog ++ ev.services.flatMap (fun service => (e.byService.lookup service).getD []) ++
    ev.categories.flatMap (fun category => (e.byCategory.lookup category).getD [])

/-- A rule naming a service and a category wants both. -/
def LogRule.holds (r : LogRule) (ev : LogEvent) : Bool :=
  let wantedCategory := r.rule.service.isSome &&
    r.rule.category.any (fun category => decide (category ∉ ev.categories))
  !wantedCategory && r.rule.matchesEvent ev.fields

/-- The rules that hold for an event, in the order they are looked at. -/
def LogRuleEngine.matched (e : LogRuleEngine) (ev : LogEvent) : List (Nat × LogRule) :=
  (e.candidates ev).filterMap (fun i =>
    e.rules[i]?.bind (fun r => if r.holds ev then some (i, r) else none))

structure Draining where
  correlations : List Correlation
  detections : List Detection
  /-- What was pushed last comes first. -/
  pending : List Source

def feed (ev : LogEvent) (source : Source) (d : Draining) (index : Nat) : Draining :=
  match d.correlations[index]? with
  | none => d
  | some c =>
    match c.count source ev.fields ev.timestamp with
    | (counted, none) => { d with correlations := d.correlations.set index counted }
    | (counted, some hit) =>
      { correlations := d.correlations.set index counted
        detections := if c.alerts then d.detections ++ [c.detection hit] else d.detections
        pending := .correlation index :: d.pending }

def counting (countedBy : Map Source (List Nat)) (source : Source) : List Nat :=
  (countedBy.lookup source).getD []

/-- `none` when `fuel` sources are not enough. -/
def drain (countedBy : Map Source (List Nat)) (ev : LogEvent) : Nat → Draining → Option Draining
  | fuel, d =>
    match d.pending with
    | [] => some d
    | source :: rest =>
      match fuel with
      | 0 => none
      | fuel + 1 => drain countedBy ev fuel
          ((counting countedBy source).foldl (feed ev source) { d with pending := rest })

def LogRuleEngine.firstMatches (e : LogRuleEngine) (ev : LogEvent) : Draining where
  correlations := e.correlations
  detections := ((e.matched ev).filter (fun entry => entry.2.alerts)).map
    (fun entry => entry.2.detection)
  pending := ((e.matched ev).map (fun entry => Source.rule entry.1)).reverse

def LogRuleEngine.evaluate (e : LogRuleEngine) (fuel : Nat) (ev : LogEvent) :
    Option (LogRuleEngine × List Detection) :=
  (drain e.countedBy ev fuel (e.firstMatches ev)).map
    (fun d => ({ e with correlations := d.correlations }, d.detections))

/-- The detections of each event of a run. -/
def LogRuleEngine.evaluateAll (e : LogRuleEngine) (fuel : Nat) :
    List LogEvent → Option (List (List Detection))
  | [] => some []
  | ev :: evs =>
    (e.evaluate fuel ev).bind (fun out => (out.1.evaluateAll fuel evs).map (out.2 :: ·))

end SentinelAgent.Scanner
