import Mathlib.Data.Finset.Dedup
import SentinelAgent.Library.Lines
import SentinelAgent.Library.Runs
import SentinelAgent.Scanner.LogRuleEngine

/-!
Detection rules on the logs as they are written: what leaves a pass of the main loop. A rule that
raised an incident for a group stays silent for that group. The rules are an argument; incidents
and records are given by what they are made from. Who touched which file is left out.
-/
namespace SentinelAgent.Logs
open Maps Scanner

def maxIncidentsPerPass : Nat := 20
def maxRecordsPerPass : Nat := 200
def maxSuppressed : Nat := 10000

/- Times are in nanoseconds. -/
def suppression : Int := 15 * 60 * 1000000000

structure DecodedLog where
  timestamp : Option Int
  services : List String
  categories : List String
  fields : SigmaEvent

/- The incidents, and the SIEM events with their time. -/
structure LogFindings where
  incidents : List (Detection × DecodedLog)
  records : List (Detection × DecodedLog × Int)

/- Until when each rule is silent for each group, and what it matched meanwhile. -/
abbrev Suppressed := Map String (Int × Nat)

structure LogAnalysis (E : Type) where
  engine : E
  suppressed : Suppressed

def levelRank : SigmaLevel → Nat
  | .informational => 0
  | .low => 1
  | .medium => 2
  | .high => 3
  | .critical => 4

def isIncident (detection : Detection) : Bool :=
  decide (levelRank .medium ≤ levelRank detection.level)

/- The group of a correlation, or the address and accounts of the event. -/
def groupValues (detection : Detection) (fields : SigmaEvent) : List String :=
  match detection.correlation with
  | some hit => hit.group.map fun entry => entry.2
  | none => ["src_ip", "user", "target_user", "container"].map fun field =>
      (fields.lookup field).getD ""

def suppressionKey (detection : Detection) (fields : SigmaEvent) : String :=
  (groupValues detection fields).foldl (fun key value => key ++ "|" ++ value) detection.ruleId

def Suppressed.recall (suppressed : Suppressed) (now : Int) : Suppressed :=
  Map.retain (fun _ entry => decide (now < entry.1)) suppressed

/- Whether a detection may raise an incident now. -/
def admits (suppressed : Suppressed) (key : String) (now : Int) : Bool × Suppressed :=
  match (suppressed.lookup key).filter fun entry => decide (now < entry.1) with
  | some (silentUntil, matched) => (false, suppressed.insert key (silentUntil, matched + 1))
  | none =>
    let kept := if maxSuppressed ≤ suppressed.size then suppressed.recall now else suppressed
    (true, if kept.size < maxSuppressed then kept.insert key (now + suppression, 0) else kept)

section Evaluation
variable {E : Type} (rules : E → LogEvent → E × List Detection)

/- The state of an evaluation. -/
structure Evaluation (E : Type) where
  engine : E
  suppressed : Suppressed
  findings : LogFindings
  withheld : Nat

/- The time of the event, never later than now. -/
def DecodedLog.time (log : DecodedLog) (now : Int) : Int :=
  (log.timestamp.map fun time => min time now).getD now

def consider (now : Int) (log : DecodedLog) (state : Evaluation E) (detection : Detection) :
    Evaluation E :=
  let record := (detection, log, log.time now)
  if isIncident detection then
    let admitted := admits state.suppressed (suppressionKey detection log.fields) now
    let state := { state with suppressed := admitted.2 }
    if admitted.1 then
      if maxIncidentsPerPass ≤ state.findings.incidents.length then
        { state with withheld := state.withheld + 1 }
      else
        { state with findings :=
          ⟨state.findings.incidents ++ [(detection, log)], state.findings.records ++ [record]⟩ }
    else state
  else if state.findings.records.length < maxRecordsPerPass then
    { state with findings := { state.findings with records := state.findings.records ++ [record] } }
  else state

def evaluateLog (now : Int) (state : Evaluation E) (log : DecodedLog) : Evaluation E :=
  let evaluated := rules state.engine ⟨log.services, log.categories, log.fields, log.time now⟩
  evaluated.2.foldl (consider now log) { state with engine := evaluated.1 }

/- Give the events to the rules, and forget the groups whose time is over. -/
def LogAnalysis.evaluate (analysis : LogAnalysis E) (logs : List DecodedLog) (now : Int) :
    LogAnalysis E × LogFindings :=
  let state := logs.foldl (evaluateLog rules now) ⟨analysis.engine, analysis.suppressed, ⟨[], []⟩, 0⟩
  (⟨state.engine, state.suppressed.recall now⟩, state.findings)

def LogAnalysis.pass (analysis : LogAnalysis E) (logs : List DecodedLog) (now : Int) :
    LogAnalysis E × LogFindings :=
  if logs.isEmpty then (analysis, ⟨[], []⟩) else analysis.evaluate rules logs now

/- What leaves each of some passes, given what each has read and its time. -/
def LogAnalysis.passes (analysis : LogAnalysis E) : List (List DecodedLog × Int) → List LogFindings
  | [] => []
  | (logs, now) :: later =>
    let passed := analysis.pass rules logs now
    passed.2 :: passed.1.passes later

end Evaluation

/-!
That suppression hides repeats. A book is kept of the detections of incident level, in order, with
what became of each: raised, withheld because enough incidents have left the pass, or suppressed.
-/

open Runs

inductive Outcome where
  | raised | withheld | suppressed
  deriving DecidableEq

structure Entry where
  detection : Detection
  log : DecodedLog
  time : Int
  pass : Nat
  outcome : Outcome

def Entry.group (e : Entry) : List String := groupValues e.detection e.log.fields

def Entry.key (e : Entry) : String := suppressionKey e.detection e.log.fields

structure Book where
  suppressed : Suppressed
  clock : Int
  pass : Nat
  raised : Nat
  entries : List Entry

inductive Action where
  | begin (now : Int)
  | detected (detection : Detection) (log : DecodedLog)
  | forget

def detectedOf (d : Detection × DecodedLog) : Action := .detected d.1 d.2

def outcomeOf (admitted : Bool) (raised : Nat) : Outcome :=
  if admitted then if maxIncidentsPerPass ≤ raised then .withheld else .raised else .suppressed

def bookStep (book : Book) : Action → Book
  | .begin now => { book with clock := now, pass := book.pass + 1, raised := 0 }
  | .detected detection log =>
    let admitted := admits book.suppressed (suppressionKey detection log.fields) book.clock
    let outcome := outcomeOf admitted.1 book.raised
    { book with
      suppressed := admitted.2
      raised := if outcome = .raised then book.raised + 1 else book.raised
      entries := book.entries ++ [⟨detection, log, book.clock, book.pass, outcome⟩] }
  | .forget => { book with suppressed := book.suppressed.recall book.clock }

section Trace
variable {E : Type} (rules : E → LogEvent → E × List Detection)

/- The detections of incident level in the logs of a pass. -/
def detectionsOf (now : Int) : E → List DecodedLog → E × List (Detection × DecodedLog)
  | engine, [] => (engine, [])
  | engine, log :: logs =>
    let evaluated := rules engine ⟨log.services, log.categories, log.fields, log.time now⟩
    let rest := detectionsOf now evaluated.1 logs
    (rest.1, (evaluated.2.filter isIncident).map (fun detection => (detection, log)) ++ rest.2)

def actions : E → List (List DecodedLog × Int) → List Action
  | _, [] => []
  | engine, (logs, now) :: later =>
    let found := detectionsOf rules now engine logs
    .begin now :: (found.2.map detectedOf ++
      ((if logs.isEmpty then [] else [.forget]) ++ actions found.1 later))

/- All the detections of incident level. -/
def allDetections : E → List (List DecodedLog × Int) → List (Detection × DecodedLog)
  | _, [] => []
  | engine, (logs, now) :: later =>
    let found := detectionsOf rules now engine logs
    found.2 ++ allDetections found.1 later

def Book.start (now : Int) : Book := ⟨∅, now, 0, 0, []⟩

/- What became of the detections of some passes. -/
def trace (engine : E) (passes : List (List DecodedLog × Int)) : List Entry :=
  (run bookStep (Book.start ((passes.head?.map fun p => p.2).getD 0)) (actions rules engine passes)).entries

end Trace

/- As many keys as are remembered were in their period when the entry was made. -/
def FullAt (entries : List Entry) (i : Nat) (now : Int) : Prop :=
  maxSuppressed ≤ (((entries.take i).filter fun e =>
    e.outcome != .suppressed && decide (now < e.time + suppression)).map Entry.key).toFinset.card

/- Nothing of the key is the separator. -/
def Entry.Separable (e : Entry) : Prop :=
  '|' ∉ e.detection.ruleId.toList ∧ ∀ value ∈ e.group, '|' ∉ value.toList

structure HidesRepeats (entries : List Entry) : Prop where
  once : ∀ i j e f, i < j → entries[i]? = some e → entries[j]? = some f → e.outcome = .raised →
    f.outcome = .raised → e.key = f.key → f.time < e.time + suppression → FullAt entries i e.time
  heard : ∀ j f, entries[j]? = some f → f.outcome = .raised ∨
    (f.outcome = .withheld ∧ maxIncidentsPerPass ≤ ((entries.take j).filter fun e =>
      e.outcome == .raised && e.pass == f.pass).length) ∨
    (f.outcome = .suppressed ∧ ∃ i e, i < j ∧ entries[i]? = some e ∧ e.outcome ≠ .suppressed ∧
      e.key = f.key ∧ f.time < e.time + suppression ∧
      (e.Separable → f.Separable → e.detection.ruleId = f.detection.ruleId ∧ e.group = f.group))

/-! The keys. -/

/- What stands behind the rule's id in a key. -/
def keyTail : List String → List Char
  | [] => []
  | value :: values => '|' :: (value.toList ++ keyTail values)

theorem joined_toList (values : List String) (start : String) :
    (values.foldl (fun key value => key ++ "|" ++ value) start).toList =
      start.toList ++ keyTail values := by
  induction values generalizing start with
  | nil => simp [keyTail]
  | cons value values ih =>
    rw [List.foldl_cons, ih, keyTail]
    simp

theorem joined_injective {values values' : List String} {start start' : List Char}
    (free : '|' ∉ start) (free' : '|' ∉ start') (frees : ∀ value ∈ values, '|' ∉ value.toList)
    (frees' : ∀ value ∈ values', '|' ∉ value.toList)
    (same : start ++ keyTail values = start' ++ keyTail values') :
    start = start' ∧ values = values' := by
  induction values generalizing values' start start' with
  | nil =>
    cases values' with
    | nil => exact ⟨by simpa [keyTail] using same, rfl⟩
    | cons value' values' =>
      have member : '|' ∈ start ++ keyTail [] := by
        rw [same, keyTail]
        exact List.mem_append_right _ List.mem_cons_self
      rw [keyTail, List.append_nil] at member
      exact absurd member free
  | cons value values ih =>
    cases values' with
    | nil =>
      have member : '|' ∈ start' ++ keyTail [] := by
        rw [← same, keyTail]
        exact List.mem_append_right _ List.mem_cons_self
      rw [keyTail, List.append_nil] at member
      exact absurd member free'
    | cons value' values' =>
      obtain ⟨starts, rests⟩ := Lines.cut_first free free' same
      obtain ⟨firsts, others⟩ := ih (frees value List.mem_cons_self)
        (frees' value' List.mem_cons_self)
        (fun v member => frees v (List.mem_cons_of_mem value member))
        (fun v member => frees' v (List.mem_cons_of_mem value' member)) rests
      exact ⟨starts, by rw [String.toList_injective firsts, others]⟩

/-- Without the separator a key tells the rule and the group. -/
theorem key_apart {e f : Entry} (same : e.key = f.key) (free : e.Separable) (free' : f.Separable) :
    e.detection.ruleId = f.detection.ruleId ∧ e.group = f.group := by
  have chars := congrArg String.toList same
  rw [Entry.key, Entry.key, suppressionKey, suppressionKey, joined_toList, joined_toList] at chars
  obtain ⟨rule, group⟩ := joined_injective free.1 free'.1 free.2 free'.2 chars
  exact ⟨String.toList_injective rule, group⟩

/-! What a book keeps. -/

theorem getElem?_snoc {A : Type} {l : List A} {x y : A} {i : Nat} (found : (l ++ [x])[i]? = some y) :
    (i < l.length ∧ l[i]? = some y) ∨ (i = l.length ∧ y = x) := by
  by_cases before : i < l.length
  · rw [List.getElem?_append_left before] at found
    exact Or.inl ⟨before, found⟩
  · have last : i = l.length := by
      have bound := (List.getElem?_eq_some_iff.mp found).1
      rw [List.length_append, List.length_singleton] at bound
      omega
    subst last
    rw [List.getElem?_concat_length] at found
    exact Or.inr ⟨rfl, (Option.some.inj found).symm⟩

theorem fullAt_snoc {entries : List Entry} {last : Entry} {i : Nat} {now : Int}
    (within : i ≤ entries.length) : FullAt (entries ++ [last]) i now ↔ FullAt entries i now := by
  rw [FullAt, FullAt, List.take_append_of_le_length within]

structure Kept (book : Book) : Prop where
  silent : ∀ key silentUntil matched, book.suppressed.lookup key = some (silentUntil, matched) →
    ∃ (i : Nat) (e : Entry), book.entries[i]? = some e ∧ e.outcome ≠ .suppressed ∧ e.key = key ∧
      e.time + suppression = silentUntil
  live : ∀ (i : Nat) (e : Entry), book.entries[i]? = some e → e.outcome ≠ .suppressed →
    FullAt book.entries i e.time ∨ e.time + suppression ≤ book.clock ∨
      ∃ silentUntil matched, book.suppressed.lookup e.key = some (silentUntil, matched) ∧
        e.time + suppression ≤ silentUntil
  hides : HidesRepeats book.entries
  count : book.raised = (book.entries.filter fun e =>
    e.outcome == .raised && e.pass == book.pass).length
  passes : ∀ e ∈ book.entries, e.pass ≤ book.pass

theorem kept_start (now : Int) : Kept (Book.start now) := by
  refine ⟨?_, ?_, ⟨?_, ?_⟩, rfl, ?_⟩
  · intro key silentUntil matched found
    cases found
  · intro i e found
    cases found
  · intro i j e f _ found
    cases found
  · intro j f found
    cases found
  · intro e member
    cases member

theorem kept_begin {book : Book} (kept : Kept book) {now : Int} (later : book.clock ≤ now) :
    Kept (bookStep book (.begin now)) := by
  refine ⟨kept.silent, ?_, kept.hides, ?_, ?_⟩
  · intro i e found admitted
    rcases kept.live i e found admitted with full | past | live
    · exact Or.inl full
    · exact Or.inr (Or.inl (Int.le_trans past later))
    · exact Or.inr (Or.inr live)
  · refine (List.length_eq_zero_iff.mpr (List.filter_eq_nil_iff.mpr ?_)).symm
    intro e member both
    have old := kept.passes e member
    simp only [bookStep, Bool.and_eq_true, beq_iff_eq] at both
    omega
  · intro e member
    exact Nat.le_succ_of_le (kept.passes e member)

theorem lookup_recall {suppressed : Suppressed} {now : Int} {key : String} {entry : Int × Nat} :
    (suppressed.recall now).lookup key = some entry ↔
      suppressed.lookup key = some entry ∧ now < entry.1 := by
  rw [Suppressed.recall, lookup_retain_eq_some, decide_eq_true_iff]

theorem kept_forget {book : Book} (kept : Kept book) : Kept (bookStep book .forget) := by
  refine ⟨?_, ?_, kept.hides, kept.count, kept.passes⟩
  · intro key silentUntil matched found
    exact kept.silent key silentUntil matched (lookup_recall.mp found).1
  · intro i e found admitted
    rcases kept.live i e found admitted with full | past | ⟨silentUntil, matched, there, ends⟩
    · exact Or.inl full
    · exact Or.inr (Or.inl past)
    · by_cases silent : book.clock < silentUntil
      · exact Or.inr (Or.inr ⟨silentUntil, matched, lookup_recall.mpr ⟨there, silent⟩, ends⟩)
      · refine Or.inr (Or.inl ?_)
        simp only [bookStep]
        omega

theorem hides_snoc {entries : List Entry} (hides : HidesRepeats entries) {last : Entry}
    (once_last : ∀ i e, entries[i]? = some e → e.outcome = .raised → last.outcome = .raised →
      e.key = last.key → last.time < e.time + suppression → FullAt entries i e.time)
    (heard_last : last.outcome = .raised ∨
      (last.outcome = .withheld ∧ maxIncidentsPerPass ≤ (entries.filter fun e =>
        e.outcome == .raised && e.pass == last.pass).length) ∨
      (last.outcome = .suppressed ∧ ∃ (i : Nat) (e : Entry), entries[i]? = some e ∧
        e.outcome ≠ .suppressed ∧ e.key = last.key ∧ last.time < e.time + suppression)) :
    HidesRepeats (entries ++ [last]) := by
  refine ⟨?_, ?_⟩
  · intro i j e f before found found' raised raised' same within
    rcases getElem?_snoc found with ⟨there, old⟩ | ⟨rfl, rfl⟩
    · rw [fullAt_snoc (Nat.le_of_lt there)]
      rcases getElem?_snoc found' with ⟨there', old'⟩ | ⟨rfl, rfl⟩
      · exact hides.once i j e f before old old' raised raised' same within
      · exact once_last i e old raised raised' same within
    · have bound := (List.getElem?_eq_some_iff.mp found').1
      rw [List.length_append, List.length_singleton] at bound
      omega
  · intro j f found
    rcases getElem?_snoc found with ⟨there, old⟩ | ⟨rfl, rfl⟩
    · rw [List.take_append_of_le_length (Nat.le_of_lt there)]
      rcases hides.heard j f old with raised | withheld | ⟨silent, i, e, before, first, its⟩
      · exact Or.inl raised
      · exact Or.inr (Or.inl withheld)
      · exact Or.inr (Or.inr ⟨silent, i, e, before,
          by rw [List.getElem?_append_left (Nat.lt_trans before there), first], its⟩)
    · rw [List.take_append_of_le_length (Nat.le_refl _), List.take_length]
      rcases heard_last with raised | withheld | ⟨silent, i, e, first, admitted, same, within⟩
      · exact Or.inl raised
      · exact Or.inr (Or.inl withheld)
      · have before := (List.getElem?_eq_some_iff.mp first).1
        exact Or.inr (Or.inr ⟨silent, i, e, before,
          by rw [List.getElem?_append_left before, first], admitted, same, within,
          key_apart same⟩)

/-- A detection is silenced by a group whose period runs, or it is let through. -/
theorem admits_cases (suppressed : Suppressed) (key : String) (now : Int) :
    (∃ silentUntil matched, suppressed.lookup key = some (silentUntil, matched) ∧
      now < silentUntil ∧
      admits suppressed key now = (false, suppressed.insert key (silentUntil, matched + 1))) ∨
    (∀ silentUntil matched, suppressed.lookup key = some (silentUntil, matched) →
      silentUntil ≤ now) ∧
      (admits suppressed key now).1 = true ∧
      ∃ kept : Suppressed, (kept = suppressed ∨ kept = suppressed.recall now) ∧
        (((admits suppressed key now).2 = kept.insert key (now + suppression, 0)) ∨
          ((admits suppressed key now).2 = suppressed.recall now ∧
            maxSuppressed ≤ (suppressed.recall now).size)) := by
  cases found : (suppressed.lookup key).filter fun entry => decide (now < entry.1) with
  | some entry =>
    obtain ⟨there, silent⟩ := Option.filter_eq_some_iff.mp found
    refine Or.inl ⟨entry.1, entry.2, there, by simpa using silent, ?_⟩
    rw [admits, found]
  | none =>
    refine Or.inr ⟨?_, by rw [admits, found], ?_⟩
    · intro silentUntil matched there
      rw [there] at found
      by_contra silent
      rw [Option.filter_some_pos (by simpa using silent)] at found
      cases found
    · by_cases crowded : maxSuppressed ≤ suppressed.size
      · refine ⟨suppressed.recall now, Or.inr rfl, ?_⟩
        rw [admits, found]
        simp only [crowded, if_true]
        by_cases room : (suppressed.recall now).size < maxSuppressed
        · rw [if_pos room]
          exact Or.inl rfl
        · rw [if_neg room]
          exact Or.inr ⟨rfl, Nat.le_of_not_lt room⟩
      · refine ⟨suppressed, Or.inl rfl, Or.inl ?_⟩
        rw [admits, found]
        simp only [if_neg crowded]
        rw [if_pos (Nat.lt_of_not_le crowded)]

theorem getElem?_kept {entries : List Entry} {last e : Entry} {i : Nat}
    (found : entries[i]? = some e) : (entries ++ [last])[i]? = some e := by
  rw [List.getElem?_append_left (List.getElem?_eq_some_iff.mp found).1, found]

section Detected
variable {book : Book} {detection : Detection} {log : DecodedLog}

/-- The groups that are silent are as many as are remembered. -/
theorem full_of_crowded (kept : Kept book)
    (crowded : maxSuppressed ≤ (book.suppressed.recall book.clock).size) :
    FullAt book.entries book.entries.length book.clock := by
  refine Nat.le_trans crowded (size_le_card ?_)
  intro key entry found
  obtain ⟨there, silent⟩ := lookup_recall.mp found
  obtain ⟨i, e, first, admitted, same, ends⟩ := kept.silent key entry.1 entry.2 there
  rw [List.take_length, List.mem_toFinset, List.mem_map]
  refine ⟨e, List.mem_filter.mpr ⟨List.mem_of_getElem? first, ?_⟩, same⟩
  simp only [Bool.and_eq_true, bne_iff_ne, decide_eq_true_eq]
  exact ⟨admitted, by omega⟩

/-- The next entry, and what is remembered and counted with it. -/
theorem kept_snoc (kept : Kept book) {last : Entry} {suppressed : Suppressed}
    (timed : last.time = book.clock) (placed : last.pass = book.pass)
    (silent : ∀ key silentUntil matched, suppressed.lookup key = some (silentUntil, matched) →
      (∃ matched, book.suppressed.lookup key = some (silentUntil, matched)) ∨
        (last.outcome ≠ .suppressed ∧ last.key = key ∧ last.time + suppression = silentUntil))
    (lives : ∀ key silentUntil matched, book.suppressed.lookup key = some (silentUntil, matched) →
      silentUntil ≤ book.clock ∨ ∃ matched, suppressed.lookup key = some (silentUntil, matched))
    (last_lives : last.outcome ≠ .suppressed →
      FullAt book.entries book.entries.length last.time ∨
        ∃ matched, suppressed.lookup last.key = some (last.time + suppression, matched))
    (hides : HidesRepeats (book.entries ++ [last])) :
    Kept ⟨suppressed, book.clock, book.pass,
      if last.outcome = .raised then book.raised + 1 else book.raised, book.entries ++ [last]⟩ := by
  refine ⟨?_, ?_, hides, ?_, ?_⟩
  · intro key silentUntil matched found
    rcases silent key silentUntil matched found with ⟨matched', old⟩ | ⟨admitted, same, ends⟩
    · obtain ⟨i, e, first, its⟩ := kept.silent key silentUntil matched' old
      exact ⟨i, e, getElem?_kept first, its⟩
    · exact ⟨book.entries.length, last, List.getElem?_concat_length, admitted, same, ends⟩
  · intro i e found admitted
    rcases getElem?_snoc found with ⟨there, old⟩ | ⟨rfl, rfl⟩
    · rw [fullAt_snoc (Nat.le_of_lt there)]
      rcases kept.live i e old admitted with full | past | ⟨silentUntil, matched, found, ends⟩
      · exact Or.inl full
      · exact Or.inr (Or.inl past)
      · rcases lives e.key silentUntil matched found with ended | ⟨matched', still⟩
        · exact Or.inr (Or.inl (Int.le_trans ends ended))
        · exact Or.inr (Or.inr ⟨silentUntil, matched', still, ends⟩)
    · rw [fullAt_snoc (Nat.le_refl _)]
      rcases last_lives admitted with full | ⟨matched, there⟩
      · exact Or.inl full
      · exact Or.inr (Or.inr ⟨_, matched, there, Int.le_refl _⟩)
  · simp only [List.filter_append, List.length_append]
    rw [← kept.count]
    by_cases raised : last.outcome = .raised
    · simp [raised, placed]
    · simp [raised]
  · intro e member
    rcases List.mem_append.mp member with old | here
    · exact kept.passes e old
    · rw [List.mem_singleton.mp here, placed]

theorem kept_silenced (kept : Kept book) {silentUntil : Int} {matched : Nat}
    (found : book.suppressed.lookup (suppressionKey detection log.fields) =
      some (silentUntil, matched)) (silent : book.clock < silentUntil) :
    Kept ⟨book.suppressed.insert (suppressionKey detection log.fields) (silentUntil, matched + 1),
      book.clock, book.pass, book.raised,
      book.entries ++ [⟨detection, log, book.clock, book.pass, .suppressed⟩]⟩ := by
  obtain ⟨i, e, first, admitted, same, ends⟩ := kept.silent _ silentUntil matched found
  have hides : HidesRepeats
      (book.entries ++ [⟨detection, log, book.clock, book.pass, .suppressed⟩]) := by
    apply hides_snoc kept.hides
    · intro i e _ _ raised
      cases raised
    · refine Or.inr (Or.inr ⟨rfl, i, e, first, admitted, same, ?_⟩)
      simp only
      omega
  refine kept_snoc kept rfl rfl ?_ ?_ ?_ hides
  · intro other silentUntil' matched' there
    rw [lookup_insert_eq] at there
    split at there
    · rename_i here
      cases there
      exact Or.inl ⟨matched, by rw [here, found]⟩
    · exact Or.inl ⟨matched', there⟩
  · intro other silentUntil' matched' there
    right
    rw [lookup_insert_eq]
    split
    · rename_i here
      rw [here, found] at there
      cases there
      exact ⟨_, rfl⟩
    · exact ⟨matched', there⟩
  · intro admitted
    exact absurd rfl admitted

theorem kept_let_through (kept : Kept book)
    (ended : ∀ silentUntil matched,
      book.suppressed.lookup (suppressionKey detection log.fields) = some (silentUntil, matched) →
        silentUntil ≤ book.clock)
    {memory after : Suppressed}
    (origin : memory = book.suppressed ∨ memory = book.suppressed.recall book.clock)
    (made : after = memory.insert (suppressionKey detection log.fields) (book.clock + suppression, 0) ∨
      (after = book.suppressed.recall book.clock ∧
        maxSuppressed ≤ (book.suppressed.recall book.clock).size)) :
    Kept ⟨after, book.clock, book.pass,
      if outcomeOf true book.raised = .raised then book.raised + 1 else book.raised,
      book.entries ++ [⟨detection, log, book.clock, book.pass, outcomeOf true book.raised⟩]⟩ := by
  have admitted : outcomeOf true book.raised ≠ .suppressed := by
    rw [outcomeOf, if_pos rfl]
    split
    · simp
    · simp
  have hides : HidesRepeats (book.entries ++
      [⟨detection, log, book.clock, book.pass, outcomeOf true book.raised⟩]) := by
    apply hides_snoc kept.hides
    · intro i e first raised _ same within
      rcases kept.live i e first (by rw [raised]; simp) with full | past | ⟨silentUntil, matched, found, ends⟩
      · exact full
      · simp only at within
        omega
      · rw [same] at found
        have past := ended silentUntil matched found
        simp only at within
        omega
    · rw [outcomeOf, if_pos rfl]
      split
      · rename_i enough
        rw [kept.count] at enough
        exact Or.inr (Or.inl ⟨rfl, enough⟩)
      · exact Or.inl rfl
  have remembered : ∀ key entry, memory.lookup key = some entry →
      book.suppressed.lookup key = some entry := by
    intro key entry found
    rcases origin with whole | recalled
    · rwa [← whole]
    · rw [recalled] at found
      exact (lookup_recall.mp found).1
  have still : ∀ key silentUntil matched,
      book.suppressed.lookup key = some (silentUntil, matched) →
        silentUntil ≤ book.clock ∨ memory.lookup key = some (silentUntil, matched) := by
    intro key silentUntil matched found
    by_cases silent : book.clock < silentUntil
    · rcases origin with whole | recalled
      · exact Or.inr (by rw [whole, found])
      · exact Or.inr (by rw [recalled]; exact lookup_recall.mpr ⟨found, silent⟩)
    · exact Or.inl (Int.not_lt.mp silent)
  refine kept_snoc kept rfl rfl ?_ ?_ ?_ hides
  · intro key silentUntil matched found
    rcases made with inserted | ⟨recalled, _⟩
    · rw [inserted, lookup_insert_eq] at found
      split at found
      · rename_i here
        cases found
        exact Or.inr ⟨admitted, here.symm, rfl⟩
      · exact Or.inl ⟨matched, remembered key _ found⟩
    · rw [recalled] at found
      exact Or.inl ⟨matched, (lookup_recall.mp found).1⟩
  · intro key silentUntil matched found
    rcases made with inserted | ⟨recalled, _⟩
    · by_cases here : key = suppressionKey detection log.fields
      · rw [here] at found
        exact Or.inl (ended silentUntil matched found)
      · rcases still key silentUntil matched found with past | there
        · exact Or.inl past
        · exact Or.inr ⟨matched, by rw [inserted, lookup_insert_eq, if_neg here, there]⟩
    · by_cases silent : book.clock < silentUntil
      · exact Or.inr ⟨matched, by rw [recalled]; exact lookup_recall.mpr ⟨found, silent⟩⟩
      · exact Or.inl (Int.not_lt.mp silent)
  · intro _
    rcases made with inserted | ⟨_, crowded⟩
    · refine Or.inr ⟨0, ?_⟩
      rw [inserted, lookup_insert_eq]
      exact if_pos rfl
    · exact Or.inl (full_of_crowded kept crowded)

theorem kept_detected (kept : Kept book) : Kept (bookStep book (.detected detection log)) := by
  rcases admits_cases book.suppressed (suppressionKey detection log.fields) book.clock with
    ⟨silentUntil, matched, found, silent, made⟩ | ⟨ended, let_through, memory, origin, made⟩
  · simp only [bookStep, made]
    exact kept_silenced kept found silent
  · simp only [bookStep, let_through]
    exact kept_let_through kept ended origin made

end Detected

/-! The runs of an analysis. -/

/- The time of the passes does not go back. -/
def Forward (book : Book) : Action → Prop
  | .begin now => book.clock ≤ now
  | _ => True

theorem kept_step {book : Book} {action : Action} (kept : Kept book) (forward : Forward book action) :
    Kept (bookStep book action) := by
  cases action with
  | begin now => exact kept_begin kept forward
  | detected detection log => exact kept_detected kept
  | forget => exact kept_forget kept

section Runs
variable {E : Type} {rules : E → LogEvent → E × List Detection}

def raisedOf (entries : List Entry) : List (Detection × DecodedLog) :=
  (entries.filter fun e => e.outcome == .raised).map fun e => (e.detection, e.log)

/- The evaluation of a pass and the book at the same place. -/
structure Matches (state : Evaluation E) (book : Book) (before : List (Detection × DecodedLog)) :
    Prop where
  suppressed : state.suppressed = book.suppressed
  count : state.findings.incidents.length = book.raised
  raised : before ++ state.findings.incidents = raisedOf book.entries

theorem raisedOf_snoc (entries : List Entry) (e : Entry) : raisedOf (entries ++ [e]) =
    raisedOf entries ++ if e.outcome = .raised then [(e.detection, e.log)] else [] := by
  rw [raisedOf, List.filter_append, List.map_append, ← raisedOf]
  by_cases raised : e.outcome = .raised
  · simp [raised]
  · simp [raised]

theorem matches_consider {state : Evaluation E} {book : Book}
    {before : List (Detection × DecodedLog)} (same : Matches state book before)
    (detection : Detection) (log : DecodedLog) :
    Matches (consider book.clock log state detection)
      (if isIncident detection then bookStep book (detectedOf (detection, log)) else book)
      before := by
  by_cases incident : isIncident detection = true
  · simp only [consider, incident, if_true, bookStep, detectedOf, same.suppressed]
    cases admitted : (admits book.suppressed (suppressionKey detection log.fields) book.clock).1 with
    | false =>
      refine ⟨rfl, same.count, ?_⟩
      rw [raisedOf_snoc]
      simpa [outcomeOf] using same.raised
    | true =>
      by_cases enough : maxIncidentsPerPass ≤ book.raised
      · have silent : outcomeOf true book.raised = .withheld := by
          rw [outcomeOf, if_pos rfl, if_pos enough]
        simp only [silent, same.count, enough, if_true]
        refine ⟨rfl, same.count, ?_⟩
        rw [raisedOf_snoc]
        simpa using same.raised
      · have raised : outcomeOf true book.raised = .raised := by
          rw [outcomeOf, if_pos rfl, if_neg enough]
        simp only [raised, same.count, enough, if_true, if_false]
        refine ⟨rfl, ?_, ?_⟩
        · simp [same.count]
        · rw [raisedOf_snoc, if_pos rfl, ← same.raised, List.append_assoc]
  · simp only [consider, if_neg incident]
    split
    · exact ⟨same.suppressed, same.count, same.raised⟩
    · exact same

theorem matches_detections {state : Evaluation E} {book : Book}
    {before : List (Detection × DecodedLog)} (same : Matches state book before)
    (log : DecodedLog) (detections : List Detection) :
    Matches (detections.foldl (consider book.clock log) state)
      (run bookStep book (((detections.filter isIncident).map fun d => (d, log)).map detectedOf))
      before := by
  induction detections generalizing state book with
  | nil => exact same
  | cons detection detections ih =>
    have next := matches_consider same detection log
    rw [List.foldl_cons]
    by_cases incident : isIncident detection = true
    · rw [if_pos incident] at next
      rw [List.filter_cons_of_pos incident]
      exact ih next
    · rw [if_neg incident] at next
      rw [List.filter_cons_of_neg incident]
      exact ih next

theorem clock_run (book : Book) (ds : List (Detection × DecodedLog)) :
    (run bookStep book (ds.map detectedOf)).clock = book.clock := by
  induction ds generalizing book with
  | nil => rfl
  | cons d ds ih => exact ih (bookStep book (detectedOf d))

theorem consider_engine (now : Int) (log : DecodedLog) (state : Evaluation E)
    (detection : Detection) : (consider now log state detection).engine = state.engine := by
  unfold consider
  simp only
  split_ifs <;> rfl

theorem foldl_engine (now : Int) (log : DecodedLog) (state : Evaluation E)
    (detections : List Detection) :
    (detections.foldl (consider now log) state).engine = state.engine := by
  induction detections generalizing state with
  | nil => rfl
  | cons detection detections ih => rw [List.foldl_cons, ih, consider_engine]

theorem matches_logs {state : Evaluation E} {book : Book}
    {before : List (Detection × DecodedLog)} (same : Matches state book before)
    (logs : List DecodedLog) :
    Matches (logs.foldl (evaluateLog rules book.clock) state)
        (run bookStep book ((detectionsOf rules book.clock state.engine logs).2.map detectedOf))
        before ∧
      (logs.foldl (evaluateLog rules book.clock) state).engine =
        (detectionsOf rules book.clock state.engine logs).1 := by
  induction logs generalizing state book with
  | nil => exact ⟨same, rfl⟩
  | cons log logs ih =>
    rw [List.foldl_cons, detectionsOf]
    simp only [List.map_append, run_append]
    generalize evaluated_eq : rules state.engine
      ⟨log.services, log.categories, log.fields, log.time book.clock⟩ = evaluated
    have entered : Matches { state with engine := evaluated.1 } book before :=
      ⟨same.suppressed, same.count, same.raised⟩
    have next := matches_detections entered log evaluated.2
    have engine : (evaluateLog rules book.clock state log).engine = evaluated.1 := by
      rw [evaluateLog, foldl_engine, evaluated_eq]
    have after : evaluateLog rules book.clock state log =
        evaluated.2.foldl (consider book.clock log) { state with engine := evaluated.1 } := by
      rw [evaluateLog, evaluated_eq]
    rw [← after] at next
    have rest := ih next
    rw [clock_run, engine] at rest
    exact rest

theorem matches_pass {analysis : LogAnalysis E} {book : Book} {before : List (Detection × DecodedLog)}
    (suppressed : analysis.suppressed = book.suppressed) (raised : before = raisedOf book.entries)
    (logs : List DecodedLog) (now : Int) :
    let found := detectionsOf rules now analysis.engine logs
    let passed := analysis.pass rules logs now
    let book' := run bookStep book
      (.begin now :: (found.2.map detectedOf ++ if logs.isEmpty then [] else [.forget]))
    passed.1.engine = found.1 ∧ passed.1.suppressed = book'.suppressed ∧
      before ++ passed.2.incidents = raisedOf book'.entries := by
  have entered : Matches (⟨analysis.engine, analysis.suppressed, ⟨[], []⟩, 0⟩ : Evaluation E)
      (bookStep book (.begin now)) before :=
    ⟨suppressed, rfl, by rw [List.append_nil]; exact raised⟩
  cases logs with
  | nil => exact ⟨rfl, suppressed, entered.raised⟩
  | cons log logs =>
    have evaluated : Matches ((log :: logs).foldl (evaluateLog rules now) _) _ before ∧ _ =
        (detectionsOf rules now analysis.engine (log :: logs)).1 := matches_logs entered (log :: logs)
    obtain ⟨same, engine⟩ := evaluated
    simp only [run_cons, run_append]
    refine ⟨engine, ?_, same.raised⟩
    have clock := clock_run (bookStep book (.begin now))
      (detectionsOf rules now analysis.engine (log :: logs)).2
    have forgotten := same.suppressed
    simp only [LogAnalysis.pass, LogAnalysis.evaluate, List.isEmpty_cons, if_false, Bool.false_eq_true,
      run_cons, run_nil, bookStep] at forgotten clock ⊢
    rw [forgotten, clock]

/-- What leaves the passes as incidents is what the trace says is raised. -/
theorem passes_incidents (analysis : LogAnalysis E) (book : Book)
    (suppressed : analysis.suppressed = book.suppressed)
    (passes : List (List DecodedLog × Int)) :
    raisedOf book.entries ++ (analysis.passes rules passes).flatMap LogFindings.incidents =
      raisedOf (run bookStep book (actions rules analysis.engine passes)).entries := by
  induction passes generalizing analysis book with
  | nil => simp [LogAnalysis.passes, actions]
  | cons first passes ih =>
    obtain ⟨logs, now⟩ := first
    obtain ⟨engine, memory, incidents⟩ := @matches_pass E rules analysis book _ suppressed rfl logs now
    have rest := ih (analysis.pass rules logs now).1 _ memory
    rw [LogAnalysis.passes, List.flatMap_cons, actions, ← List.append_assoc, incidents, rest, engine,
      ← run_append]
    simp only [List.cons_append, List.append_assoc]

def noted (book : Book) : List (Detection × DecodedLog) :=
  book.entries.map fun e => (e.detection, e.log)

theorem noted_run (book : Book) (ds : List (Detection × DecodedLog)) :
    noted (run bookStep book (ds.map detectedOf)) = noted book ++ ds := by
  induction ds generalizing book with
  | nil => exact (List.append_nil _).symm
  | cons d ds ih =>
    rw [List.map_cons, run_cons, ih]
    simp [noted, bookStep, detectedOf]

/-- The trace has every detection of incident level. -/
theorem noted_actions (engine : E) (book : Book) (passes : List (List DecodedLog × Int)) :
    noted (run bookStep book (actions rules engine passes)) =
      noted book ++ allDetections rules engine passes := by
  induction passes generalizing engine book with
  | nil => exact (List.append_nil _).symm
  | cons first passes ih =>
    obtain ⟨logs, now⟩ := first
    rw [actions, run_cons, run_append, run_append, ih, allDetections, ← List.append_assoc]
    congr 1
    have same : ∀ book, noted (run bookStep book (if logs.isEmpty then [] else [.forget])) =
        noted book := by
      intro book
      split
      · rfl
      · rfl
    rw [same, noted_run]
    rfl

theorem along_detected (book : Book) (ds : List (Detection × DecodedLog)) (later : List Action)
    (rest : Along bookStep Forward (run bookStep book (ds.map detectedOf)) later) :
    Along bookStep Forward book (ds.map detectedOf ++ later) := by
  induction ds generalizing book with
  | nil => exact rest
  | cons d ds ih => exact ⟨trivial, ih _ rest⟩

theorem along_actions (engine : E) (book : Book) {passes : List (List DecodedLog × Int)}
    (started : ∀ p ∈ passes, book.clock ≤ p.2) (ordered : passes.Pairwise fun p q => p.2 ≤ q.2) :
    Along bookStep Forward book (actions rules engine passes) := by
  induction passes generalizing engine book with
  | nil => trivial
  | cons first passes ih =>
    obtain ⟨logs, now⟩ := first
    obtain ⟨first_least, rest_ordered⟩ := List.pairwise_cons.mp ordered
    refine ⟨started _ List.mem_cons_self, along_detected _ _ _ ?_⟩
    have later : ∀ book : Book, book.clock = now → Along bookStep Forward book
        (actions rules (detectionsOf rules now engine logs).1 passes) := by
      intro book clock
      exact ih _ book (fun p member => by rw [clock]; exact first_least p member) rest_ordered
    have clock := clock_run (bookStep book (.begin now)) (detectionsOf rules now engine logs).2
    split
    · exact later _ clock
    · exact ⟨trivial, later _ clock⟩

end Runs

section Addresses

/- One rule, for every event. -/
def everyEvent : SigmaRule where
  id := "r"
  title := "r"
  description := ""
  level := .high
  tags := []
  category := none
  service := none
  name := none
  matchesEvent _ := true

def logRules (engine : LogRuleEngine) (event : LogEvent) : LogRuleEngine × List Detection :=
  (engine.evaluate 2 event).getD (engine, [])

def logFrom (address : Nat) : DecodedLog :=
  ⟨none, [], [], Finmap.insert "src_ip" (toString address) ∅⟩

end Addresses

end SentinelAgent.Logs
