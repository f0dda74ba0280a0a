import SentinelAgent.Library.Lines
import SentinelAgent.Library.Runs
import SentinelAgent.Scanner.RegistryMonitor
import Mathlib.Data.Finset.Card
import Mathlib.Data.Finset.Dedup
import Mathlib.Data.List.Find

/-!
What the checks of the registry report, over readings of it and starts of the agent: each check
against the last reading taken, up to its limit.
-/
namespace SentinelAgent.RegistryMonitor
open Core Ordered Runs Text

/- A reading of the registry, and the keys of the configuration it was made with. -/
structure Reading where
  reader : RegistryReader
  extra : List String

namespace Reading

def values (r : Reading) : List Value := valuesRead r.reader r.extra

def snapshot (r : Reading) : Snapshot := snapshotWith r.reader r.extra

/- What the reading shows under an entry. -/
def shown (r : Reading) (e : String) : Option String := (lastOf Value.entry r.values e).map Value.data

/- What it shows of a value of a key. -/
def data (r : Reading) (key name : String) : Option String :=
  (lastOf (fun value : Value => (value.key, value.name)) r.values (key, name)).map Value.data

def keys (r : Reading) : List String := watched.map Watched.key ++ r.extra ++ userKeys r.reader

/- The key was read. The sub-keys of one are asked for together, by a value they hold, and the
   answer does not tell those that cannot be read from those without it. -/
def reads (r : Reading) (key : String) : Bool :=
  (r.keys.contains key && (r.reader.values key).isSome) || beginsWith ifeo key

/- No other value of the reading has the entry of this one. -/
def Alone (r : Reading) (key name : String) : Prop :=
  ∀ value ∈ r.values, value.entry = entry key name → value.key = key ∧ value.name = name

instance (r : Reading) (key name : String) : Decidable (r.Alone key name) :=
  inferInstanceAs (Decidable (∀ value ∈ r.values, _ → _ ∧ _))

def entries (r : Reading) : Finset String := (r.values.map Value.entry).toFinset

/- The entries before this one that the two readings show differently. -/
def differBefore (previous current : Reading) (e : String) : Finset String :=
  current.entries.filter fun other =>
    compare other e = .lt ∧ previous.shown other ≠ current.shown other

end Reading

inductive Action where
  | check (now : Int) (reader : RegistryReader) (fileWritten : Bool)
  | start (fileRead : Bool) (keys : List String)

/- The readings taken that the monitor has in memory, and those its file has, the last first. -/
structure Watch where
  monitor : Monitor
  memory : List Reading
  disk : List Reading

def Watch.start : Watch := ⟨⟨none, [], none⟩, [], []⟩

/- Whether a reading that shows nothing comes after one that shows something. -/
def passedOver (memory : List Reading) (current : Reading) : Bool :=
  current.values.isEmpty && (memory.head?.any fun previous => !previous.values.isEmpty)

def watchStep (s : Watch) : Action → Watch
  | .check now reader fileWritten =>
    let current : Reading := ⟨reader, s.monitor.extraKeys⟩
    let checked := (s.monitor.check now reader fileWritten).1
    if passedOver s.memory current then { s with monitor := checked }
    else { monitor := checked
           memory := current :: s.memory
           disk := if s.monitor.holds current.snapshot || !fileWritten then s.disk
             else current :: s.memory }
  | .start fileRead keys =>
    { s with
      monitor := (s.monitor.withReader fileRead).withKeys keys
      memory := if fileRead then s.disk else [] }

/- What the last reading that read the key shows of the value. -/
def lastData (memory : List Reading) (key name : String) : Option String :=
  (memory.find? fun r => r.reads key).bind fun r => r.data key name

def told (field : String) (incident : SecurityIncident (Json Nat)) : Option String :=
  (incident.evidence.get field).bind Json.asStr

def about (e : String) (incident : SecurityIncident (Json Nat)) : Bool :=
  told "entry" incident == some e

/- The value is there, and not as it was when its key was last read. -/
def Changed (memory : List Reading) (current : Reading) (key name : String) : Prop :=
  current.data key name ≠ none ∧ current.data key name ≠ lastData memory key name

instance (memory : List Reading) (current : Reading) (key name : String) :
    Decidable (Changed memory current key name) :=
  inferInstanceAs (Decidable (_ ∧ _))

/- The report has so many incidents about the value, and they tell what it was and what it is. -/
structure Reported (memory : List Reading) (current : Reading) (key name : String)
    (report : List (SecurityIncident (Json Nat))) (times : Nat) : Prop where
  count : report.countP (about (entry key name)) = times
  content : ∀ incident ∈ report, about (entry key name) incident = true →
    told "before" incident = lastData memory key name ∧
      told "after" incident = current.data key name

namespace Reading
variable {r previous current : Reading} {key name e : String}

theorem getElem?_snapshot (r : Reading) (e : String) : r.snapshot[e]? = r.shown e :=
  getElem?_collectAs Value.data r.values e

theorem shown_eq_none : r.shown e = none ↔ e ∉ r.entries := by
  rw [shown, Option.map_eq_none_iff, lastOf_eq_none]
  simp [entries]

theorem shown_entry (alone : r.Alone key name) : r.shown (entry key name) = r.data key name := by
  refine congrArg (Option.map Value.data) (List.find?_congr fun value member => ?_)
  have one_way := alone value (List.mem_reverse.mp member)
  simp only [decide_eq_decide, Prod.mk.injEq]
  constructor
  · exact one_way
  · rintro ⟨rfl, rfl⟩
    rfl

end Reading

/- A map that shows what the reading does. -/
def Shows (m : Snapshot) (r : Reading) : Prop := ∀ e, m[e]? = r.shown e

theorem isEmpty_of_shows {m : Snapshot} {r : Reading} (shows_it : Shows m r) :
    m.isEmpty = r.values.isEmpty := by
  rw [Bool.eq_iff_iff, Std.TreeMap.isEmpty_iff_forall_not_mem, List.isEmpty_iff]
  constructor
  · intro empty
    refine List.eq_nil_iff_forall_not_mem.mpr fun value member => ?_
    have absent := empty value.entry
    rw [Std.TreeMap.mem_iff_isSome_getElem?, shows_it] at absent
    have missing : r.shown value.entry = none := by simpa using absent
    refine Reading.shown_eq_none.mp missing ?_
    simpa [Reading.entries] using ⟨value, member, rfl⟩
  · intro none_read e
    rw [Std.TreeMap.mem_iff_isSome_getElem?, shows_it, Reading.shown_eq_none.mpr]
    · simp
    · simp [Reading.entries, none_read]

section Changes
variable {before after : Snapshot} {previous current : Reading} {c : RegistryChange} {e : String}

theorem mem_changes (before_shows : Shows before previous) (after_shows : Shows after current) :
    c ∈ changes before after ↔ previous.shown c.entry = c.before ∧
      current.shown c.entry = some c.after ∧ c.before ≠ some c.after := by
  simp only [changes, List.mem_filterMap, Prod.exists,
    Std.TreeMap.mem_toList_iff_getElem?_eq_some, after_shows _, changeOf, before_shows _]
  constructor
  · rintro ⟨e, data, present, change⟩
    split at change
    · cases change
    · rename_i differs
      cases change
      exact ⟨rfl, present, differs⟩
  · rintro ⟨was, present, differs⟩
    refine ⟨c.entry, c.after, present, ?_⟩
    rw [was, if_neg differs]

/- The changes stand in the order of their entries. -/
theorem changes_sorted (before after : Snapshot) :
    (changes before after).Pairwise fun a b => compare a.entry b.entry = .lt := by
  refine List.Pairwise.filterMap (changeOf before) ?_ Std.TreeMap.ordered_keys_toList
  intro a b ordered c of_a d of_b
  have named : ∀ {x : String × String} {y : RegistryChange}, changeOf before x = some y →
      y.entry = x.1 := by
    intro x y change
    unfold changeOf at change
    split at change
    · cases change
    · cases change
      rfl
  rw [named of_a, named of_b]
  exact ordered

theorem entries_nodup (before after : Snapshot) :
    ((changes before after).map RegistryChange.entry).Nodup := by
  refine List.pairwise_map.mpr ((changes_sorted before after).imp fun ordered same => ?_)
  rw [same, Std.ReflOrd.compare_self] at ordered
  cases ordered

/- As many changes come before an entry as entries before it differ. -/
theorem changes_before (before_shows : Shows before previous) (after_shows : Shows after current) :
    ((changes before after).filter fun c => compare c.entry e = .lt).length =
      (Reading.differBefore previous current e).card := by
  have distinct : (((changes before after).filter fun c => compare c.entry e = .lt).map
      RegistryChange.entry).Nodup :=
    (entries_nodup before after).sublist (List.filter_sublist.map _)
  rw [← List.length_map RegistryChange.entry, ← List.toFinset_card_of_nodup distinct]
  refine congrArg Finset.card (Finset.ext fun other => ?_)
  simp only [List.mem_toFinset, List.mem_map, List.mem_filter, decide_eq_true_eq,
    Reading.differBefore, Finset.mem_filter]
  constructor
  · rintro ⟨c, ⟨change, earlier⟩, rfl⟩
    obtain ⟨was, is_now, differs⟩ := (mem_changes before_shows after_shows).mp change
    refine ⟨?_, earlier, ?_⟩
    · by_contra absent
      rw [Reading.shown_eq_none.mpr absent] at is_now
      cases is_now
    · rw [was, is_now]
      exact differs
  · rintro ⟨present, earlier, differs⟩
    cases is_now : current.shown other with
    | none => exact absurd present (Reading.shown_eq_none.mp is_now)
    | some data =>
      rw [is_now] at differs
      exact ⟨⟨other, previous.shown other, data⟩,
        ⟨(mem_changes before_shows after_shows).mpr ⟨rfl, is_now, differs⟩, earlier⟩, rfl⟩

/- A change is among the first reported when few entries before its own differ. -/
theorem mem_first_changes (before_shows : Shows before previous)
    (after_shows : Shows after current) :
    c ∈ (changes before after).take maxChangesPerReading ↔ c ∈ changes before after ∧
      (Reading.differBefore previous current c.entry).card < maxChangesPerReading := by
  rw [mem_take_iff (fun a b ordered => ?_) (changes_sorted before after),
    changes_before before_shows after_shows]
  rw [Std.OrientedOrd.eq_swap, ordered]
  simp

section Told
variable {now : Int}

theorem told_entry : told "entry" (c.incident now) = some c.entry := by
  have field : (c.incident now).evidence.get "entry" = some (jsonText c.entry) := rfl
  simp [told, field, jsonText, Json.asStr]

theorem told_before : told "before" (c.incident now) = c.before := by
  obtain ⟨e, before, after⟩ := c
  cases before with
  | none => rfl
  | some data =>
    have field : (RegistryChange.incident now ⟨e, some data, after⟩).evidence.get "before" =
        some (jsonText data) := rfl
    simp [told, field, jsonText, Json.asStr]

theorem told_after : told "after" (c.incident now) = some c.after := by
  have field : (c.incident now).evidence.get "after" = some (jsonText c.after) := rfl
  simp [told, field, jsonText, Json.asStr]

end Told

/- The incidents about an entry: one, if a change of it is among the first. -/
theorem countP_report (now : Int) (before after : Snapshot) (e : String) :
    (((changes before after).take maxChangesPerReading).map (RegistryChange.incident now)).countP
        (about e) =
      if ∃ c ∈ (changes before after).take maxChangesPerReading, c.entry = e then 1 else 0 := by
  have distinct : (((changes before after).take maxChangesPerReading).map
      RegistryChange.entry).Nodup :=
    (entries_nodup before after).sublist ((List.take_sublist _ _).map _)
  have counted := distinct.count (a := e)
  rw [List.count, List.countP_map] at counted
  simp only [List.mem_map] at counted
  rw [List.countP_map, ← counted]
  refine List.countP_congr fun c _ => ?_
  simp [about, told_entry]

/- A change of the entry of a value is one of the value, unless another has its entry. -/
theorem mem_changes_entry (before_shows : Shows before previous)
    (after_shows : Shows after current) {key name : String} (old_alone : previous.Alone key name)
    (new_alone : current.Alone key name) :
    (∃ c ∈ changes before after, c.entry = entry key name) ↔
      current.data key name ≠ none ∧ current.data key name ≠ previous.data key name := by
  simp only [mem_changes before_shows after_shows]
  constructor
  · rintro ⟨c, ⟨was, is_now, differs⟩, named⟩
    rw [named, Reading.shown_entry old_alone] at was
    rw [named, Reading.shown_entry new_alone] at is_now
    rw [is_now, was]
    exact ⟨Option.some_ne_none _, differs.symm⟩
  · rintro ⟨present, differs⟩
    obtain ⟨data, is_now⟩ := Option.ne_none_iff_exists'.mp present
    refine ⟨⟨entry key name, previous.data key name, data⟩, ⟨?_, ?_, ?_⟩, rfl⟩
    · exact Reading.shown_entry old_alone
    · exact (Reading.shown_entry new_alone).trans is_now
    · rw [is_now] at differs
      exact differs.symm

theorem reported_changes (now : Int) (before_shows : Shows before previous)
    (after_shows : Shows after current) {memory : List Reading} {key name : String}
    (last : lastData memory key name = previous.data key name)
    (old_alone : previous.Alone key name) (new_alone : current.Alone key name) :
    Reported memory current key name
      (((changes before after).take maxChangesPerReading).map (RegistryChange.incident now))
      (if Changed memory current key name ∧ (Reading.differBefore previous current
        (entry key name)).card < maxChangesPerReading then 1 else 0) where
  count := by
    rw [countP_report]
    refine if_congr ?_ rfl rfl
    unfold Changed
    rw [last, ← mem_changes_entry before_shows after_shows old_alone new_alone]
    constructor
    · rintro ⟨c, first, named⟩
      obtain ⟨change, few⟩ := (mem_first_changes before_shows after_shows).mp first
      exact ⟨⟨c, change, named⟩, named ▸ few⟩
    · rintro ⟨⟨c, change, named⟩, few⟩
      exact ⟨c, (mem_first_changes before_shows after_shows).mpr ⟨change, named ▸ few⟩, named⟩
  content := by
    intro incident reported tells
    obtain ⟨c, first, rfl⟩ := List.mem_map.mp reported
    have named : c.entry = entry key name := by simpa [about, told_entry] using tells
    obtain ⟨was, is_now, _⟩ :=
      (mem_changes before_shows after_shows).mp (List.mem_of_mem_take first)
    rw [named, Reading.shown_entry old_alone] at was
    rw [named, Reading.shown_entry new_alone] at is_now
    rw [told_before, told_after, last, was, is_now]
    exact ⟨rfl, rfl⟩

end Changes

/- What is kept shows what the last of the readings does. -/
inductive Remembers : Option Snapshot → List Reading → Prop
  | nothing : Remembers none []
  | reading {m : Snapshot} {r : Reading} {earlier : List Reading} (shows_it : Shows m r) :
      Remembers (some m) (r :: earlier)

structure Watch.Faithful (s : Watch) : Prop where
  memory : Remembers s.monitor.saved s.memory
  disk : Remembers s.monitor.stored s.disk

theorem start_faithful : Watch.start.Faithful := ⟨.nothing, .nothing⟩

theorem shows_snapshot (r : Reading) : Shows r.snapshot r := r.getElem?_snapshot

section Check
variable {s : Watch} {r : Reading}

/- A reading that is taken is remembered, in memory and, when it is written, in the file. -/
theorem remembers_save (faithful : s.Faithful) (fileWritten : Bool) :
    Remembers (s.monitor.save r.snapshot fileWritten).saved (r :: s.memory) ∧
      Remembers (s.monitor.save r.snapshot fileWritten).stored
        (if s.monitor.holds r.snapshot || !fileWritten then s.disk else r :: s.memory) := by
  unfold Monitor.save
  cases held : s.monitor.holds r.snapshot with
  | true =>
    refine ⟨?_, faithful.disk⟩
    have same : s.monitor.saved.map Std.TreeMap.toList = some r.snapshot.toList :=
      eq_of_beq held
    obtain ⟨m, saved, same⟩ := Option.map_eq_some_iff.mp same
    rw [if_pos rfl, saved]
    exact .reading fun e => (getElem?_of_toList same e).trans (r.getElem?_snapshot e)
  | false =>
    refine ⟨.reading (shows_snapshot r), ?_⟩
    cases fileWritten with
    | true => exact .reading (shows_snapshot r)
    | false => exact faithful.disk

theorem skips_eq {previous : Reading} {m : Snapshot} (shows_it : Shows m previous) :
    skips m r.snapshot = (r.values.isEmpty && !previous.values.isEmpty) := by
  rw [skips, isEmpty_of_shows shows_it, isEmpty_of_shows (shows_snapshot r)]

/- What a check does, in terms of the readings. -/
theorem check_cases (faithful : s.Faithful) (now : Int) (reader : RegistryReader)
    (fileWritten : Bool) (made : r = ⟨reader, s.monitor.extraKeys⟩) :
    (passedOver s.memory r = true ∧ s.monitor.check now reader fileWritten = (s.monitor, [])) ∨
      (passedOver s.memory r = false ∧
        (s.monitor.check now reader fileWritten).1 = s.monitor.save r.snapshot fileWritten) := by
  subst made
  obtain ⟨monitor, memory, disk⟩ := s
  obtain ⟨saved, extra, stored⟩ := monitor
  cases faithful.memory with
  | nothing => exact Or.inr ⟨by simp [passedOver], rfl⟩
  | @reading m previous earlier shows_it =>
    have skipped := skips_eq (r := ⟨reader, extra⟩) shows_it
    have passed : passedOver (previous :: earlier) ⟨reader, extra⟩ =
        skips m (snapshotWith reader extra) := by
      rw [show snapshotWith reader extra = Reading.snapshot ⟨reader, extra⟩ from rfl, skipped]
      simp [passedOver]
    simp only [passed, Monitor.check]
    cases skips m (snapshotWith reader extra) with
    | true => exact Or.inl ⟨rfl, rfl⟩
    | false => exact Or.inr ⟨rfl, rfl⟩

end Check

theorem faithful_step {s : Watch} (faithful : s.Faithful) (action : Action) :
    (watchStep s action).Faithful := by
  cases action with
  | check now reader fileWritten =>
    simp only [watchStep]
    obtain ⟨passed, checked⟩ | ⟨taken, checked⟩ :=
      check_cases faithful now reader fileWritten rfl
    · rw [if_pos passed, checked]
      exact faithful
    · rw [if_neg (ne_true_of_eq_false taken), checked]
      obtain ⟨in_memory, on_disk⟩ := remembers_save faithful fileWritten
      exact ⟨in_memory, on_disk⟩
  | start fileRead keys =>
    cases fileRead with
    | true => exact ⟨faithful.disk, faithful.disk⟩
    | false => exact ⟨.nothing, faithful.disk⟩

theorem run_faithful (actions : List Action) : (run watchStep .start actions).Faithful :=
  run_invariant (I := Watch.Faithful) (fun _ action faithful => faithful_step faithful action)
    start_faithful actions

/- A check that is not passed over reports the changes from the last reading taken. -/
theorem check_reports {s : Watch} (faithful : s.Faithful) {previous : Reading}
    {earlier : List Reading} (taken : s.memory = previous :: earlier) (now : Int)
    (reader : RegistryReader) (fileWritten : Bool) :
    ((s.monitor.check now reader fileWritten).2 = [] ∧
        valuesRead reader s.monitor.extraKeys = []) ∨
      ∃ before, Shows before previous ∧ (s.monitor.check now reader fileWritten).2 =
        ((changes before (snapshotWith reader s.monitor.extraKeys)).take
          maxChangesPerReading).map (RegistryChange.incident now) := by
  have remembered := faithful.memory
  rw [taken] at remembered
  obtain ⟨before, saved, shows_it⟩ : ∃ m, s.monitor.saved = some m ∧ Shows m previous := by
    cases kept : s.monitor.saved with
    | none =>
      rw [kept] at remembered
      cases remembered
    | some m =>
      rw [kept] at remembered
      cases remembered with
      | reading shows_it => exact ⟨m, rfl, shows_it⟩
  have skipped := skips_eq (r := ⟨reader, s.monitor.extraKeys⟩) shows_it
  simp only [Monitor.check, saved]
  cases skips_it : skips before (snapshotWith reader s.monitor.extraKeys) with
  | true =>
    refine Or.inl ⟨rfl, ?_⟩
    rw [Reading.snapshot, skips_it] at skipped
    exact List.isEmpty_iff.mp (Bool.and_eq_true_iff.mp skipped.symm).1
  | false => exact Or.inr ⟨before, shows_it, rfl⟩

/-- A value whose key the last reading taken has read is reported by a check if and only if it is
    there and not as that reading shows it, once, as long as fewer than 25 entries before its own
    differ. The report tells what it was and what it is. -/
theorem changes_reported_once (actions : List Action) (now : Int) (reader : RegistryReader)
    (fileWritten : Bool) (key name : String) {previous : Reading} {earlier : List Reading}
    (taken : (run watchStep .start actions).memory = previous :: earlier)
    (was_read : previous.reads key = true) (old_alone : previous.Alone key name)
    (new_alone : Reading.Alone ⟨reader, (run watchStep .start actions).monitor.extraKeys⟩ key name) :
    let s := run watchStep .start actions
    let current : Reading := ⟨reader, s.monitor.extraKeys⟩
    Reported s.memory current key name (s.monitor.check now reader fileWritten).2
      (if Changed s.memory current key name ∧ (Reading.differBefore previous current
        (entry key name)).card < maxChangesPerReading then 1 else 0) := by
  intro s current
  have faithful : s.Faithful := run_faithful actions
  have last : lastData s.memory key name = previous.data key name := by
    rw [taken, lastData, List.find?_cons, was_read]
    rfl
  obtain ⟨nothing, none_read⟩ | ⟨before, shows_it, report⟩ :=
    check_reports faithful taken now reader fileWritten
  · have absent : current.data key name = none := by
      simp [Reading.data, current, Reading.values, s, none_read, lastOf]
    rw [nothing, if_neg fun changed => changed.1.1 absent]
    exact ⟨rfl, by simp⟩
  · rw [report]
    exact reported_changes now shows_it (shows_snapshot current) last old_alone new_alone

section Examples

def application : String := "HKEY_USERS\\A"
def settings : String := "HKEY_USERS\\B"

def registryOf (keys : List (String × List (String × String))) : RegistryReader :=
  ⟨fun key => keys.lookup key, fun _ _ => [], []⟩

/- A first reading of the two keys. -/
def firstReading (reader : RegistryReader) : List Action :=
  [.start true [application, settings], .check 0 reader true]

def plain : RegistryReader := registryOf [(application, [("p", "1")]), (settings, [("q", "1")])]

def installed : RegistryReader :=
  registryOf [(application, [("p", "1"), ("updater", "2")]), (settings, [("q", "1")])]

theorem changes_reported_once_updater :
    let s := run watchStep .start (firstReading plain)
    Reported s.memory ⟨installed, s.monitor.extraKeys⟩ application "updater"
      (s.monitor.check 1 installed true).2 1 := by
  have reported := changes_reported_once (firstReading plain) 1 installed true application
    "updater" rfl (by decide) (by decide) (by decide)
  simp only at reported
  rwa [if_pos (by decide)] at reported

/- What would have to hold of a check and a value whose key some reading has read. -/
def ReportedOnce (actions : List Action) (reader : RegistryReader) (key name : String) : Prop :=
  let s := run watchStep .start actions
  let current : Reading := ⟨reader, s.monitor.extraKeys⟩
  (∃ r ∈ s.memory, r.reads key = true) →
    Reported s.memory current key name (s.monitor.check 9 reader true).2
      (if Changed s.memory current key name then 1 else 0)

theorem not_reportedOnce {actions : List Action} {reader : RegistryReader} {key name : String}
    (was_read : ∃ r ∈ (run watchStep .start actions).memory, r.reads key = true)
    (wrong : ((run watchStep .start actions).monitor.check 9 reader true).2.countP
        (about (entry key name)) ≠
      if Changed (run watchStep .start actions).memory
        ⟨reader, (run watchStep .start actions).monitor.extraKeys⟩ key name then 1 else 0) :
    ¬ ReportedOnce actions reader key name :=
  fun reported => wrong (reported was_read).count

def crowded : RegistryReader :=
  registryOf [(application, (List.range 26).map fun n => ((10 + n).repr, "1"))]

def settingsOnly : RegistryReader := registryOf [(settings, [("q", "1")])]

/- The last of 26 values added together is not reported, a value is reported as new after its key
   could not be read, and one is when its key is watched again. -/
theorem changes_not_reported_once :
    ¬ ReportedOnce (firstReading plain) crowded application "35" ∧
    ¬ ReportedOnce (firstReading plain ++ [.check 1 settingsOnly true]) plain application "p" ∧
    ¬ ReportedOnce (firstReading plain ++ [.start true [settings], .check 1 plain true,
      .start true [application, settings]]) plain application "p" :=
  ⟨not_reportedOnce (by decide) (by decide),
    not_reportedOnce (by decide) (by decide),
    not_reportedOnce (by decide) (by decide)⟩

end Examples

end SentinelAgent.RegistryMonitor
