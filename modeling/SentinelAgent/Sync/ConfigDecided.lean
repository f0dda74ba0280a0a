import SentinelAgent.Sync.ConfigSync

/-!
Whether the configuration in force is the one that was decided. It is in the runs in which no
merge writes where an override has come in between, none passes where one has gone, what a
synchronisation has set is not set otherwise before it ends, a value is removed only where the
platform gives none, a synchronisation fails only where it has changed nothing, and returns only
where the configuration it downloaded carries every key of the platform in the table.
-/
namespace SentinelAgent.ConfigSync

open Maps Runs

/- What a key is set to, and by whom. -/
def inForce (t : Table) (key : String) : Option (String × ConfigSource) :=
  (t.lookup key).map fun e => (e.value, e.source)

/-! What the running synchronisations have done. -/

/- The entries a merge of a synchronisation has gone through. -/
def Call.sets : Call → List (String × String)
  | .next (.sync _ _) m | .write (.sync _ _) m _ _ _ | .compare _ _ m => m.passed
  | _ => []

/- A forced synchronisation that has removed what the platform gave. -/
def Call.removed : Call → Bool
  | .agentId forced | .remember forced | .download forced _ | .compare forced _ _ => forced
  | .overrides (.sync forced _) _ | .next (.sync forced _) _
  | .write (.sync forced _) _ _ _ _ => forced
  | _ => false

def entriesSet (calls : List Call) : List (String × String) := calls.flatMap Call.sets

def Sets (calls : List Call) (key value : String) : Prop := (key, value) ∈ entriesSet calls

def Removed (calls : List Call) : Prop := ∃ call ∈ calls, call.removed

/-- An override is in force; a key without one has the value of the configuration of the platform
    that was last applied, and none where that does not carry it. While a synchronisation is under
    way the key may already have the value it sets, or none where it removed all. -/
structure InForce (s : Shared) (calls : List Call) : Prop where
  overrides : ∀ key value, s.decided.overrides.lookup key = some value →
    inForce s.table key = some (value, .local)
  platform : ∀ key, key ∉ s.decided.overrides →
    inForce s.table key = (s.decided.platform.lookup key).map (·, .remote) ∨
      (∃ value, Sets calls key value ∧ inForce s.table key = some (value, .remote)) ∨
      Removed calls ∧ inForce s.table key = none

/-- Once no task is left, what is in force is what was decided. -/
theorem inForce_settled {s : Shared} (holds : InForce s []) (key : String) :
    inForce s.table key = match s.decided.overrides.lookup key with
      | some value => some (value, .local)
      | none => (s.decided.platform.lookup key).map (·, .remote) := by
  cases found : s.decided.overrides.lookup key with
  | some value => exact holds.overrides key value found
  | none =>
    rcases holds.platform key (Finmap.lookup_eq_none.mp found) with
      same | ⟨_, set, _⟩ | ⟨⟨_, listed, _⟩, _⟩
    · exact same
    · cases set
    · cases listed

/-! The condition on a step. -/

/- An entry is passed only while its key has an override, or its value. -/
def mayPass (s : Shared) (localKeys : Table) : List (String × String) → Prop
  | [] => True
  | (key, value) :: _ => key ∈ localKeys →
    key ∈ s.decided.overrides ∨ inForce s.table key = some (value, .remote)

def Call.Keeps (s : Shared) (others : List Call) (call : Call) : Event → Prop
  | .done _ =>
    match call with
    -- the row is gone already, or nothing is missed where it was
    | .delete key => key ∉ s.table ∨
      (key ∉ s.decided.platform ∨ Removed others) ∧ ∀ entry ∈ entriesSet others, entry.1 ≠ key
    | .deleteRemote => ∀ entry ∈ entriesSet others, entry.1 ∈ s.decided.overrides
    | .next _ m => mayPass s m.localKeys m.rest
    | .write _ _ key value _ => key ∉ s.decided.overrides ∧
      ∀ entry ∈ entriesSet others, entry.1 = key → entry.2 = value
    | .compare _ _ m => ∀ key ∈ s.table.keys,
      hasLocalOverride key s.table ∨ key ∈ (m.passed ++ entriesSet others).map Prod.fst
    | _ => True
  | .fails =>
    (∀ entry ∈ call.sets, entry.1 ∈ s.decided.overrides ∨
      s.decided.platform.lookup entry.1 = some entry.2 ∨ entry ∈ entriesSet others) ∧
    (call.removed → Removed others ∨
      ∀ key ∈ s.decided.platform.keys, key ∈ s.decided.overrides ∨ key ∈ s.table)
  | .downloads _ => True

def State.Keeps : State → Act → Prop := Tasks.Meets Call.Keeps

instance (calls : List Call) : Decidable (Removed calls) :=
  inferInstanceAs (Decidable (∃ call ∈ calls, call.removed))

instance (s : Shared) (localKeys : Table) (rest : List (String × String)) :
    Decidable (mayPass s localKeys rest) :=
  match rest with
  | [] => isTrue trivial
  | (_, _) :: _ => inferInstanceAs (Decidable (_ → _ ∨ _))

instance (s : Shared) (others : List Call) (call : Call) (event : Event) :
    Decidable (call.Keeps s others event) :=
  match event with
  | .done _ =>
    match call with
    | .delete key => inferInstanceAs (Decidable (key ∉ s.table ∨
        (key ∉ s.decided.platform ∨ Removed others) ∧ ∀ entry ∈ entriesSet others, entry.1 ≠ key))
    | .deleteRemote =>
      inferInstanceAs (Decidable (∀ entry ∈ entriesSet others, entry.1 ∈ s.decided.overrides))
    | .next _ m => inferInstanceAs (Decidable (mayPass s m.localKeys m.rest))
    | .write _ _ key value _ =>
      inferInstanceAs (Decidable (key ∉ s.decided.overrides ∧
        ∀ entry ∈ entriesSet others, entry.1 = key → entry.2 = value))
    | .compare _ _ m => inferInstanceAs (Decidable (∀ key ∈ s.table.keys,
        hasLocalOverride key s.table ∨ key ∈ (m.passed ++ entriesSet others).map Prod.fst))
    | .setLocalOverride _ _ | .removeLocalOverride _ | .agentId _ | .remember _ | .download _ _
    | .overrides _ _ => isTrue trivial
  | .fails => inferInstanceAs (Decidable (_ ∧ (_ → _ ∨ _)))
  | .downloads _ => isTrue trivial

instance (s : State) (act : Act) : Decidable (s.Keeps act) :=
  inferInstanceAs (Decidable (Tasks.Meets Call.Keeps s act))

/-! What is set and removed by whoever is under way, in any terms: `sets` and `removed`. -/

structure Agrees (s : Shared) (sets : String → String → Prop) (removed : Prop) : Prop where
  overrides : ∀ key value, s.decided.overrides.lookup key = some value →
    inForce s.table key = some (value, .local)
  platform : ∀ key, key ∉ s.decided.overrides →
    inForce s.table key = (s.decided.platform.lookup key).map (·, .remote) ∨
      (∃ value, sets key value) ∨ removed ∧ inForce s.table key = none
  sets : ∀ key value, sets key value → key ∉ s.decided.overrides →
    inForce s.table key = some (value, .remote)

section Steps

variable {s : Shared} {sets : String → String → Prop} {removed : Prop}

theorem inForce_none {t : Table} {key : String} : inForce t key = none ↔ key ∉ t := by
  rw [inForce, Option.map_eq_none_iff, Finmap.lookup_eq_none]

theorem inForce_set (key value : String) (source : ConfigSource) (now : Nat) (t : Table)
    (other : String) : inForce (setWithSource key value source now t) other =
      if other = key then some (value, source) else inForce t other := by
  unfold inForce setWithSource
  rw [lookup_insert_eq]
  split <;> rfl

theorem inForce_erase (key : String) (t : Table) (other : String) :
    inForce (t.erase key) other = if other = key then none else inForce t other := by
  unfold inForce
  rw [lookup_erase_eq]
  split <;> rfl

theorem inForce_deleteRemote (t : Table) (key : String) :
    inForce (deleteRemoteConfig t) key =
      (inForce t key).filter fun found => decide (found.2 ≠ .remote) := by
  unfold inForce deleteRemoteConfig
  rw [lookup_retain]
  cases t.lookup key with
  | none => rfl
  | some e =>
    by_cases remote : e.source = .remote
    · simp [Option.filter, remote]
    · simp [Option.filter, remote]

/-- Without an override a key is set by the platform, or not at all. -/
theorem Agrees.remote (agrees : Agrees s sets removed) {key : String}
    (free : key ∉ s.decided.overrides) :
    inForce s.table key = none ∨ ∃ value, inForce s.table key = some (value, .remote) := by
  rcases agrees.platform key free with same | ⟨value, set⟩ | ⟨_, none⟩
  · cases found : s.decided.platform.lookup key with
    | none => exact Or.inl (by rw [same, found]; rfl)
    | some value => exact Or.inr ⟨value, by rw [same, found]; rfl⟩
  · exact Or.inr ⟨value, agrees.sets key value set free⟩
  · exact Or.inl none

theorem Agrees.imp {sets' : String → String → Prop} {removed' : Prop}
    (agrees : Agrees s sets removed) (same : ∀ key value, sets' key value ↔ sets key value)
    (still : removed → removed') : Agrees s sets' removed' where
  overrides := agrees.overrides
  platform key free := by
    refine (agrees.platform key free).imp_right (Or.imp ?_ (And.imp_left still))
    rintro ⟨value, set⟩
    exact ⟨value, (same key value).mpr set⟩
  sets key value set free := agrees.sets key value ((same key value).mp set) free

theorem Agrees.override (agrees : Agrees s sets removed) (key value : String) (now : Nat) :
    Agrees ((Call.setLocalOverride key value).done s now).1 sets removed where
  overrides := by
    intro k v found
    rw [Call.done, lookup_insert_eq] at found
    rw [Call.done, inForce_set]
    split at found
    · cases found
      exact if_pos ‹_›
    · rw [if_neg ‹_›]
      exact agrees.overrides k v found
  platform := by
    intro k free
    rw [Call.done, Finmap.mem_insert, not_or] at free
    rw [Call.done, inForce_set, if_neg free.1]
    exact agrees.platform k free.2
  sets := by
    intro k v set free
    rw [Call.done, Finmap.mem_insert, not_or] at free
    rw [Call.done, inForce_set, if_neg free.1]
    exact agrees.sets k v set free.2

theorem Agrees.delete (agrees : Agrees s sets removed) {key : String} (now : Nat)
    (may : key ∉ s.table ∨
      (key ∉ s.decided.platform ∨ removed) ∧ ∀ value, ¬ sets key value) :
    Agrees ((Call.delete key).done s now).1 sets removed where
  overrides := by
    intro k v found
    rw [Call.done, lookup_erase_eq] at found
    rw [Call.done, inForce_erase]
    split at found
    · cases found
    · rw [if_neg ‹_›]
      exact agrees.overrides k v found
  platform := by
    intro k free
    rw [Call.done, Finmap.mem_erase, not_and] at free
    rw [Call.done, inForce_erase]
    by_cases here : k = key
    · subst here
      rw [if_pos rfl]
      rcases may with absent | ⟨noValue | removed, _⟩
      · have absent := inForce_none.mpr absent
        have free : k ∉ s.decided.overrides := by
          intro overridden
          obtain ⟨value, found⟩ := mem_iff_lookup.mp overridden
          rw [agrees.overrides k value found] at absent
          cases absent
        have same := agrees.platform k free
        rw [absent] at same
        exact same
      · rw [Finmap.lookup_eq_none.mpr noValue]
        exact Or.inl rfl
      · exact Or.inr (Or.inr ⟨removed, rfl⟩)
    · rw [if_neg here]
      exact agrees.platform k (free here)
  sets := by
    intro k v set free
    rw [Call.done, Finmap.mem_erase, not_and] at free
    rw [Call.done, inForce_erase]
    by_cases here : k = key
    · subst here
      rw [if_pos rfl]
      rcases may with absent | ⟨_, unset⟩
      · have absent := inForce_none.mpr absent
        by_cases overridden : k ∈ s.decided.overrides
        · obtain ⟨value, found⟩ := mem_iff_lookup.mp overridden
          rw [agrees.overrides k value found] at absent
          cases absent
        · rw [agrees.sets k v set overridden] at absent
          cases absent
      · exact absurd set (unset v)
    · rw [if_neg here]
      exact agrees.sets k v set (free here)

theorem Agrees.deleteRemote (agrees : Agrees s sets removed) (now : Nat)
    (may : ∀ key value, sets key value → key ∈ s.decided.overrides) :
    Agrees (Call.deleteRemote.done s now).1 sets True where
  overrides := by
    intro k v found
    rw [Call.done, inForce_deleteRemote, agrees.overrides k v found]
    rfl
  platform := by
    intro k free
    refine Or.inr (Or.inr ⟨trivial, ?_⟩)
    rw [Call.done, inForce_deleteRemote]
    rcases agrees.remote free with none | ⟨value, remote⟩
    · rw [none]
      rfl
    · rw [remote]
      rfl
  sets k v set free := absurd (may k v set) free

/- An entry of a pushed configuration, passed or written. -/
theorem Agrees.push (agrees : Agrees s sets removed) {key value : String}
    (there : key ∈ s.decided.overrides ∨ inForce s.table key = some (value, .remote)) :
    Agrees { s with decided := Caller.push.applies key value s.decided } sets removed where
  overrides := agrees.overrides
  platform := by
    intro k free
    simp only [Caller.applies, lookup_insert_eq]
    by_cases here : k = key
    · subst here
      rw [if_pos rfl]
      exact Or.inl (there.resolve_left free)
    · rw [if_neg here]
      exact agrees.platform k free
  sets := agrees.sets

/- An entry of a synchronisation. -/
theorem Agrees.set (agrees : Agrees s sets removed) {key value : String}
    (there : key ∈ s.decided.overrides ∨ inForce s.table key = some (value, .remote)) :
    Agrees s (fun k v => sets k v ∨ k = key ∧ v = value) removed where
  overrides := agrees.overrides
  platform k free :=
    (agrees.platform k free).imp_right (Or.imp_left fun ⟨v, set⟩ => ⟨v, Or.inl set⟩)
  sets := by
    rintro k v (set | ⟨rfl, rfl⟩) free
    · exact agrees.sets k v set free
    · exact there.resolve_left free

theorem Agrees.write (agrees : Agrees s sets removed) {key value : String} (now : Nat)
    (free : key ∉ s.decided.overrides) (unopposed : ∀ other, sets key other → other = value) :
    Agrees { s with table := setWithSource key value .remote now s.table }
      (fun k v => sets k v ∨ k = key ∧ v = value) removed where
  overrides := by
    intro k v found
    rw [inForce_set, if_neg]
    · exact agrees.overrides k v found
    · rintro rfl
      exact free (mem_iff_lookup.mpr ⟨v, found⟩)
  platform := by
    intro k freed
    rw [inForce_set]
    by_cases here : k = key
    · exact Or.inr (Or.inl ⟨value, Or.inr ⟨here, rfl⟩⟩)
    · rw [if_neg here]
      exact (agrees.platform k freed).imp_right (Or.imp_left fun ⟨v, set⟩ => ⟨v, Or.inl set⟩)
  sets := by
    rintro k v (set | ⟨rfl, rfl⟩) freed
    · rw [inForce_set]
      by_cases here : k = key
      · subst here
        rw [if_pos rfl, unopposed v set]
      · rw [if_neg here]
        exact agrees.sets k v set freed
    · rw [inForce_set, if_pos rfl]

/-- A synchronisation that ends with an error, its own entries being `own`. -/
theorem Agrees.fail {own : String → String → Prop} {ownRemoved : Prop}
    (agrees : Agrees s (fun k v => own k v ∨ sets k v) (ownRemoved ∨ removed))
    (unchanged : ∀ key value, own key value → key ∈ s.decided.overrides ∨
      s.decided.platform.lookup key = some value ∨ sets key value)
    (kept : ownRemoved → removed ∨
      ∀ key ∈ s.decided.platform, key ∈ s.decided.overrides ∨ key ∈ s.table) :
    Agrees s sets removed where
  overrides := agrees.overrides
  platform := by
    intro k free
    rcases agrees.platform k free with same | ⟨v, own | set⟩ | ⟨own | removed, none⟩
    · exact Or.inl same
    · rcases unchanged k v own with overridden | same | set
      · exact absurd overridden free
      · rw [agrees.sets k v (Or.inl own) free, same]
        exact Or.inl rfl
      · exact Or.inr (Or.inl ⟨v, set⟩)
    · exact Or.inr (Or.inl ⟨v, set⟩)
    · rcases kept own with removed | all
      · exact Or.inr (Or.inr ⟨removed, none⟩)
      · have noValue : k ∉ s.decided.platform := fun carried =>
          (all k carried).elim free (inForce_none.mp none)
        rw [none, Finmap.lookup_eq_none.mpr noValue]
        exact Or.inl rfl
    · exact Or.inr (Or.inr ⟨removed, none⟩)
  sets k v set free := agrees.sets k v (Or.inr set) free

/-- A synchronisation that returns, with all entries of its configuration gone through. -/
theorem Agrees.returns {config : Config} {ownRemoved : Prop} (change : Option ConfigChangeEvent)
    (agrees : Agrees s (fun k v => (k, v) ∈ config.entries ∨ sets k v) (ownRemoved ∨ removed))
    (carries : ∀ key value, inForce s.table key = some (value, .remote) →
      key ∈ config.entries.map Prod.fst ∨ ∃ value, sets key value) :
    Agrees { s with
      change := change
      decided := { s.decided with platform := config.applied } } sets removed where
  overrides := agrees.overrides
  platform := by
    intro k free
    by_cases carried : k ∈ config.entries.map Prod.fst
    · obtain ⟨⟨k', v⟩, entry, rfl⟩ := List.mem_map.mp carried
      have alike : ∀ e ∈ config.entries, e.1 = k' → e.2 = v := fun e listed same =>
        congrArg Prod.snd (List.inj_on_of_nodup_map config.distinct listed entry same)
      have applied := lookup_insertAll_some ⟨(k', v), entry, rfl⟩ alike ∅
      refine Or.inl ?_
      rw [agrees.sets k' v (Or.inl entry) free]
      simp only [Config.applied, applied, Option.map_some]
    · have applied : config.applied.lookup k = none := by
        refine (lookup_insertAll_none (fun e listed same => ?_) ∅).trans (Finmap.lookup_empty k)
        exact carried (List.mem_map.mpr ⟨e, listed, same⟩)
      rcases agrees.remote free with none | ⟨value, remote⟩
      · refine Or.inl ?_
        simp only [applied, none, Option.map_none]
      · exact Or.inr (Or.inl ((carries k value remote).resolve_left carried))
  sets k v set free := agrees.sets k v (Or.inr set) free

end Steps

/-! The steps of the tasks. -/

/- A merge goes through the entries of its configuration. -/
def Call.Whole : Call → Prop
  | .next _ m => m.passed ++ m.rest = m.config.entries
  | .write _ m key value _ => m.passed ++ (key, value) :: m.rest = m.config.entries
  | .compare _ _ m => m.passed = m.config.entries
  | _ => True

/- What a step can do. -/
inductive Does (s : Shared) : Call → Event → Shared → Option Call → Prop
  | looks {call : Call} {event : Event} {next : Option Call}
      (sets : ∀ entry, entry ∈ (next.map Call.sets).getD [] ↔ entry ∈ call.sets)
      (removed : call.removed → next.any Call.removed)
      (whole : call.Whole → ∀ after ∈ next, after.Whole) : Does s call event s next
  | fails (call : Call) : Does s call .fails s none
  | overrides (key value : String) (now : Nat) :
      Does s (.setLocalOverride key value) (.done now)
        ((Call.setLocalOverride key value).done s now).1 none
  | deletes (key : String) (now : Nat) :
      Does s (.delete key) (.done now) ((Call.delete key).done s now).1 none
  | removes (now : Nat) :
      Does s .deleteRemote (.done now) (Call.deleteRemote.done s now).1 (some (.agentId true))
  | skips {m : Merge} {key value : String} {rest : List (String × String)}
      (left : m.rest = (key, value) :: rest) (isLocal : key ∈ m.localKeys) (caller : Caller)
      (now : Nat) : Does s (.next caller m) (.done now)
        { s with decided := caller.applies key value s.decided }
        (some (.next caller ({ m with rest := rest }.skip key value)))
  | writes (caller : Caller) (m : Merge) (key value : String) (existing : Bool) (now : Nat) :
      Does s (.write caller m key value existing) (.done now)
        { s with
          table := setWithSource key value .remote now s.table
          decided := caller.applies key value s.decided }
        (some (.next caller (m.written key value existing)))
  | returns (forced : Bool) (previous : Table) (m : Merge) (now : Nat) :
      Does s (.compare forced previous m) (.done now)
        { s with
          change := s.notified previous now
          decided := { s.decided with platform := m.config.applied } } none

section Looks

variable {s : Shared} {call after : Call} {event : Event}

theorem Does.becomes (sets : after.sets = call.sets) (removed : call.removed → after.removed)
    (whole : call.Whole → after.Whole) : Does s call event s (some after) := by
  refine .looks (fun entry => ?_) removed fun kept other same => ?_
  · rw [Option.map_some, Option.getD_some, sets]
  · cases same
    exact whole kept

theorem Does.ends (sets : call.sets = []) (removed : call.removed = false) :
    Does s call event s none := by
  refine .looks (fun entry => ?_) (fun gone => ?_) nofun
  · rw [sets]
    exact Iff.rfl
  · rw [removed] at gone
    cases gone

end Looks

theorem next_does (s : Shared) (now : Nat) (caller : Caller) (m : Merge) :
    Does s (.next caller m) (.done now) ((Call.next caller m).done s now).1
      ((Call.next caller m).done s now).2 := by
  cases left : m.rest with
  | nil =>
    cases caller with
    | push =>
      simp only [Call.done, left]
      exact .ends rfl rfl
    | sync forced previous =>
      simp only [Call.done, left]
      refine .becomes rfl id fun whole => ?_
      rwa [Call.Whole, left, List.append_nil] at whole
  | cons entry rest =>
    by_cases isLocal : entry.1 ∈ m.localKeys
    · simp only [Call.done, left, isLocal, if_true]
      exact .skips left isLocal caller now
    · simp only [Call.done, left, isLocal, if_false]
      refine .becomes (by cases caller <;> rfl) (by cases caller <;> exact id) fun whole => ?_
      rwa [Call.Whole, left] at whole

theorem done_does (s : Shared) (now : Nat) (call : Call) :
    Does s call (.done now) (call.done s now).1 (call.done s now).2 := by
  cases call with
  | setLocalOverride key value => exact .overrides key value now
  | removeLocalOverride key =>
    change Does s (.removeLocalOverride key) (.done now) s
      (if hasLocalOverride key s.table then some (.delete key) else none)
    split
    · exact .becomes rfl nofun id
    · exact .ends rfl rfl
  | delete key => exact .deletes key now
  | deleteRemote => exact .removes now
  | agentId forced => exact .becomes rfl id id
  | remember forced => exact .becomes rfl id id
  | download forced previous => exact .becomes rfl id id
  | overrides caller config =>
    refine .becomes (by cases caller <;> rfl) (by cases caller <;> exact id) fun _ => ?_
    exact List.nil_append _
  | next caller m => exact next_does s now caller m
  | write caller m key value existing => exact .writes caller m key value existing now
  | compare forced previous m => exact .returns forced previous m now

theorem step_does (s : Shared) (call : Call) (event : Event) :
    Does s call event (call.step s event).1 (call.step s event).2 := by
  cases event with
  | done now => exact done_does s now call
  | fails => exact .fails call
  | downloads config =>
    cases call with
    | download forced previous => exact .becomes rfl id id
    | _ => exact .becomes rfl id id

/- The table agrees with what was decided but for what the tasks under way have done. -/
structure Kept (s : Shared) (calls : List Call) : Prop where
  agrees : Agrees s (Sets calls) (Removed calls)
  whole : ∀ call ∈ calls, call.Whole

theorem sets_cons {call : Call} {others : List Call} {key value : String} :
    Sets (call :: others) key value ↔ (key, value) ∈ call.sets ∨ Sets others key value := by
  rw [Sets, entriesSet, List.flatMap_cons, List.mem_append]
  rfl

theorem removed_cons {call : Call} {others : List Call} :
    Removed (call :: others) ↔ call.removed ∨ Removed others := by
  simp only [Removed, List.exists_mem_cons_iff]

theorem kept_reorder {s : Shared} {calls calls' : List Call} (same : calls.Perm calls')
    (kept : Kept s calls) : Kept s calls' where
  agrees := by
    refine kept.agrees.imp (fun key value => ?_) fun ⟨call, listed, removed⟩ =>
      ⟨call, same.mem_iff.mp listed, removed⟩
    simp only [Sets, entriesSet, List.mem_flatMap, same.mem_iff]
  whole call listed := kept.whole call (same.mem_iff.mpr listed)

theorem kept_begin {s : Shared} {calls : List Call} {call : Call} (begins : call.begins)
    (kept : Kept s calls) : Kept s (call :: calls) := by
  have unset : call.sets = [] := by cases call <;> first | rfl | cases begins
  refine ⟨kept.agrees.imp (fun key value => ?_) fun ⟨call, listed, removed⟩ =>
      ⟨call, List.mem_cons_of_mem _ listed, removed⟩, fun other listed => ?_⟩
  · rw [sets_cons, unset]
    simp
  · rcases List.mem_cons.mp listed with rfl | listed
    · cases other <;> trivial
    · exact kept.whole other listed

/- A task that ends leaves what the others have set. -/
theorem Kept.ended {s : Shared} {others : List Call} (agrees : Agrees s (Sets others) (Removed others))
    (whole : ∀ call ∈ others, call.Whole) : Kept s (none.toList ++ others) :=
  ⟨agrees, whole⟩

theorem Agrees.others {s : Shared} {call : Call} {others : List Call}
    (agrees : Agrees s (Sets (call :: others)) (Removed (call :: others)))
    (sets : call.sets = []) (removed : call.removed = false) :
    Agrees s (Sets others) (Removed others) := by
  refine agrees.imp (fun key value => ?_) fun gone => ?_
  · rw [sets_cons, sets]
    simp
  · rw [removed_cons, removed] at gone
    exact gone.resolve_left nofun

/-- A merge that goes past an entry has set it, or the value is pushed. -/
theorem Kept.passes {s : Shared} {others : List Call} {before after : Call} {set : Shared}
    (caller : Caller) (key value : String)
    (kept : Kept s (before :: others))
    (pushed : caller = .push → before.sets = [] ∧ after.sets = [] ∧
      Agrees set (Sets (before :: others)) (Removed (before :: others)))
    (synced : ∀ forced previous, caller = .sync forced previous →
      after.sets = before.sets ++ [(key, value)] ∧
      Agrees set (fun k v => Sets (before :: others) k v ∨ k = key ∧ v = value)
        (Removed (before :: others)))
    (removed : before.removed → after.removed) (whole : before.Whole → after.Whole) :
    Kept set ((some after).toList ++ others) := by
  have still : Removed (before :: others) → Removed (after :: others) := by
    rw [removed_cons, removed_cons]
    exact Or.imp_left removed
  refine ⟨?_, fun call listed => ?_⟩
  · cases caller with
    | push =>
      obtain ⟨unset, unset', agrees⟩ := pushed rfl
      refine agrees.imp (fun k v => ?_) still
      rw [Option.toList_some, List.singleton_append, sets_cons, sets_cons, unset, unset']
    | sync forced previous =>
      obtain ⟨sets, agrees⟩ := synced forced previous rfl
      refine agrees.imp (fun k v => ?_) still
      rw [Option.toList_some, List.singleton_append, sets_cons, sets_cons, sets, List.mem_append,
        List.mem_singleton, Prod.mk.injEq]
      exact or_right_comm
  · rcases List.mem_cons.mp listed with rfl | other
    · exact whole (kept.whole before List.mem_cons_self)
    · exact kept.whole call (List.mem_cons_of_mem _ other)

/-- The entries of a configuration have one value for each key. -/
theorem passed_unopposed {caller : Caller} {m : Merge} {key value : String} {existing : Bool}
    (whole : (Call.write caller m key value existing).Whole) (other : String) :
    (key, other) ∉ m.passed := by
  intro passed
  have distinct := m.config.distinct
  rw [← whole, List.map_append, List.map_cons, List.nodup_append] at distinct
  exact distinct.2.2 key (List.mem_map.mpr ⟨_, passed, rfl⟩) key List.mem_cons_self rfl

theorem write_sets {caller : Caller} {m : Merge} {key value : String} {existing : Bool}
    {entry : String × String} (set : entry ∈ (Call.write caller m key value existing).sets) :
    entry ∈ m.passed := by
  cases caller with
  | push => cases set
  | sync forced previous => exact set

theorem kept_skip {s : Shared} {others : List Call} {m : Merge} {key value : String}
    {rest : List (String × String)} (left : m.rest = (key, value) :: rest)
    (there : key ∈ s.decided.overrides ∨ inForce s.table key = some (value, .remote))
    {caller : Caller} (kept : Kept s (.next caller m :: others)) :
    Kept { s with decided := caller.applies key value s.decided }
      ((some (Call.next caller ({ m with rest := rest }.skip key value))).toList ++ others) := by
  refine kept.passes caller key value (fun pushed => ?_) (fun forced previous synced => ?_) ?_ fun whole => ?_
  · subst pushed
    exact ⟨rfl, rfl, kept.agrees.push there⟩
  · subst synced
    exact ⟨rfl, kept.agrees.set there⟩
  · cases caller <;> exact id
  · rw [Call.Whole, left] at whole
    rw [Call.Whole, Merge.skip, List.append_assoc]
    exact whole

theorem kept_write {s : Shared} {others : List Call} {m : Merge} {key value : String}
    {existing : Bool} (now : Nat) (free : key ∉ s.decided.overrides)
    (unopposed : ∀ other, Sets others key other → other = value) {caller : Caller}
    (kept : Kept s (.write caller m key value existing :: others)) :
    Kept { s with
      table := setWithSource key value .remote now s.table
      decided := caller.applies key value s.decided }
      ((some (Call.next caller (m.written key value existing))).toList ++ others) := by
  have alone : ∀ other, Sets (.write caller m key value existing :: others) key other →
      other = value := by
    intro other set
    rcases sets_cons.mp set with own | set
    · exact absurd (write_sets own) (passed_unopposed (kept.whole _ List.mem_cons_self) other)
    · exact unopposed other set
  have written := kept.agrees.write now free alone
  refine kept.passes caller key value (fun pushed => ?_) (fun forced previous synced => ?_) ?_ fun whole => ?_
  · subst pushed
    have there := inForce_set key value .remote now s.table key
    rw [if_pos rfl] at there
    refine ⟨rfl, rfl, ?_⟩
    refine .fail ((written.push (Or.inr there)).imp (fun k v => or_comm) Or.inr)
      (fun k v own => Or.inr (Or.inl ?_)) False.elim
    rw [own.1, own.2]
    exact (lookup_insert_eq _ _ _ _).trans (if_pos rfl)
  · subst synced
    exact ⟨rfl, written⟩
  · cases caller <;> exact id
  · rw [Call.Whole, Merge.written, List.append_assoc]
    exact whole

/- A key of the platform in the table was carried, or another has set it. -/
theorem carries_of {s : Shared} {others : List Call} {forced : Bool} {previous : Table} {m : Merge}
    {now : Nat} (keeps : (Call.compare forced previous m).Keeps s others (.done now))
    (whole : m.passed = m.config.entries) {key value : String}
    (remote : inForce s.table key = some (value, .remote)) :
    key ∈ m.config.entries.map Prod.fst ∨ ∃ value, Sets others key value := by
  obtain ⟨e, found, same⟩ := Option.map_eq_some_iff.mp remote
  have notLocal : hasLocalOverride key s.table = false := by
    rw [hasLocalOverride, found, Option.any_some, (Prod.mk.inj same).2]
    rfl
  have carried := keeps key (Finmap.mem_keys.mpr (mem_iff_lookup.mpr ⟨e, found⟩))
  rw [notLocal, whole, List.map_append, List.mem_append] at carried
  rcases carried with isLocal | own | other
  · cases isLocal
  · exact Or.inl own
  · obtain ⟨entry, set, rfl⟩ := List.mem_map.mp other
    exact Or.inr ⟨entry.2, set⟩

theorem kept_made {s : Shared} {others : List Call} {call : Call} {event : Event}
    (keeps : call.Keeps s others event) (kept : Kept s (call :: others)) :
    Kept (call.step s event).1 ((call.step s event).2.toList ++ others) := by
  have left : ∀ other ∈ others, other.Whole :=
    fun other listed => kept.whole other (List.mem_cons_of_mem _ listed)
  have does := step_does s call event
  generalize (call.step s event).1 = after at does ⊢
  generalize (call.step s event).2 = next at does ⊢
  cases does with
  | looks sets removed whole =>
    refine ⟨kept.agrees.imp (fun key value => ?_) fun gone => ?_, fun other listed => ?_⟩
    · rw [sets_cons, ← sets]
      cases next with
      | none => simp
      | some after => exact sets_cons
    · cases next with
      | none => exact (removed_cons.mp gone).resolve_left fun own => by cases removed own
      | some after => exact removed_cons.mpr ((removed_cons.mp gone).imp_left removed)
    · rcases List.mem_append.mp listed with here | listed
      · exact whole (kept.whole _ List.mem_cons_self) other (Option.mem_toList.mp here)
      · exact left other listed
  | fails =>
    exact .ended (.fail (kept.agrees.imp (fun key value => sets_cons.symm) removed_cons.mp)
      (fun key value own => keeps.1 (key, value) own)
      fun own => (keeps.2 own).imp_right fun all key carried => all key (Finmap.mem_keys.mpr carried))
      left
  | overrides key value now => exact .ended ((kept.agrees.others rfl rfl).override key value now) left
  | deletes key now =>
    refine .ended ((kept.agrees.others rfl rfl).delete now ?_) left
    exact keeps.imp_right (And.imp_right fun unset value set => unset _ set rfl)
  | removes now =>
    refine ⟨((kept.agrees.others rfl rfl).deleteRemote now
      fun key value set => keeps _ set).imp (fun key value => ?_)
      fun _ => removed_cons.mpr (Or.inl rfl), fun other listed => ?_⟩
    · exact sets_cons.trans (or_iff_right nofun)
    · rcases List.mem_cons.mp listed with rfl | listed
      · trivial
      · exact left other listed
  | skips rest isLocal caller now =>
    simp only [Call.Keeps, rest] at keeps
    exact kept_skip rest (keeps isLocal) kept
  | writes caller m key value existing now => 
    exact kept_write now keeps.1 (fun other set => keeps.2 _ set rfl) kept
  | returns forced previous m now =>
    have whole : m.passed = m.config.entries := kept.whole _ List.mem_cons_self
    have agrees := kept.agrees.imp (fun key value => sets_cons.symm) removed_cons.mp
    simp only [Call.sets, whole] at agrees
    refine .ended (agrees.returns (s.notified previous now) fun key value remote => ?_) left
    exact carries_of keeps whole remote

theorem kept_start (t : Table) : Kept (State.start t).shared (State.start t).calls := by
  refine ⟨⟨fun key value found => ?_, fun key free => Or.inl ?_, nofun⟩, nofun⟩
  · simp only [State.start, getLocalOverrides, lookup_adjust, Option.map_eq_some_iff,
      lookup_retain_eq_some, decide_eq_true_eq] at found
    obtain ⟨e, ⟨there, isLocal⟩, rfl⟩ := found
    simp only [State.start, inForce, there, Option.map_some, isLocal]
  · rw [← Finmap.lookup_eq_none] at free
    simp only [State.start, getLocalOverrides, lookup_adjust, lookup_retain] at free ⊢
    unfold inForce
    cases there : t.lookup key with
    | none => rfl
    | some e =>
      cases source : e.source with
      | «local» => simp [there, source, Option.filter] at free
      | remote => simp [source, Option.filter]

theorem Kept.inForce {s : Shared} {calls : List Call} (kept : Kept s calls) : InForce s calls where
  overrides := kept.agrees.overrides
  platform key free := by
    refine (kept.agrees.platform key free).imp_right (Or.imp_left ?_)
    rintro ⟨value, set⟩
    exact ⟨value, set, kept.agrees.sets key value set free⟩

/-- In every run whose steps all meet the condition, what is in force is what was decided, in
    every state that is reached. -/
theorem decided_in_force (t : Table) {acts : List Act}
    (along : Along State.step State.Keeps (.start t) acts) :
    InForce (run State.step (.start t) acts).shared (run State.step (.start t) acts).calls := by
  refine Kept.inForce ?_
  refine Tasks.run_keeps Call.begins Call.step (I := Kept) ?_ ?_ ?_ (kept_start t) along
  · exact fun s calls calls' same => kept_reorder same
  · exact fun s calls call begins => kept_begin begins
  · exact fun s others call event keeps => kept_made keeps

def downloaded : Config where
  entries := [("check_interval_secs", "60"), ("log_level", "info")]
  distinct := by decide

/- The interval is overridden, then all is synchronised, and nothing comes between. -/
def overriddenThenSynced : List Act :=
  [.begin (.setLocalOverride "check_interval_secs" "30"), .step 0 (.done 1),
    .begin (.agentId false), .step 0 (.done 2), .step 0 (.done 2),
    .step 0 (.downloads downloaded)] ++ List.replicate 6 (.step 0 (.done 3))

theorem decided_in_force_synced :
    InForce (run State.step (.start ∅) overriddenThenSynced).shared
      (run State.step (.start ∅) overriddenThenSynced).calls := by
  exact decided_in_force ∅ (by decide)

/-- An override that is set between the two halves of a merge is lost. -/
theorem override_lost : ¬ ∀ (t : Table) (acts : List Act),
    InForce (run State.step (.start t) acts).shared (run State.step (.start t) acts).calls := by
  intro always
  have holds := always ∅ ([.begin (.agentId false), .step 0 (.done 1), .step 0 (.done 1),
    .step 0 (.downloads downloaded), .step 0 (.done 1), .step 0 (.done 1),
    .begin (.setLocalOverride "check_interval_secs" "30"), .step 0 (.done 2), .step 0 (.done 3)])
  exact absurd (holds.overrides "check_interval_secs" "30" (by decide)) (by decide)

end SentinelAgent.ConfigSync
