import Mathlib.Data.Fintype.Powerset
import SentinelAgent.Edr.PfBlocklist

/-!
When a change of the blocklist is atomic. Each call makes its changes in turn and undoes some of
them on an error. The condition says, for the answers one call can get, which of them leave the
anchor, the record and the references where the call found them or where it meant to take them.
-/
namespace SentinelAgent.Edr

variable {ι : Type} [LinearOrder ι] {f : PfFormat ι} {h : Host ι} {a : Answers}
  {current : Blocklist ι} {target goal prev : Finset ι}

def recorded (f : PfFormat ι) (h : Host ι) : Finset ι := (onRecord f h).blocked

def intended (prev : Finset ι) : Call ι → Finset ι
  | .block ip => insert ip prev
  | .unblock ip => prev.erase ip
  | .restore => prev

def expectedReferences (blocked : Finset ι) : Nat := if blocked = ∅ then 0 else 1

/-- The set is in force and on record. -/
def Holds (f : PfFormat ι) (h : Host ι) (blocked : Finset ι) : Prop :=
  h.anchor = blocked ∧ recorded f h = blocked

/-- What a result has to be: the goal is reached, with one reference if it is not empty, or the
    previous set stays. -/
def AtomicResult (f : PfFormat ι) (prev goal : Finset ι) (result : Host ι × Except String Unit) :
    Prop :=
  match result.2 with
  | .ok _ => Holds f result.1 goal ∧ result.1.references.length = expectedReferences goal
  | .error _ => Holds f result.1 prev

def Atomic (f : PfFormat ι) (h : Host ι) (x : Call ι × Answers) : Prop :=
  AtomicResult f (recorded f h) (intended (recorded f h) x.1) (perform f h x.2 x.1)

/-! The condition. -/

/-- The anchor can be given these rules. -/
def Loads (a : AnchorAnswers) (blocked : Finset ι) : Prop :=
  a.run = none ∧ (blocked ≠ ∅ → a.write = none)

instance (a : AnchorAnswers) (blocked : Finset ι) : Decidable (Loads a blocked) :=
  inferInstanceAs (Decidable (a.run = none ∧ (blocked ≠ ∅ → a.write = none)))

/-- The references left when one is given back. -/
def givenBack (token answer : Option String) (held : List String) : List String :=
  match token, answer with
  | some t, none => held.erase t
  | _, _ => held

/-- The last address goes: nothing is done, or the references and the record go with it. -/
def EmptiesSafely (h : Host ι) (a : Answers) (current : Blocklist ι) : Prop :=
  Loads a.load (∅ : Finset ι) →
    a.remove = none ∧ givenBack current.pfToken a.release h.references = []

/-- Addresses remain. `current` is what was read, `prev` what is on record. -/
structure ChangesSafely (h : Host ι) (a : Answers) (current : Blocklist ι)
    (target goal prev : Finset ι) (enabled : Enabled) : Prop where
  done : Loads a.load target → a.save = none → target = goal ∧
    (givenBack current.pfToken a.release (h.references ++ [enabled.token])).length = 1
  notSaved : Loads a.load target → a.save ≠ none →
    if Loads a.undo current.blocked then current.blocked = prev else target = prev
  notLoaded : ¬ Loads a.load target → Loads a.undo current.blocked → current.blocked = prev

/-- If pf cannot be enabled nothing is done. -/
def Changes (f : PfFormat ι) (h : Host ι) (a : Answers) (target goal : Finset ι) : Prop :=
  ∀ enabled, a.enable = .ok enabled →
    ChangesSafely h a (load f h a.read) target goal (recorded f h) enabled

def Untouched (f : PfFormat ι) (h : Host ι) (goal : Finset ι) : Prop :=
  goal = recorded f h ∧ h.references.length = expectedReferences goal

def Safe (f : PfFormat ι) (h : Host ι) (x : Call ι × Answers) : Prop :=
  let current := load f h x.2.read
  let goal := intended (recorded f h) x.1
  match x.1 with
  | .block ip => Changes f h x.2 (insert ip current.blocked) goal
  | .unblock ip =>
    if ip ∈ current.blocked then
      if current.blocked.erase ip = ∅ then EmptiesSafely h x.2 current
      else Changes f h x.2 (current.blocked.erase ip) goal
    else Untouched f h goal
  | .restore =>
    if current.blocked = ∅ then Untouched f h goal else Changes f h x.2 current.blocked goal

/-! One operation at a time. -/

theorem loadAnchor_ok {b : AnchorAnswers} (loads : Loads b target) : ∃ rules,
    loadAnchor f h b target = ({ h with anchor := target, rulesFile := rules }, .ok ()) := by
  obtain ⟨runs, writes⟩ := loads
  unfold loadAnchor
  by_cases empty : target = ∅
  · rw [if_pos empty, runs, empty]
    exact ⟨none, rfl⟩
  · rw [if_neg empty, writes empty, runs]
    refine ⟨some (pfRules f.display target), ?_⟩
    simp only [run, Host.effect, Option.map_some, Option.getD_some, f.loaded_pfRules]

theorem loadAnchor_failed {b : AnchorAnswers} (fails : ¬ Loads b target) : ∃ rules e,
    loadAnchor f h b target = ({ h with rulesFile := rules }, .error e) := by
  unfold loadAnchor
  by_cases empty : target = ∅
  · rw [if_pos empty]
    cases runs : b.run with
    | none => exact absurd ⟨runs, fun other => absurd empty other⟩ fails
    | some printed => exact ⟨h.rulesFile, _, rfl⟩
  · rw [if_neg empty]
    cases writes : b.write with
    | some e => exact ⟨h.rulesFile, _, rfl⟩
    | none =>
      cases runs : b.run with
      | none => exact absurd ⟨runs, fun _ => writes⟩ fails
      | some printed => exact ⟨some (pfRules f.display target), _, rfl⟩

theorem release_eq (f : PfFormat ι) (h : Host ι) (token answer : Option String) :
    release f h token answer = { h with references := givenBack token answer h.references } := by
  cases token with
  | none => rfl
  | some t => cases answer <;> rfl

/-- An undo reaches what it can load. -/
theorem undo_eq (f : PfFormat ι) (h : Host ι) (b : AnchorAnswers) (blocked : Finset ι) : ∃ rules,
    (loadAnchor f h b blocked).1 =
      { h with anchor := if Loads b blocked then blocked else h.anchor, rulesFile := rules } := by
  by_cases loads : Loads b blocked
  · obtain ⟨rules, result⟩ := loadAnchor_ok (f := f) (h := h) loads
    exact ⟨rules, by rw [result, if_pos loads]⟩
  · obtain ⟨rules, e, result⟩ := loadAnchor_failed (f := f) (h := h) loads
    exact ⟨rules, by rw [result, if_neg loads]⟩

/-! What `apply` leaves. -/

theorem apply_not_enabled {printed : String} (nonempty : target ≠ ∅)
    (refused : a.enable = .error printed) : ∃ e, apply f h a current target = (h, .error e) := by
  unfold apply
  rw [if_neg nonempty, refused]
  exact ⟨_, rfl⟩

theorem apply_done (current : Blocklist ι) {enabled : Enabled} (nonempty : target ≠ ∅) (enables : a.enable = .ok enabled)
    (loads : Loads a.load target) (saves : a.save = none) : ∃ rules,
    apply f h a current target =
      ({ anchor := target
         references :=
          givenBack current.pfToken a.release (h.references ++ [enabled.token])
         rulesFile := rules
         stateFile := some (f.toJson ⟨target, pfToken enabled.output⟩) }, .ok ()) := by
  unfold apply loadAndSave
  rw [if_neg nonempty, enables]
  simp only [enable]
  obtain ⟨rules, result⟩ := loadAnchor_ok (f := f)
    (h := { h with references := h.references ++ [enabled.token] }) loads
  rw [result, saves]
  simp only [save, release_eq]
  exact ⟨rules, rfl⟩

theorem apply_not_saved (current : Blocklist ι) {enabled : Enabled} {error : String} (nonempty : target ≠ ∅)
    (enables : a.enable = .ok enabled) (loads : Loads a.load target)
    (fails : a.save = some error) : ∃ references rules e,
    apply f h a current target =
      ({ h with
          anchor := if Loads a.undo current.blocked then current.blocked else target
          references := references
          rulesFile := rules }, .error e) := by
  unfold apply loadAndSave
  rw [if_neg nonempty, enables]
  simp only [enable]
  obtain ⟨rules, result⟩ := loadAnchor_ok (f := f)
    (h := { h with references := h.references ++ [enabled.token] }) loads
  rw [result, fails]
  simp only [save, release_eq]
  obtain ⟨rules', undone⟩ := undo_eq f
    { h with
      anchor := target
      references := h.references ++ [enabled.token]
      rulesFile := rules } a.undo current.blocked
  rw [undone]
  exact ⟨_, rules', _, rfl⟩

theorem apply_not_loaded (current : Blocklist ι) {enabled : Enabled} (nonempty : target ≠ ∅)
    (enables : a.enable = .ok enabled) (fails : ¬ Loads a.load target) : ∃ references rules e,
    apply f h a current target =
      ({ h with
          anchor := if Loads a.undo current.blocked then current.blocked else h.anchor
          references := references
          rulesFile := rules }, .error e) := by
  unfold apply loadAndSave
  rw [if_neg nonempty, enables]
  simp only [enable]
  obtain ⟨rules, e, result⟩ := loadAnchor_failed (f := f)
    (h := { h with references := h.references ++ [enabled.token] }) fails
  rw [result]
  simp only [release_eq]
  obtain ⟨rules', undone⟩ := undo_eq f
    { h with references := h.references ++ [enabled.token], rulesFile := rules }
    a.undo current.blocked
  rw [undone]
  exact ⟨_, rules', _, rfl⟩

theorem apply_emptied (current : Blocklist ι) (loads : Loads a.load (∅ : Finset ι)) : ∃ rules,
    apply f h a current ∅ = removeIfPresent f
      { h with
        anchor := ∅
        references := givenBack current.pfToken a.release h.references
        rulesFile := rules } a.remove := by
  unfold apply
  rw [if_pos rfl]
  obtain ⟨rules, result⟩ := loadAnchor_ok (f := f) (h := h) loads
  rw [result]
  simp only [release_eq]
  exact ⟨rules, rfl⟩

theorem apply_not_flushed (current : Blocklist ι) (fails : ¬ Loads a.load (∅ : Finset ι)) : ∃ rules e,
    apply f h a current ∅ = ({ h with rulesFile := rules }, .error e) := by
  unfold apply
  rw [if_pos rfl]
  obtain ⟨rules, e, result⟩ := loadAnchor_failed (f := f) (h := h) fails
  rw [result]
  exact ⟨rules, e, rfl⟩

/-! Each kind of change is atomic exactly under its condition. -/

theorem recorded_saved (f : PfFormat ι) (anchor : Finset ι) (references : List String)
    (rules : Option String) (b : Blocklist ι) :
    recorded f { anchor, references, rulesFile := rules, stateFile := some (f.toJson b) } =
      b.blocked := by
  simp only [recorded, onRecord, f.roundTrip]

theorem load_nonempty {answer : Option String} (some : (load f h answer).blocked ≠ ∅) :
    load f h answer = onRecord f h := by
  cases answer with
  | none => rfl
  | some e => exact absurd rfl some

theorem apply_atomic_iff (consistent : h.anchor = recorded f h) (nonempty : target ≠ ∅)
    (goes : goal ≠ ∅) :
    AtomicResult f (recorded f h) goal (apply f h a current target) ↔
      ∀ enabled, a.enable = .ok enabled →
        ChangesSafely h a current target goal (recorded f h) enabled := by
  have one : expectedReferences goal = 1 := if_neg goes
  cases enables : a.enable with
  | error printed =>
    obtain ⟨e, result⟩ := apply_not_enabled (f := f) (h := h) nonempty enables
    rw [result]
    refine ⟨fun _ enabled impossible => (by cases impossible), fun _ => ?_⟩
    exact ⟨consistent, rfl⟩
  | ok enabled =>
    have only : (∀ other, Except.ok enabled = (Except.ok other : Except String Enabled) →
        ChangesSafely h a current target goal (recorded f h) other) ↔
        ChangesSafely h a current target goal (recorded f h) enabled := by
      constructor
      · exact fun all => all enabled rfl
      · rintro safe other ⟨⟩
        exact safe
    rw [only]
    by_cases loads : Loads a.load target
    · cases saves : a.save with
      | none =>
        obtain ⟨rules, result⟩ := apply_done (f := f) (h := h) current nonempty enables loads saves
        rw [result]
        simp only [AtomicResult, Holds, recorded_saved, one]
        constructor
        · rintro ⟨⟨same, _⟩, references⟩
          exact ⟨fun _ _ => ⟨same, references⟩, fun _ fails => absurd saves fails,
            fun fails => absurd loads fails⟩
        · intro safe
          obtain ⟨same, references⟩ := safe.done loads saves
          exact ⟨⟨same, same⟩, references⟩
      | some error =>
        obtain ⟨references, rules, e, result⟩ :=
          apply_not_saved (f := f) (h := h) current nonempty enables loads saves
        have fails : a.save ≠ none := by simp [saves]
        rw [result]
        change ((if Loads a.undo current.blocked then current.blocked else target) =
          recorded f h ∧ recorded f h = recorded f h) ↔ _
        constructor
        · rintro ⟨same, _⟩
          refine ⟨fun _ saved => absurd saved fails, fun _ _ => ?_, fun other => absurd loads other⟩
          split at same
          · rename_i undone
            rwa [if_pos undone]
          · rename_i stuck
            rwa [if_neg stuck]
        · intro safe
          have undone := safe.notSaved loads fails
          split at undone
          · rename_i back
            rw [if_pos back]
            exact ⟨undone, rfl⟩
          · rename_i stuck
            rw [if_neg stuck]
            exact ⟨undone, rfl⟩
    · obtain ⟨references, rules, e, result⟩ :=
        apply_not_loaded (f := f) (h := h) current nonempty enables loads
      rw [result]
      change ((if Loads a.undo current.blocked then current.blocked else h.anchor) =
        recorded f h ∧ recorded f h = recorded f h) ↔ _
      constructor
      · rintro ⟨same, _⟩
        refine ⟨fun other => absurd other loads, fun other => absurd other loads, fun _ undone => ?_⟩
        rwa [if_pos undone] at same
      · intro safe
        split
        · rename_i undone
          exact ⟨safe.notLoaded loads undone, rfl⟩
        · exact ⟨consistent, rfl⟩

theorem empties_atomic_iff (consistent : h.anchor = recorded f h) (some : recorded f h ≠ ∅) :
    AtomicResult f (recorded f h) ∅ (apply f h a current ∅) ↔ EmptiesSafely h a current := by
  by_cases loads : Loads a.load (∅ : Finset ι)
  · obtain ⟨rules, result⟩ := apply_emptied (f := f) (h := h) current loads
    rw [result]
    cases file : h.stateFile with
    | none =>
      refine absurd ?_ some
      simp only [recorded, onRecord, file]
      rfl
    | some text =>
      cases removes : a.remove with
      | none =>
        simp only [removeIfPresent, AtomicResult, EmptiesSafely, removes]
        constructor
        · rintro ⟨_, references⟩ _
          exact ⟨trivial, List.eq_nil_of_length_eq_zero references⟩
        · intro safe
          refine ⟨⟨rfl, rfl⟩, ?_⟩
          change (givenBack _ _ _).length = 0
          rw [(safe loads).2, List.length_nil]
      | some e =>
        simp only [removeIfPresent, AtomicResult, EmptiesSafely, removes]
        constructor
        · intro holds
          exact absurd holds.1.symm some
        · intro safe
          cases (safe loads).1
  · obtain ⟨rules, e, result⟩ := apply_not_flushed (f := f) (h := h) current loads
    rw [result]
    exact ⟨fun _ other => absurd other loads, fun _ => ⟨consistent, rfl⟩⟩

theorem untouched_atomic_iff (consistent : h.anchor = recorded f h) :
    AtomicResult f (recorded f h) goal (h, .ok ()) ↔ Untouched f h goal := by
  simp only [AtomicResult, Holds, Untouched]
  constructor
  · rintro ⟨⟨_, same⟩, references⟩
    exact ⟨same.symm, references⟩
  · rintro ⟨same, references⟩
    exact ⟨⟨consistent.trans same.symm, same.symm⟩, references⟩

theorem block_eq (f : PfFormat ι) (h : Host ι) (a : Answers) (ip : ι) :
    block f h a ip =
      apply f h a (load f h a.read) (insert ip (load f h a.read).blocked) := by
  unfold block
  simp only
  split
  · rename_i result
    exact result.symm
  · rename_i result
    exact result.symm

theorem restore_eq (f : PfFormat ι) (h : Host ι) (a : Answers) :
    perform f h a .restore =
      if (load f h a.read).blocked = ∅ then (h, .ok ())
      else apply f h a (load f h a.read) (load f h a.read).blocked := by
  unfold perform restore
  by_cases empty : (load f h a.read).blocked = ∅
  · simp only [empty, Finset.card_empty, Nat.lt_irrefl, ↓reduceIte]
    rfl
  · simp only [Finset.card_pos.mpr (Finset.nonempty_iff_ne_empty.mpr empty), empty, ↓reduceIte]
    split
    · rename_i result
      exact result.symm
    · rename_i result
      exact result.symm

theorem atomic_iff (consistent : h.anchor = recorded f h) (x : Call ι × Answers) :
    Atomic f h x ↔ Safe f h x := by
  obtain ⟨call, a⟩ := x
  cases call with
  | block ip =>
    simp only [Atomic, perform, block_eq, intended, Safe, Changes]
    exact apply_atomic_iff consistent (Finset.insert_ne_empty _ _) (Finset.insert_ne_empty _ _)
  | unblock ip =>
    simp only [Atomic, perform, unblock, intended, Safe, Changes]
    by_cases blocked : ip ∈ (load f h a.read).blocked
    · have read : load f h a.read = onRecord f h :=
        load_nonempty (Finset.ne_empty_of_mem blocked)
      have member : ip ∈ recorded f h := by
        rw [read] at blocked
        exact blocked
      have goes : (recorded f h).erase ip = (load f h a.read).blocked.erase ip := by
        rw [read]
        rfl
      rw [if_pos blocked, if_pos blocked, goes]
      by_cases last : (load f h a.read).blocked.erase ip = ∅
      · rw [if_pos last, last]
        exact empties_atomic_iff consistent (Finset.ne_empty_of_mem member)
      · rw [if_neg last]
        exact apply_atomic_iff consistent last last
    · rw [if_neg blocked, if_neg blocked]
      exact untouched_atomic_iff consistent
  | restore =>
    simp only [Atomic, restore_eq, intended, Safe, Changes]
    by_cases empty : (load f h a.read).blocked = ∅
    · rw [if_pos empty, if_pos empty]
      exact untouched_atomic_iff consistent
    · have read : load f h a.read = onRecord f h := load_nonempty empty
      have goes : recorded f h ≠ ∅ := by
        rw [read] at empty
        exact empty
      rw [if_neg empty, if_neg empty]
      exact apply_atomic_iff consistent empty goes

/-- An atomic call leaves the anchor and the record with one set again. -/
theorem consistent_step (x : Call ι × Answers) (atomic : Atomic f h x) :
    (step f h x).anchor = recorded f (step f h x) := by
  simp only [Atomic, AtomicResult] at atomic
  split at atomic
  · exact atomic.1.1.trans atomic.1.2.symm
  · exact atomic.1.trans atomic.2.symm

/-- Over any sequence of calls, from a host whose anchor enforces what is on record: each call
    is atomic exactly when each call meets the condition. -/
theorem blocklist_atomic_iff (consistent : h.anchor = recorded f h)
    (calls : List (Call ι × Answers)) :
    Runs.Along (step f) (Atomic f) h calls ↔ Runs.Along (step f) (Safe f) h calls :=
  Runs.along_iff (I := fun h => h.anchor = recorded f h)
    (fun _ x same => atomic_iff same x) (fun _ x _ atomic => consistent_step x atomic) consistent

/-! Two addresses. The addresses blocked are those with a line in the file. -/

def showAddress (ip : Bool) : String := if ip then "203.0.113.7" else "198.51.100.4"

def bytes (text : String) : List UInt8 := text.toUTF8.data.toList

def loadedAddresses (text : String) : Finset Bool :=
  Finset.univ.filter (fun ip =>
    bytes ("block drop quick from " ++ showAddress ip ++ " to any\n") <:+: bytes text)

theorem sort_both : ({false, true} : Finset Bool).sort = [false, true] := by
  rw [Finset.sort_insert _ (by decide) (by decide), Finset.sort_singleton]

theorem loadedAddresses_pfRules (blocked : Finset Bool) :
    loadedAddresses (pfRules showAddress blocked) = blocked := by
  have each : ∀ s : Finset Bool, s = ∅ ∨ s = {false} ∨ s = {true} ∨ s = {false, true} := by
    decide
  unfold pfRules
  rcases each blocked with rfl | rfl | rfl | rfl
  · rw [Finset.sort_empty]
    decide +kernel
  · rw [Finset.sort_singleton]
    decide +kernel
  · rw [Finset.sort_singleton]
    decide +kernel
  · rw [sort_both]
    decide +kernel

def writeAddresses (b : Blocklist Bool) : String :=
  String.ofList ((if false ∈ b.blocked then '1' else '0') ::
    (if true ∈ b.blocked then '1' else '0') ::
      match b.pfToken with
      | none => []
      | some token => ' ' :: token.toList)

def readAddresses (text : String) : Except String (Blocklist Bool) :=
  match text.toList with
  | first :: second :: rest => .ok
    { blocked := Finset.univ.filter (fun ip => (if ip then second else first) = '1')
      pfToken :=
        match rest with
        | [] => none
        | _ :: token => some (String.ofList token) }
  | _ => .error "EOF while parsing a value"

theorem readAddresses_written (b : Blocklist Bool) : readAddresses (writeAddresses b) = .ok b := by
  obtain ⟨blocked, token⟩ := b
  have same : Finset.univ.filter (fun ip : Bool =>
      (if ip then (if true ∈ blocked then '1' else '0')
        else (if false ∈ blocked then '1' else '0')) = '1') = blocked := by
    ext ip
    cases ip <;> simp
  cases token with
  | none => simp only [readAddresses, writeAddresses, String.toList_ofList, same]
  | some token =>
    simp only [readAddresses, writeAddresses, String.toList_ofList, String.ofList_toList, same]

def twoAddresses : PfFormat Bool where
  display := showAddress
  isIpv6 _ := false
  rulesPath := "ip_blocklist.pf.conf"
  statePath := "ip_blocklist.json"
  loaded := loadedAddresses
  toJson := writeAddresses
  fromJson := readAddresses
  loaded_pfRules := loadedAddresses_pfRules
  roundTrip := readAddresses_written

def newHost : Host Bool :=
  { anchor := ∅, references := [], rulesFile := none, stateFile := none }

/-- Nothing fails. -/
def smooth (token output : String) : Answers :=
  { read := none, enable := .ok { token, output }, load := { write := none, run := none },
    save := none, undo := { write := none, run := none }, release := none, remove := none }

def firstBlock : Call Bool × Answers := (.block false, smooth "100" "pf enabled\nToken : 100\n")

theorem firstBlock_safe : Safe twoAddresses newHost firstBlock := by
  intro enabled enables
  cases enables
  exact ⟨fun _ _ => ⟨rfl, rfl⟩, fun _ fails => absurd rfl fails,
    fun fails => absurd ⟨rfl, fun _ => rfl⟩ fails⟩

theorem firstBlock_host : ∃ rules, step twoAddresses newHost firstBlock =
    { anchor := {false}
      references := ["100"]
      rulesFile := rules
      stateFile := some (twoAddresses.toJson ⟨{false}, some "100"⟩) } := by
  have token : pfToken "pf enabled\nToken : 100\n" = some "100" := by decide
  obtain ⟨rules, result⟩ := apply_done (f := twoAddresses) (h := newHost) (a := firstBlock.2)
    (.default Bool) (Finset.insert_ne_empty false ∅) rfl ⟨rfl, fun _ => rfl⟩ rfl
  refine ⟨rules, ?_⟩
  simp only [step, firstBlock, perform, block_eq]
  exact (congrArg Prod.fst result).trans (by rw [token]; rfl)

def blockedAndUnblocked : List (Call Bool × Answers) :=
  [firstBlock, (.unblock false, smooth "101" "")]

theorem blocked_and_unblocked_atomic :
    Runs.Along (step twoAddresses) (Atomic twoAddresses) newHost blockedAndUnblocked := by
  refine (blocklist_atomic_iff rfl blockedAndUnblocked).mpr ⟨firstBlock_safe, ?_, trivial⟩
  obtain ⟨rules, host⟩ := firstBlock_host
  have read : load twoAddresses (step twoAddresses newHost firstBlock) none =
      ⟨{false}, some "100"⟩ := by
    simp only [host, load, onRecord, twoAddresses.roundTrip]
  have last : ({false} : Finset Bool).erase false = ∅ := by decide
  simp only [Safe, smooth, read, Finset.mem_singleton, ↓reduceIte, last]
  refine fun _ => ⟨rfl, ?_⟩
  rw [host]
  change ["100"].erase "100" = []
  decide

/-- The record cannot be read when the second address is blocked. -/
def unreadRecord : List (Call Bool × Answers) :=
  [firstBlock, (.block true,
    { smooth "101" "pf enabled\nToken : 101\n" with read := some "Input/output error" })]

theorem unread_record_drops_address :
    ¬ Runs.Along (step twoAddresses) (Atomic twoAddresses) newHost unreadRecord := by
  intro claimed
  obtain ⟨first, second, _⟩ := claimed
  have safe := (atomic_iff (consistent_step firstBlock first) _).mp second
  have goes := ((safe _ rfl).done ⟨rfl, fun _ => rfl⟩ rfl).1
  obtain ⟨rules, host⟩ := firstBlock_host
  have before : recorded twoAddresses (step twoAddresses newHost firstBlock) = {false} := by
    rw [host, recorded_saved]
  rw [before] at goes
  exact absurd goes (by decide)

end SentinelAgent.Edr
