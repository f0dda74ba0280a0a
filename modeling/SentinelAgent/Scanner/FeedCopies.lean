import Mathlib.Data.List.Infix
import Mathlib.Logic.Function.Basic
import SentinelAgent.Library.Runs

/-!
The local copy of a feed while several calls look at it, download the feed and put a new copy in
its place, each operation on a file a step of its own.
-/
namespace SentinelAgent.ExploitFeeds
open Runs

abbrev Bytes := List UInt8

structure File where
  bytes : Bytes
  modified : Nat

/- Where a call of `load_feed` stands. A copy is read a first time while nothing failed yet, and
   once more with the failure of the download; a parsed body is written while it has a rest. -/
inductive Phase (V : Type) where
  | idle
  | looking
  | opening (failure : Option String)
  | reading (failure : Option String) (file : Nat) (read : Bytes)
  | downloading (path : Bool)
  | caching (value : V) (body : Bytes)
  | writing (value : V) (body : Bytes) (file : Nat) (rest : Bytes)
  | returned (result : Except String (V × Option String))
  | gone

/- What a call has met, for the statements alone: when it looked at the age of the copy, the copy
   it read last unless that failed, and its download if that parsed. -/
structure Story where
  looked : Nat
  copy : Option File
  body : Option Bytes

/- The two paths name files by their number, as long as a file is open it stays. -/
structure State (V : Type) where
  cache : Option Nat
  temp : Option Nat
  files : Nat → File
  next : Nat
  phases : Nat → Phase V
  stories : Nat → Story
  bodies : List Bytes

inductive Event where
  | begin (path : Bool)
  | look (now : Nat) (fails : Bool)
  | openCopy (fails : Bool)
  | read (count : Nat)
  | endOfFile
  | readFails
  | download (result : Except String Bytes)
  | openTemp (now : Nat) (fails : Bool)
  | write (count now : Nat)
  | writeFails
  | rename (fails : Bool)
  | crash

section Steps
variable {V : Type} (parse : Nat → Bytes → Except String V) (refresh : Nat)

/- A time in the future counts as outdated. -/
def fresh (file : File) (now : Nat) : Bool :=
  file.modified ≤ now && now - file.modified < refresh

def State.goTo (s : State V) (call : Nat) (phase : Phase V) : State V :=
  { s with phases := Function.update s.phases call phase }

def State.note (s : State V) (call : Nat) (story : Story) : State V :=
  { s with stories := Function.update s.stories call story }

def State.put (s : State V) (file : Nat) (content : File) : State V :=
  { s with files := Function.update s.files file content }

def State.record (s : State V) (body : Bytes) : State V := { s with bodies := body :: s.bodies }

/- The temporary path names the file that is open now. -/
def State.create (s : State V) (file : Nat) : State V :=
  { s with temp := some file, next := max s.next (file + 1) }

/- The file of the temporary path goes to the other one. -/
def State.install (s : State V) (file : Nat) : State V :=
  { s with cache := some file, temp := none }

/- Without a copy that can be used: on to the download, or to the end. -/
def withoutCopy : Option String → Phase V
  | none => .downloading true
  | some failure => .returned (.error failure)

def afterRead (failure : Option String) : Except String V → Phase V
  | .ok value => .returned (.ok (value, failure))
  | .error _ => withoutCopy failure

def afterFailure (path : Bool) (failure : String) : Phase V :=
  if path then .opening (some failure) else .returned (.error failure)

/- What a file holds when a chunk is written at an offset, be it behind the end. -/
def overwrite (bytes : Bytes) (offset : Nat) (chunk : Bytes) : Bytes :=
  bytes.take offset ++ List.replicate (offset - bytes.length) 0 ++ chunk ++
    bytes.drop (offset + chunk.length)

def State.downloaded (s : State V) (call : Nat) (path : Bool) : Except String Bytes → State V
  | .error failure => s.goTo call (afterFailure path failure)
  | .ok body =>
    match parse call body with
    | .error failure => s.goTo call (afterFailure path failure)
    | .ok value =>
      ((s.note call ⟨(s.stories call).looked, (s.stories call).copy, some body⟩).goTo call
        (if path then .caching value body else .returned (.ok (value, none)))).record body

def step (s : State V) (act : Nat × Event) : State V :=
  let call := act.1
  let story := s.stories call
  match s.phases call, act.2 with
  | .idle, .begin path => s.goTo call (if path then .looking else .downloading false)
  | .looking, .look now fails =>
    (s.note call { story with looked := now }).goTo call
      (if !fails && s.cache.any fun file => fresh refresh (s.files file) now then .opening none
      else .downloading true)
  | .opening failure, .openCopy fails =>
    match if fails then none else s.cache with
    | some file =>
      (s.note call { story with copy := some (s.files file) }).goTo call (.reading failure file [])
    | none => (s.note call { story with copy := none }).goTo call (withoutCopy failure)
  | .reading failure file read, .read count =>
    s.goTo call (.reading failure file
      (read ++ ((s.files file).bytes.drop read.length).take count))
  | .reading failure file read, .endOfFile =>
    if (s.files file).bytes.length ≤ read.length then
      s.goTo call (afterRead failure (parse call read)) else s
  | .reading failure _ _, .readFails =>
    (s.note call { story with copy := none }).goTo call (withoutCopy failure)
  | .downloading path, .download result => s.downloaded parse call path result
  | .caching value body, .openTemp now fails =>
    if fails then s.goTo call (.returned (.ok (value, none)))
    else
      let file := s.temp.getD s.next
      ((s.put file ⟨[], now⟩).goTo call (.writing value body file body)).create file
  | .writing value body file rest, .write count now =>
    (s.put file ⟨overwrite (s.files file).bytes (body.length - rest.length) (rest.take count), now⟩).goTo
      call (.writing value body file (rest.drop count))
  | .writing value _ _ _, .writeFails => s.goTo call (.returned (.ok (value, none)))
  | .writing value _ _ [], .rename fails =>
    match if fails then none else s.temp with
    | none => s.goTo call (.returned (.ok (value, none)))
    | some file => (s.goTo call (.returned (.ok (value, none)))).install file
  | _, .crash => s.goTo call .gone
  | _, _ => s

end Steps

section Statement
variable {V : Type} (parse : Nat → Bytes → Except String V) (refresh : Nat)

def Writing (s : State V) (call : Nat) : Prop :=
  ∃ value body file rest, s.phases call = .writing value body file rest

/- A call opens the temporary file while no other has it open. -/
def Apart (s : State V) (act : Nat × Event) : Prop :=
  ∀ value body now, s.phases act.1 = .caching value body → act.2 = .openTemp now false →
    ∀ other, other ≠ act.1 → ¬ Writing s other

/- After the look at the copy and before its last reading. -/
def Between : Phase V → Prop
  | .opening _ => True
  | .reading _ _ _ => True
  | .downloading path => path = true
  | _ => False

/- A copy that is put in place is none that another call has looked at and may still read, and
   what is looked at and read of a fresh copy does not fail. -/
structure Undisturbed (s : State V) (act : Nat × Event) : Prop where
  kept : Writing s act.1 → act.2 = .rename false → ∀ other, other ≠ act.1 →
    ¬ Between (s.phases other)
  seen : ∀ now, s.phases act.1 = .looking → act.2 = .look now true →
    ∀ file, s.cache = some file → fresh refresh (s.files file) now = false
  opened : s.phases act.1 = .opening none → act.2 ≠ .openCopy true
  read : ∀ file read, s.phases act.1 = .reading none file read → act.2 ≠ .readFails

/- What a call says, by its own download and by the copy it read last. -/
def Answered (call : Nat) (story : Story) : Except String (V × Option String) → Prop
  | .ok (value, _) => (∃ body, story.body = some body ∧ parse call body = .ok value) ∨
      story.body = none ∧ ∃ copy, story.copy = some copy ∧ parse call copy.bytes = .ok value
  | .error _ => story.body = none ∧
      ∀ copy, story.copy = some copy → ∃ failure, parse call copy.bytes = .error failure

/- A value is marked as stale where it is of a copy past its refresh period. -/
def MarkedRight (story : Story) : Except String (V × Option String) → Prop
  | .ok (_, mark) => mark.isSome = true ↔
      story.body = none ∧ ∃ copy, story.copy = some copy ∧ fresh refresh copy story.looked = false
  | .error _ => True

/- The cached file is absent, as it was, or the whole body of a download that parsed. -/
structure Whole (start s : State V) : Prop where
  copy : s.cache = none ∨
    (s.cache = start.cache ∧ ∀ file, s.cache = some file → s.files file = start.files file) ∨
      ∃ file, s.cache = some file ∧ (s.files file).bytes ∈ s.bodies
  parsed : ∀ body ∈ s.bodies, ∃ call value, parse call body = .ok value

/- No call has begun, and the two paths are those of two files. -/
structure Start (s : State V) : Prop where
  idle : ∀ call, s.phases call = .idle
  untold : ∀ call, (s.stories call).copy = none ∧ (s.stories call).body = none
  none_yet : s.bodies = []
  apart : ∀ file, s.temp = some file → s.cache ≠ some file
  numbered : ∀ file, s.cache = some file ∨ s.temp = some file → file < s.next

end Statement

section Invariant
variable {V : Type} (parse : Nat → Bytes → Except String V) (refresh : Nat)

/- What holds of a call where it stands. -/
def CallOk (s : State V) (call : Nat) : Phase V → Prop
  | .idle => (s.stories call).body = none ∧ (s.stories call).copy = none
  | .looking => (s.stories call).body = none ∧ (s.stories call).copy = none
  | .opening _ => (s.stories call).body = none
  | .reading _ file read => (s.stories call).body = none ∧
      (s.stories call).copy = some (s.files file) ∧ file < s.next ∧ s.temp ≠ some file ∧
        read <+: (s.files file).bytes
  | .downloading path => (s.stories call).body = none ∧ ∀ copy,
      (s.stories call).copy = some copy → ∃ failure, parse call copy.bytes = .error failure
  | .caching value body => parse call body = .ok value ∧ body ∈ s.bodies ∧
      (s.stories call).body = some body
  | .writing value body file rest => (parse call body = .ok value ∧ body ∈ s.bodies ∧
      (s.stories call).body = some body) ∧ s.temp = some file ∧ (s.files file).bytes ++ rest = body
  | .returned result => Answered parse call (s.stories call) result
  | .gone => True

structure Inv (start s : State V) : Prop where
  whole : Whole parse start s
  apart : ∀ file, s.temp = some file → s.cache ≠ some file
  numbered : ∀ file, s.cache = some file ∨ s.temp = some file → file < s.next
  one_writer : ∀ call other, Writing s call → Writing s other → call = other
  calls : ∀ call, CallOk parse s call (s.phases call)

variable {parse refresh} {start s s' : State V} {call : Nat}

/-- A call that leaves the disk as it is changes nothing for the others. -/
theorem inv_local (call : Nat) (inv : Inv parse start s)
    (disk : s'.cache = s.cache ∧ s'.temp = s.temp ∧ s'.files = s.files ∧ s'.next = s.next)
    (others : ∀ other, other ≠ call → s'.phases other = s.phases other ∧
      s'.stories other = s.stories other)
    (bodies : s.bodies ⊆ s'.bodies) (parsed : ∀ body ∈ s'.bodies, ∃ other value,
      parse other body = .ok value) (calm : Writing s' call → Writing s call)
    (ok : CallOk parse s' call (s'.phases call)) : Inv parse start s' := by
  obtain ⟨cache, temp, files, next⟩ := disk
  have writing : ∀ other, Writing s' other → Writing s other := by
    intro other writes
    by_cases same : other = call
    · rw [same] at writes ⊢
      exact calm writes
    · unfold Writing at writes ⊢
      rwa [(others other same).1] at writes
  refine ⟨⟨?_, parsed⟩, ?_, ?_, fun first second writes writes' =>
    inv.one_writer first second (writing first writes) (writing second writes'), fun other => ?_⟩
  · rw [cache, files]
    rcases inv.whole.copy with absent | untouched | ⟨file, there, member⟩
    · exact Or.inl absent
    · exact Or.inr (Or.inl untouched)
    · exact Or.inr (Or.inr ⟨file, there, bodies member⟩)
  · rw [cache, temp]
    exact inv.apart
  · rw [cache, temp, next]
    exact inv.numbered
  · by_cases same : other = call
    · rw [same]
      exact ok
    · have before := inv.calls other
      rw [(others other same).1]
      cases at_phase : s.phases other with
      | idle =>
        rw [at_phase] at before
        simpa only [CallOk, (others other same).2] using before
      | looking =>
        rw [at_phase] at before
        simpa only [CallOk, (others other same).2] using before
      | opening failure =>
        rw [at_phase] at before
        simpa only [CallOk, (others other same).2] using before
      | reading failure file read =>
        rw [at_phase] at before
        simpa only [CallOk, (others other same).2, files, temp, next] using before
      | downloading path =>
        rw [at_phase] at before
        simpa only [CallOk, (others other same).2] using before
      | caching value body =>
        rw [at_phase] at before
        simp only [CallOk, (others other same).2] at before ⊢
        exact ⟨before.1, bodies before.2.1, before.2.2⟩
      | writing value body file rest =>
        rw [at_phase] at before
        simp only [CallOk, (others other same).2, files, temp] at before ⊢
        exact ⟨⟨before.1.1, bodies before.1.2.1, before.1.2.2⟩, before.2⟩
      | returned result =>
        rw [at_phase] at before
        simpa only [CallOk, (others other same).2] using before
      | gone => trivial

def IsWriting : Phase V → Prop
  | .writing _ _ _ _ => True
  | _ => False

theorem writing_iff : Writing s call ↔ IsWriting (s.phases call) := by
  unfold Writing
  constructor
  · rintro ⟨value, body, file, rest, here⟩
    rw [here]
    trivial
  · intro writes
    cases here : s.phases call with
    | writing value body file rest => exact ⟨value, body, file, rest, rfl⟩
    | _ =>
      rw [here] at writes
      exact writes.elim

/- A call goes on with another story, the disk and the downloads as they are. -/
theorem inv_goTo (inv : Inv parse start s) (story : Story) {phase : Phase V}
    (calm : ¬ IsWriting phase)
    (ok : CallOk parse (s.note call story) call phase) :
    Inv parse start ((s.note call story).goTo call phase) := by
  refine inv_local call inv ⟨rfl, rfl, rfl, rfl⟩ (fun other apart => ?_)
    (List.Subset.refl _) inv.whole.parsed (fun writes => ?_) ?_
  · simp [State.goTo, State.note, apart]
  · rw [writing_iff] at writes
    simp only [State.goTo, Function.update_self] at writes
    exact absurd writes calm
  · have here : ((s.note call story).goTo call phase).phases call = phase := by
      simp [State.goTo]
    rw [here]
    exact ok

theorem note_self (s : State V) (call : Nat) : s.note call (s.stories call) = s := by
  simp [State.note]

theorem inv_stay (inv : Inv parse start s) {phase : Phase V} (calm : ¬ IsWriting phase)
    (ok : CallOk parse s call phase) : Inv parse start (s.goTo call phase) := by
  have noted := inv_goTo inv (s.stories call) calm (by rwa [note_self])
  rwa [note_self] at noted

theorem without_ok {failure : Option String} (no_body : (s.stories call).body = none)
    (unusable : ∀ copy, (s.stories call).copy = some copy →
      ∃ error, parse call copy.bytes = .error error) : CallOk parse s call (withoutCopy failure) := by
  cases failure with
  | none => exact ⟨no_body, unusable⟩
  | some failure => exact ⟨no_body, unusable⟩

theorem without_calm (failure : Option String) : ¬ IsWriting (withoutCopy failure : Phase V) := by
  cases failure <;> exact id

theorem inv_downloaded (inv : Inv parse start s) {path : Bool}
    (here : s.phases call = .downloading path) (result : Except String Bytes) :
    Inv parse start (s.downloaded parse call path result) := by
  have ok := inv.calls call
  rw [here] at ok
  have failed : ∀ failure, Inv parse start (s.goTo call (afterFailure path failure)) := by
    intro failure
    cases path with
    | true => exact inv_stay inv id ok.1
    | false => exact inv_stay inv id ok
  unfold State.downloaded
  cases result with
  | error failure => exact failed failure
  | ok body =>
    simp only
    cases parsed : parse call body with
    | error failure => exact failed failure
    | ok value =>
      refine inv_local call inv ⟨rfl, rfl, rfl, rfl⟩ (fun other apart => ?_)
        (List.subset_cons_self _ _) (fun other member => ?_) (fun writes => ?_) ?_
      · simp [State.record, State.goTo, State.note, apart]
      · rcases List.mem_cons.mp member with rfl | old
        · exact ⟨call, value, parsed⟩
        · exact inv.whole.parsed other old
      · rw [writing_iff] at writes
        simp only [State.record, State.goTo, Function.update_self] at writes
        cases path <;> exact writes.elim
      · simp only [State.record, State.goTo, Function.update_self]
        cases path with
        | true => exact ⟨parsed, List.mem_cons_self, by simp [State.note]⟩
        | false => exact Or.inl ⟨body, by simp [State.note], parsed⟩

theorem overwrite_end (bytes chunk : Bytes) :
    overwrite bytes bytes.length chunk = bytes ++ chunk := by
  rw [overwrite, List.take_length, Nat.sub_self, List.drop_eq_nil_of_le (Nat.le_add_right _ _)]
  simp

/-- A call that writes the temporary file while no other does changes no file that is read. -/
theorem inv_temp (call file : Nat) (content : File) (inv : Inv parse start s)
    (is_temp : s.temp = some file ∨ s.temp = none ∧ file = s.next)
    (alone : ∀ other, other ≠ call → ¬ Writing s other)
    (disk : s'.cache = s.cache ∧ s'.temp = some file ∧
      s'.files = Function.update s.files file content ∧ s.next ≤ s'.next ∧ file < s'.next)
    (others : ∀ other, other ≠ call → s'.phases other = s.phases other ∧
      s'.stories other = s.stories other) (bodies : s'.bodies = s.bodies)
    (ok : CallOk parse s' call (s'.phases call)) : Inv parse start s' := by
  obtain ⟨cache, temp, files, grows, inside⟩ := disk
  have not_cached : s.cache ≠ some file := by
    intro cached
    rcases is_temp with old | ⟨_, new⟩
    · exact inv.apart file old cached
    · have bound := inv.numbered file (Or.inl cached)
      omega
  have only_call : ∀ other, Writing s' other → other = call := by
    intro other writes
    by_contra apart
    rw [writing_iff, (others other apart).1, ← writing_iff] at writes
    exact alone other apart writes
  refine ⟨⟨?_, ?_⟩, fun file' there => ?_, fun file' there => ?_,
    fun first second writes writes' => (only_call first writes).trans (only_call second writes').symm,
    fun other => ?_⟩
  · have kept : ∀ cached, s.cache = some cached → s'.files cached = s.files cached := by
      intro cached there
      rw [files, Function.update_of_ne fun same => not_cached (there.trans (congrArg some same))]
    rcases inv.whole.copy with absent | ⟨untouched, same⟩ | ⟨cached, there, member⟩
    · exact Or.inl (cache.trans absent)
    · refine Or.inr (Or.inl ⟨cache.trans untouched, fun cached there => ?_⟩)
      rw [cache] at there
      rw [kept cached there, same cached there]
    · refine Or.inr (Or.inr ⟨cached, cache.trans there, ?_⟩)
      rwa [kept cached there, bodies]
  · rw [bodies]
    exact inv.whole.parsed
  · rw [temp] at there
    cases there
    rwa [cache]
  · rw [cache, temp] at there
    rcases there with cached | new
    · exact (inv.numbered file' (Or.inl cached)).trans_le grows
    · cases new
      exact inside
  · by_cases same : other = call
    · rw [same]
      exact ok
    · have before := inv.calls other
      have no_writer := alone other same
      rw [writing_iff] at no_writer
      rw [(others other same).1]
      cases at_phase : s.phases other with
      | reading failure read_file read =>
        rw [at_phase] at before
        obtain ⟨no_body, copy, bound, not_temp, part⟩ := before
        have apart : read_file ≠ file := by
          rintro rfl
          rcases is_temp with old | ⟨_, new⟩
          · exact not_temp old
          · omega
        simp only [CallOk, (others other same).2, files, temp, Function.update_of_ne apart]
        exact ⟨no_body, copy, bound.trans_le grows, fun same => apart (Option.some.inj same).symm,
          part⟩
      | writing value body file rest =>
        rw [at_phase] at no_writer
        exact (no_writer trivial).elim
      | caching value body =>
        rw [at_phase] at before
        simpa only [CallOk, (others other same).2, bodies] using before
      | idle | looking | opening failure | downloading path | returned result =>
        rw [at_phase] at before
        simpa only [CallOk, (others other same).2] using before
      | gone => trivial

/-- What is put in place is the whole body that the call has written. -/
theorem inv_rename (inv : Inv parse start s) {value : V} {body : Bytes} {file : Nat}
    (here : s.phases call = .writing value body file []) :
    Inv parse start ((s.goTo call (.returned (.ok (value, none)))).install file) := by
  have ok := inv.calls call
  rw [here] at ok
  obtain ⟨⟨parsed, member, told⟩, is_temp, whole⟩ := ok
  rw [List.append_nil] at whole
  have alone : ∀ other, other ≠ call → ¬ Writing s other := fun other apart writes =>
    apart (inv.one_writer other call writes ⟨value, body, file, [], here⟩)
  have none_left : ∀ other,
      ¬ Writing ((s.goTo call (.returned (.ok (value, none)))).install file) other := by
    intro other writes
    rw [writing_iff] at writes
    by_cases same : other = call
    · simp [State.install, State.goTo, same, IsWriting] at writes
    · simp only [State.install, State.goTo, Function.update_of_ne same] at writes
      exact alone other same (writing_iff.mpr writes)
  refine ⟨⟨Or.inr (Or.inr ⟨file, rfl, ?_⟩), inv.whole.parsed⟩, fun file' there => (nomatch there),
    fun file' there => ?_, fun first _ writes _ => absurd writes (none_left first), fun other => ?_⟩
  · exact whole ▸ member
  · rcases there with installed | none_there
    · cases installed
      exact inv.numbered file (Or.inr is_temp)
    · cases none_there
  · by_cases same : other = call
    · simp only [State.install, State.goTo, same, Function.update_self]
      exact Or.inl ⟨body, told, parsed⟩
    · have before := inv.calls other
      have no_writer := alone other same
      rw [writing_iff] at no_writer
      simp only [State.install, State.goTo, Function.update_of_ne same]
      cases at_phase : s.phases other with
      | reading failure read_file read =>
        rw [at_phase] at before
        obtain ⟨no_body, copy, bound, _, part⟩ := before
        exact ⟨no_body, copy, bound, fun there => (nomatch there), part⟩
      | writing value body file rest =>
        rw [at_phase] at no_writer
        exact (no_writer trivial).elim
      | idle | looking | opening failure | downloading path | returned result | caching value body =>
        rw [at_phase] at before
        exact before
      | gone => trivial

/-- What a step keeps while no two calls write at once. -/
theorem inv_step (inv : Inv parse start s) {act : Nat × Event} (apart : Apart s act) :
    Inv parse start (step parse refresh s act) := by
  obtain ⟨call, event⟩ := act
  have ok := inv.calls call
  unfold step
  simp only
  split
  · rename_i path here
    rw [here] at ok
    refine inv_stay inv ?_ ?_
    · cases path <;> exact id
    · cases path with
      | true => exact ok
      | false => exact ⟨ok.1, fun copy there => by rw [ok.2] at there; cases there⟩
  · rename_i now fails here
    rw [here] at ok
    refine inv_goTo inv _ ?_ ?_
    · split_ifs <;> exact id
    · split_ifs
      · simpa [CallOk, State.note] using ok.1
      · refine ⟨by simpa [State.note] using ok.1, fun copy there => ?_⟩
        simp only [State.note, Function.update_self, ok.2] at there
        cases there
  · rename_i failure fails here
    rw [here] at ok
    have no_body : (s.stories call).body = none := ok
    split
    · rename_i file found
      have cached : s.cache = some file := by
        cases fails with
        | true => cases found
        | false => exact found
      refine inv_goTo inv _ id ⟨by simpa [State.note] using no_body, by simp [State.note],
        inv.numbered file (Or.inl cached), fun is_temp => inv.apart file is_temp cached, ?_⟩
      exact List.nil_prefix
    · refine inv_goTo inv _ (without_calm failure) (without_ok ?_ ?_)
      · simpa [State.note] using no_body
      · simp [State.note]
  · rename_i failure file read count here
    rw [here] at ok
    obtain ⟨no_body, copy, bound, not_temp, part⟩ := ok
    refine inv_stay inv id ⟨no_body, copy, bound, not_temp, ?_⟩
    have rest := List.prefix_iff_eq_append.mp part
    conv_rhs => rw [← rest]
    exact (List.prefix_append_right_inj read).mpr (List.take_prefix _ _)
  · rename_i failure file read here
    rw [here] at ok
    obtain ⟨no_body, copy, bound, not_temp, part⟩ := ok
    split_ifs with at_end
    · have all : read = (s.files file).bytes := part.eq_of_length_le at_end
      cases parsed : parse call read with
      | ok value =>
        refine inv_stay inv id (Or.inr ⟨no_body, _, copy, ?_⟩)
        rw [← all, parsed]
      | error error =>
        refine inv_stay inv (without_calm failure) (without_ok no_body fun other there => ?_)
        rw [copy] at there
        cases there
        exact ⟨error, all ▸ parsed⟩
    · exact inv
  · rename_i failure file read here
    rw [here] at ok
    refine inv_goTo inv _ (without_calm failure) (without_ok ?_ ?_)
    · simpa [State.note] using ok.1
    · simp [State.note]
  · rename_i path result here
    exact inv_downloaded inv here result
  · rename_i value body now fails here
    rw [here] at ok
    split_ifs with failed
    · exact inv_stay inv id (Or.inl ⟨body, ok.2.2, ok.1⟩)
    · have opened : fails = false := Bool.eq_false_iff.mpr failed
      have alone := apart value body now here (congrArg (Event.openTemp now) opened)
      refine inv_temp call (s.temp.getD s.next) ⟨[], now⟩ inv ?_ alone
        ⟨rfl, rfl, rfl, le_max_left _ _, Nat.lt_of_succ_le (le_max_right _ _)⟩
        (fun other apart => ?_) rfl ?_
      · cases s.temp with
        | none => exact Or.inr ⟨rfl, rfl⟩
        | some file => exact Or.inl rfl
      · simp [State.create, State.goTo, State.put, apart]
      · simp only [State.create, State.goTo, Function.update_self]
        exact ⟨ok, rfl, by simp [State.put]⟩
  · rename_i value body file rest count now here
    rw [here] at ok
    obtain ⟨known, is_temp, parts⟩ := ok
    have offset : body.length - rest.length = (s.files file).bytes.length := by
      rw [← parts, List.length_append, Nat.add_sub_cancel]
    refine inv_temp call file _ inv (Or.inl is_temp) (fun other apart writes =>
      apart (inv.one_writer other call writes ⟨value, body, file, rest, here⟩))
      ⟨rfl, is_temp, rfl, le_refl _, inv.numbered file (Or.inr is_temp)⟩
      (fun other apart => ?_) rfl ?_
    · simp [State.goTo, State.put, apart]
    · simp only [State.goTo, Function.update_self]
      refine ⟨known, is_temp, ?_⟩
      simp only [State.put, Function.update_self]
      rw [offset, overwrite_end, List.append_assoc, List.take_append_drop, parts]
  · rename_i value body file rest here
    rw [here] at ok
    exact inv_stay inv id (Or.inl ⟨body, ok.1.2.2, ok.1.1⟩)
  · rename_i value body file fails here
    rw [here] at ok
    split
    · exact inv_stay inv id (Or.inl ⟨body, ok.1.2.2, ok.1.1⟩)
    · rename_i installed found
      have same : installed = file := by
        cases fails with
        | true => cases found
        | false => exact Option.some.inj (found.symm.trans ok.2.1)
      rw [same]
      exact inv_rename inv here
  · exact inv_stay inv id trivial
  · exact inv

end Invariant

section Marks
variable {V : Type} {parse : Nat → Bytes → Except String V} {refresh : Nat} {start s s' : State V}
  {call : Nat} {act : Nat × Event}

/- What a step leaves to the other calls. -/
structure Frame (s s' : State V) (call : Nat) (event : Event) : Prop where
  others : ∀ other, other ≠ call → s'.phases other = s.phases other ∧
    s'.stories other = s.stories other
  cache : s'.cache = s.cache ∨ Writing s call ∧ event = .rename false
  files : ∀ file, s.temp ≠ some file → file < s.next → s'.files file = s.files file

theorem frame_goTo (s : State V) (call : Nat) (story : Story) (phase : Phase V) (event : Event) :
    Frame s ((s.note call story).goTo call phase) call event where
  others := fun other apart => by simp [State.goTo, State.note, apart]
  cache := Or.inl rfl
  files := fun _ _ _ => rfl

theorem frame_stay (s : State V) (call : Nat) (phase : Phase V) (event : Event) :
    Frame s (s.goTo call phase) call event where
  others := fun other apart => by simp [State.goTo, apart]
  cache := Or.inl rfl
  files := fun _ _ _ => rfl

theorem frame_same (s : State V) (call : Nat) (event : Event) : Frame s s call event where
  others := fun _ _ => ⟨rfl, rfl⟩
  cache := Or.inl rfl
  files := fun _ _ _ => rfl

theorem step_frame (refresh : Nat) (inv : Inv parse start s) (act : Nat × Event) :
    Frame s (step parse refresh s act) act.1 act.2 := by
  obtain ⟨call, event⟩ := act
  have ok := inv.calls call
  unfold step
  simp only
  split
  · exact frame_stay ..
  · exact frame_goTo ..
  · split
    · exact frame_goTo ..
    · exact frame_goTo ..
  · exact frame_stay ..
  · split_ifs
    · exact frame_stay ..
    · exact frame_same ..
  · exact frame_goTo ..
  · rename_i path result here
    unfold State.downloaded
    split
    · exact frame_stay ..
    · split
      · exact frame_stay ..
      · exact ⟨(frame_goTo s call _ _ (.download (.ok []))).others, Or.inl rfl, fun _ _ _ => rfl⟩
  · rename_i value body now fails here
    split_ifs
    · exact frame_stay ..
    · refine ⟨fun other apart => ?_, Or.inl rfl, fun file not_temp bound => ?_⟩
      · simp [State.create, State.goTo, State.put, apart]
      · have apart : file ≠ s.temp.getD s.next := by
          cases given : s.temp with
          | none => exact bound.ne
          | some temp => exact fun same => not_temp (given.trans (congrArg some same.symm))
        simp [State.create, State.goTo, State.put, apart]
  · rename_i value body file rest count now here
    rw [here] at ok
    refine ⟨fun other apart => ?_, Or.inl rfl, fun other not_temp _ => ?_⟩
    · simp [State.goTo, State.put, apart]
    · have apart : other ≠ file := fun same => not_temp (ok.2.1.trans (congrArg some same.symm))
      simp [State.goTo, State.put, apart]
  · exact frame_stay ..
  · rename_i value body file fails here
    split
    · exact frame_stay ..
    · rename_i installed found
      refine ⟨fun other apart => ?_, Or.inr ⟨⟨value, body, file, [], here⟩, ?_⟩, fun _ _ _ => rfl⟩
      · simp [State.install, State.goTo, apart]
      · cases fails with
        | true => cases found
        | false => rfl
  · exact frame_stay ..
  · exact frame_same ..

variable (parse refresh)

/- The copy that is there is outdated, or it does not parse. -/
def Useless (story : Story) (call : Nat) (file : File) : Prop :=
  fresh refresh file story.looked = false ∨ ∃ failure, parse call file.bytes = .error failure

/- What a mark will rest on. -/
def MarkOk (s : State V) (call : Nat) : Phase V → Prop
  | .opening none => ∃ file, s.cache = some file ∧
      fresh refresh (s.files file) (s.stories call).looked = true
  | .opening (some _) => ∀ file, s.cache = some file →
      Useless parse refresh (s.stories call) call (s.files file)
  | .downloading path => path = true → ∀ file, s.cache = some file →
      Useless parse refresh (s.stories call) call (s.files file)
  | .reading none file _ => s.cache = some file ∧
      fresh refresh (s.files file) (s.stories call).looked = true
  | .reading (some _) file _ => Useless parse refresh (s.stories call) call (s.files file)
  | .returned result => MarkedRight refresh (s.stories call) result
  | _ => True

variable {parse refresh}

theorem mark_frame (inv : Inv parse start s) (frame : Frame s s' call act.2)
    (kept : ∀ other, other ≠ call → Between (s.phases other) → s'.cache = s.cache) {other : Nat}
    (apart : other ≠ call) (before : MarkOk parse refresh s other (s.phases other)) :
    MarkOk parse refresh s' other (s'.phases other) := by
  have cached : ∀ file, s.cache = some file → s'.files file = s.files file := fun file there =>
    frame.files file (fun is_temp => inv.apart file is_temp there) (inv.numbered file (Or.inl there))
  have same := kept other apart
  have ok := inv.calls other
  rw [(frame.others other apart).1]
  cases at_phase : s.phases other with
  | opening failure =>
    rw [at_phase] at before same
    cases failure with
    | none =>
      obtain ⟨file, there, is_fresh⟩ := before
      refine ⟨file, (same trivial).trans there, ?_⟩
      rwa [cached file there, (frame.others other apart).2]
    | some failure =>
      intro file there
      rw [same trivial] at there
      rw [cached file there, (frame.others other apart).2]
      exact before file there
  | reading failure file read =>
    rw [at_phase] at before same ok
    have unchanged := frame.files file ok.2.2.2.1 ok.2.2.1
    cases failure with
    | none =>
      refine ⟨(same trivial).trans before.1, ?_⟩
      rw [unchanged, (frame.others other apart).2]
      exact before.2
    | some failure =>
      simp only [MarkOk, unchanged, (frame.others other apart).2]
      exact before
  | downloading path =>
    rw [at_phase] at before same
    intro is_path file there
    rw [same is_path] at there
    rw [cached file there, (frame.others other apart).2]
    exact before is_path file there
  | returned result =>
    rw [at_phase] at before
    simp only [MarkOk, (frame.others other apart).2]
    exact before
  | idle | looking | caching value body | writing value body file rest | gone => trivial

theorem failure_mark {path : Bool} {failure : String}
    (useless : path = true → ∀ file, s.cache = some file →
      Useless parse refresh (s.stories call) call (s.files file)) :
    MarkOk parse refresh s call (afterFailure path failure) := by
  cases path with
  | true => exact useless rfl
  | false => trivial

/- A value that is not of a copy has no mark. -/
theorem body_marked {story : Story} {body : Bytes} (told : story.body = some body) (value : V) :
    MarkedRight refresh story (.ok (value, none)) := by
  simp [MarkedRight, told]

theorem mark_step (inv : Inv parse start s)
    (marks : ∀ other, MarkOk parse refresh s other (s.phases other))
    (quiet : Undisturbed refresh s act) (other : Nat) :
    MarkOk parse refresh (step parse refresh s act) other
      ((step parse refresh s act).phases other) := by
  by_cases apart : other ≠ act.1
  · have frame := step_frame refresh inv act
    refine mark_frame inv frame (fun third differs between => ?_) apart (marks other)
    rcases frame.cache with same | ⟨writes, renames⟩
    · exact same
    · exact absurd between (quiet.kept writes renames third differs)
  · obtain ⟨call, event⟩ := act
    rw [ne_eq, not_not] at apart
    subst apart
    have ok := inv.calls other
    have before := marks other
    unfold step
    simp only
    split
    · rename_i path here
      simp only [State.goTo, Function.update_self]
      cases path with
      | true => trivial
      | false => exact fun is_path => nomatch is_path
    · rename_i now fails here
      simp only [State.goTo, State.note, Function.update_self]
      split_ifs with found
      · rw [Bool.and_eq_true, Option.any_eq_true] at found
        obtain ⟨_, file, there, is_fresh⟩ := found
        exact ⟨file, there, by simpa using is_fresh⟩
      · refine fun _ file there => Or.inl ?_
        simp only [Function.update_self]
        cases fails with
        | true => exact quiet.seen now here rfl file there
        | false =>
          rw [there] at found
          simpa using found
    · rename_i failure fails here
      rw [here] at before
      have no_fail : failure = none → fails = false := by
        rintro rfl
        exact Bool.eq_false_iff.mpr fun fails => quiet.opened here (congrArg Event.openCopy fails)
      split
      · rename_i file found
        have cached : s.cache = some file := by
          cases fails with
          | true => cases found
          | false => exact found
        simp only [State.goTo, State.note, Function.update_self]
        cases failure with
        | none =>
          obtain ⟨looked_at, there, is_fresh⟩ := before
          rw [cached] at there
          cases there
          exact ⟨cached, by simpa using is_fresh⟩
        | some failure => simpa [MarkOk, Useless] using before file cached
      · rename_i missing
        simp only [State.goTo, Function.update_self]
        cases failure with
        | none =>
          obtain ⟨file, there, _⟩ := before
          rw [no_fail rfl] at missing
          cases there.symm.trans missing
        | some failure => trivial
    · rename_i failure file read count here
      rw [here] at before
      simp only [State.goTo, Function.update_self]
      cases failure <;> exact before
    · rename_i failure file read here
      rw [here] at ok before
      obtain ⟨no_body, copy, bound, not_temp, part⟩ := ok
      split_ifs with at_end
      · have all : read = (s.files file).bytes := part.eq_of_length_le at_end
        simp only [State.goTo, Function.update_self]
        cases parsed : parse other read with
        | ok value =>
          cases failure with
          | none => simp [afterRead, MarkOk, MarkedRight, copy, before.2]
          | some failure =>
            have outdated : fresh refresh (s.files file) (s.stories other).looked = false := by
              refine before.resolve_right ?_
              rintro ⟨error, refused⟩
              rw [← all, parsed] at refused
              cases refused
            simp [afterRead, MarkOk, MarkedRight, copy, no_body, outdated]
        | error error =>
          cases failure with
          | none =>
            intro _ cached there
            have same : cached = file := Option.some.inj (there.symm.trans before.1)
            exact Or.inr ⟨error, by rw [same]; exact all ▸ parsed⟩
          | some failure => trivial
      · rw [here]
        exact before
    · rename_i failure file read here
      simp only [State.goTo, Function.update_self]
      cases failure with
      | none => exact absurd rfl (quiet.read file read here)
      | some failure => trivial
    · rename_i path result here
      rw [here] at before
      unfold State.downloaded
      split
      · simp only [State.goTo, Function.update_self]
        exact failure_mark before
      · rename_i body
        split
        · simp only [State.goTo, Function.update_self]
          exact failure_mark before
        · rename_i value parsed
          simp only [State.record, State.goTo, State.note, Function.update_self]
          cases path with
          | true => trivial
          | false =>
            have told : Story.body ⟨(s.stories other).looked, (s.stories other).copy, some body⟩ =
                some body := rfl
            simpa [MarkOk] using body_marked told value
    · rename_i value body now fails here
      rw [here] at ok
      split_ifs
      · simp only [State.goTo, Function.update_self]
        exact body_marked ok.2.2 value
      · simp only [State.create, State.goTo, Function.update_self]
        trivial
    · simp only [State.goTo, Function.update_self]
      trivial
    · rename_i value body file rest here
      rw [here] at ok
      simp only [State.goTo, Function.update_self]
      exact body_marked ok.1.2.2 value
    · rename_i value body file fails here
      rw [here] at ok
      split
      · simp only [State.goTo, Function.update_self]
        exact body_marked ok.1.2.2 value
      · simp only [State.install, State.goTo, Function.update_self]
        exact body_marked ok.1.2.2 value
    · simp only [State.goTo, Function.update_self]
      trivial
    · exact before

end Marks

section Runs
variable {V : Type} {parse : Nat → Bytes → Except String V} {refresh : Nat} {start : State V}

theorem inv_start (begins : Start start) : Inv parse start start where
  whole := ⟨Or.inr (Or.inl ⟨rfl, fun _ _ => rfl⟩), fun body member => by
    rw [begins.none_yet] at member
    cases member⟩
  apart := begins.apart
  numbered := begins.numbered
  one_writer := fun call other writes _ => by
    rw [writing_iff, begins.idle call] at writes
    exact writes.elim
  calls := fun call => by
    rw [begins.idle call]
    exact ⟨(begins.untold call).2, (begins.untold call).1⟩

theorem marks_start (begins : Start start) (call : Nat) :
    MarkOk parse refresh start call (start.phases call) := by
  rw [begins.idle call]
  trivial

/-- While no call opens the temporary file that another has open, the cached file is whole at every
moment and a call fails only without a download or a copy that parses. Where besides nobody
replaces a copy that another call is about to read, the marks tell the outdated copies. -/
theorem copy_usable (begins : Start start) (acts : List (Nat × Event))
    (apart : Along (step parse refresh) Apart start acts) :
    Whole parse start (run (step parse refresh) start acts) ∧
    (∀ call result, (run (step parse refresh) start acts).phases call = .returned result →
      Answered parse call ((run (step parse refresh) start acts).stories call) result) ∧
    (Along (step parse refresh) (Undisturbed refresh) start acts →
      ∀ call result, (run (step parse refresh) start acts).phases call = .returned result →
        MarkedRight refresh ((run (step parse refresh) start acts).stories call) result) := by
  have inv : Inv parse start (run (step parse refresh) start acts) :=
    run_keeps (P := Apart) (I := Inv parse start) (fun _ _ inv apart => inv_step inv apart)
      (inv_start begins) apart
  refine ⟨inv.whole, fun call result here => ?_, fun quiet call result here => ?_⟩
  · have ok := inv.calls call
    rwa [here] at ok
  · have both := along_and apart quiet
    have marks := run_keeps (I := fun s => Inv parse start s ∧
      ∀ call, MarkOk parse refresh s call (s.phases call))
      (fun _ _ kept conditions => ⟨inv_step kept.1 conditions.1,
        mark_step kept.1 kept.2 conditions.2⟩) ⟨inv_start begins, marks_start begins⟩ both
    have mark := marks.2 call
    rwa [here] at mark

/- Anything but nothing parses. -/
def parseSome (_ : Nat) (bytes : Bytes) : Except String Bytes :=
  if bytes.isEmpty then .error "empty feed" else .ok bytes

def emptyDisk : State Bytes where
  cache := none
  temp := none
  files := fun _ => ⟨[], 0⟩
  next := 0
  phases := fun _ => .idle
  stories := fun _ => ⟨0, none, none⟩
  bodies := []

theorem emptyDisk_start : Start emptyDisk where
  idle := fun _ => rfl
  untold := fun _ => ⟨rfl, rfl⟩
  none_yet := rfl
  apart := fun _ there => nomatch there
  numbered := fun _ there => there.elim nofun nofun

def oneCall : List (Nat × Event) :=
  [(0, .begin true), (0, .look 5 false), (0, .download (.ok [1])), (0, .openTemp 6 false),
    (0, .write 1 6), (0, .rename false)]

theorem copy_usable_one :
    Whole parseSome emptyDisk (run (step parseSome 10) emptyDisk oneCall) := by
  refine (copy_usable emptyDisk_start oneCall ⟨nofun, nofun, nofun, ?_, nofun, nofun, trivial⟩).1
  rintro value body now here event other apart ⟨_, _, _, _, writes⟩
  have idle : other ≠ 0 := apart
  simp [step, State.goTo, State.note, State.downloaded, State.record, parseSome, emptyDisk,
    idle] at writes

/- The second call opens the temporary file before the first renames it. -/
def twoCalls : List (Nat × Event) :=
  [(0, .begin true), (1, .begin true), (0, .look 5 false), (1, .look 5 false),
    (0, .download (.ok [1])), (1, .download (.ok [1])), (0, .openTemp 6 false), (0, .write 1 6),
    (1, .openTemp 7 false), (0, .rename false)]

/-- What is put in place is then what the second call has written so far: nothing. -/
theorem copy_torn : ¬ Whole parseSome emptyDisk (run (step parseSome 10) emptyDisk twoCalls) := by
  rintro ⟨absent | ⟨untouched, _⟩ | ⟨file, there, member⟩, _⟩
  · exact absurd absent (by decide)
  · exact absurd untouched (by decide)
  · cases there
    exact absurd member (by decide)

end Runs

end SentinelAgent.ExploitFeeds
