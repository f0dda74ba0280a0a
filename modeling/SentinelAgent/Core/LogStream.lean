import SentinelAgent.Library.Runs
import SentinelAgent.Library.Text

/-!
Who reads the authentication log of a Linux system: the stream of the journal or, when it cannot
be started, the followed log files. Whether the stream still runs, whether one can be started, the
files there are and the clock are arguments of a pass.
-/
namespace SentinelAgent.Logs
open Runs Text

inductive LogFileFormat where
  | syslog | json | web | audit | text
  deriving DecidableEq

structure LogFileConfig where
  path : String
  format : LogFileFormat
  service : Option String
  deriving DecidableEq

def maxFiles : Nat := 64

def linuxFallbackFiles : List String := ["/var/log/auth.log", "/var/log/secure"]

def auditLog : String := "/var/log/audit/audit.log"

/- In nanoseconds. -/
def streamRetry : Nat := 300 * 1000000000

/- The files that are followed. -/
structure LogFileTailer where
  files : List LogFileConfig
  deriving DecidableEq

namespace LogFileTailer

def isFollowing (tailer : LogFileTailer) (path : String) : Bool :=
  tailer.files.any fun file => file.path == path

def follow (tailer : LogFileTailer) (spec : LogFileConfig) : Except String LogFileTailer :=
  if startsWith spec.path '/' = false then .error (spec.path ++ ": not an absolute path")
  else if tailer.isFollowing spec.path then .error (spec.path ++ ": declared twice")
  else if maxFiles ≤ tailer.files.length then
    .error (spec.path ++ s!": more than {maxFiles} files declared")
  else .ok ⟨tailer.files ++ [spec]⟩

/- The declared files that can be followed, and what is wrong with the others. -/
def new (specs : List LogFileConfig) : LogFileTailer × List String :=
  specs.foldl (fun made spec =>
    match made.1.follow spec with
    | .ok tailer => (tailer, made.2)
    | .error reason => (made.1, made.2 ++ [reason])) (⟨[]⟩, [])

end LogFileTailer

def fallbackSpec (path : String) : LogFileConfig := ⟨path, .syslog, some "auth"⟩

def followFallback (existing : List String) (made : LogFileTailer × List String) (path : String) :
    LogFileTailer × List String :=
  if !existing.contains path || made.1.isFollowing path then made
  else
    match made.1.follow (fallbackSpec path) with
    | .ok tailer => (tailer, made.2 ++ [path])
    | .error _ => made

/- Follow those of the candidates that exist, and say which were added. -/
def followFallbackFiles (existing : List String) (tailer : LogFileTailer)
    (candidates : List String) : LogFileTailer × List String :=
  candidates.foldl (followFallback existing) (tailer, [])

/- Whether there is a stream, the files, and when a stream may be started again. -/
structure LogSources where
  stream : Bool
  tailer : LogFileTailer
  nextStreamAttempt : Option Nat
  deriving DecidableEq

/- What a pass finds. -/
structure StreamPass where
  now : Nat
  isRunning : Bool
  canStart : Bool
  existing : List String

def load (declared : List LogFileConfig) (fimWhodata : Bool) (now : Nat) : LogSources :=
  let tailer := (LogFileTailer.new declared).1
  let tailer :=
    if fimWhodata && !tailer.isFollowing auditLog then
      match tailer.follow ⟨auditLog, .audit, some "auditd"⟩ with
      | .ok tailer => tailer
      | .error _ => tailer
    else tailer
  ⟨false, tailer, some now⟩

/- Start the stream when its time has come. -/
def startStream (sources : LogSources) (pass : StreamPass) : LogSources :=
  if sources.nextStreamAttempt.all fun time => decide (pass.now < time) then sources
  else if pass.canStart then { sources with stream := true, nextStreamAttempt := none }
  else
    let tailer := (followFallbackFiles pass.existing sources.tailer linuxFallbackFiles).1
    { sources with
      tailer := tailer
      nextStreamAttempt := if tailer.files.isEmpty then some (pass.now + streamRetry) else none }

def ensureStream (sources : LogSources) (pass : StreamPass) : LogSources :=
  if sources.stream && pass.isRunning then sources
  else if sources.stream then
    startStream { sources with stream := false, nextStreamAttempt := some (pass.now + streamRetry) }
      pass
  else startStream sources pass

/-! One reader. -/

/- Whether a path is that of the authentication log: one that is known, or another name of it. -/
def isAuthLog (otherName : String → Bool) (path : String) : Bool :=
  linuxFallbackFiles.contains path || otherName path

/- A file that is followed holds the authentication log. -/
def ReadFromFile (otherName : String → Bool) (tailer : LogFileTailer) (existing : List String) :
    Prop :=
  ∃ file ∈ tailer.files, isAuthLog otherName file.path = true ∧ file.path ∈ existing

/- Read once, or to be tried again. -/
def ReadOnce (otherName : String → Bool) (sources : LogSources) (existing : List String) : Prop :=
  ¬ (sources.stream = true ∧ ReadFromFile otherName sources.tailer existing) ∧
    (sources.stream = true ∨ ReadFromFile otherName sources.tailer existing ∨
      sources.nextStreamAttempt.isSome = true)

/- A known file that can be followed when the stream cannot be started. -/
def FallbackFollowed (tailer : LogFileTailer) (existing : List String) : Prop :=
  tailer.files.length < maxFiles ∧ ∃ path ∈ linuxFallbackFiles, path ∈ existing

/- The stream is not beside a file, and where it cannot be started there is a file or none is
   followed. -/
def OneReader (otherName : String → Bool) (sources : LogSources) (pass : StreamPass) : Prop :=
  if sources.stream = true then
    pass.isRunning = true → ¬ ReadFromFile otherName sources.tailer pass.existing
  else
    match sources.nextStreamAttempt with
    | none => ReadFromFile otherName sources.tailer pass.existing
    | some time => time ≤ pass.now →
      if pass.canStart = true then ¬ ReadFromFile otherName sources.tailer pass.existing
      else sources.tailer.files = [] ∨ ReadFromFile otherName sources.tailer pass.existing ∨
        FallbackFollowed sources.tailer pass.existing

section Fallback
variable {otherName : String → Bool} {existing : List String}

theorem isAuthLog_known {path : String} (known : path ∈ linuxFallbackFiles) :
    isAuthLog otherName path = true := by
  rw [isAuthLog, List.contains_iff_mem.mpr known, Bool.true_or]

/-- A candidate is left alone, or it exists and is followed from now on. -/
theorem followFallback_cases (made : LogFileTailer × List String) (path : String) :
    (followFallback existing made path).1 = made.1 ∨
      (path ∈ existing ∧ made.1.files.length < maxFiles ∧
        (followFallback existing made path).1.files = made.1.files ++ [fallbackSpec path]) := by
  unfold followFallback
  split
  · exact Or.inl rfl
  · rename_i wanted
    have there : path ∈ existing := by
      by_contra absent
      exact wanted (by simp [absent])
    cases followed : made.1.follow (fallbackSpec path) with
    | error reason => exact Or.inl rfl
    | ok tailer =>
      unfold LogFileTailer.follow at followed
      split_ifs at followed with relative following crowded
      exact Or.inr ⟨there, Nat.lt_of_not_le crowded, by rw [← Except.ok.inj followed]⟩

theorem fallback_absolute : ∀ path ∈ linuxFallbackFiles,
    ¬ startsWith (fallbackSpec path).path '/' = false := by
  decide

theorem followFallback_follows {made : LogFileTailer × List String} {path : String}
    (known : path ∈ linuxFallbackFiles) (there : path ∈ existing)
    (room : made.1.files.length < maxFiles) :
    ∃ file ∈ (followFallback existing made path).1.files, file.path = path := by
  unfold followFallback
  by_cases following : made.1.isFollowing path = true
  · rw [if_pos (by simp [following])]
    obtain ⟨file, member, same⟩ := List.any_eq_true.mp following
    exact ⟨file, member, by simpa using same⟩
  · have followed : made.1.follow (fallbackSpec path) =
        .ok ⟨made.1.files ++ [fallbackSpec path]⟩ := by
      rw [LogFileTailer.follow, if_neg (fallback_absolute path known)]
      exact (if_neg following).trans (if_neg (Nat.not_le_of_lt room))
    rw [if_neg (by simp [following, there]), followed]
    exact ⟨fallbackSpec path, List.mem_append_right _ (List.mem_singleton.mpr rfl), rfl⟩

/-- What is followed stays so, and what is added exists. -/
theorem foldl_followFallback (candidates : List String) (made : LogFileTailer × List String) :
    (∀ file ∈ made.1.files,
      file ∈ (candidates.foldl (followFallback existing) made).1.files) ∧
    ∀ file ∈ (candidates.foldl (followFallback existing) made).1.files,
      file ∈ made.1.files ∨
        (file.path ∈ candidates ∧ file.path ∈ existing ∧ made.1.files.length < maxFiles) := by
  induction candidates generalizing made with
  | nil => exact ⟨fun _ member => member, fun _ member => Or.inl member⟩
  | cons path candidates ih =>
    obtain ⟨kept, origin⟩ := ih (followFallback existing made path)
    rw [List.foldl_cons]
    rcases followFallback_cases made path with same | ⟨there, room, added⟩
    · rw [same] at kept origin
      refine ⟨kept, ?_⟩
      intro file member
      rcases origin file member with old | ⟨among, here_⟩
      · exact Or.inl old
      · exact Or.inr ⟨List.mem_cons_of_mem path among, here_⟩
    · rw [added] at kept
      refine ⟨fun file member => kept file (List.mem_append_left _ member), ?_⟩
      intro file member
      rcases origin file member with old | ⟨among, here_⟩
      · rw [added] at old
        rcases List.mem_append.mp old with older | here
        · exact Or.inl older
        · rw [List.mem_singleton.mp here]
          exact Or.inr ⟨List.mem_cons_self, there, room⟩
      · exact Or.inr ⟨List.mem_cons_of_mem path among, here_.1, room⟩

theorem foldl_follows {candidates : List String} (known : ∀ path ∈ candidates, path ∈ linuxFallbackFiles)
    {made : LogFileTailer × List String} (room : made.1.files.length < maxFiles)
    (some_there : ∃ path ∈ candidates, path ∈ existing) :
    ∃ file ∈ (candidates.foldl (followFallback existing) made).1.files,
      file.path ∈ linuxFallbackFiles ∧ file.path ∈ existing := by
  induction candidates generalizing made with
  | nil =>
    obtain ⟨path, member, _⟩ := some_there
    cases member
  | cons path candidates ih =>
    rw [List.foldl_cons]
    by_cases there : path ∈ existing
    · obtain ⟨file, member, same⟩ :=
        followFallback_follows (known path List.mem_cons_self) there room
      refine ⟨file, (foldl_followFallback candidates _).1 file member, ?_, ?_⟩
      · rw [same]
        exact known path List.mem_cons_self
      · rwa [same]
    · have same : followFallback existing made path = made := by
        unfold followFallback
        rw [if_pos (by simp [there])]
      rw [same]
      obtain ⟨other, member, here_⟩ := some_there
      refine ih (fun path' among => known path' (List.mem_cons_of_mem path among)) room ⟨other, ?_, here_⟩
      rcases List.mem_cons.mp member with here | later
      · rw [here] at here_
        exact absurd here_ there
      · exact later

/-- After the known files are followed one is read, or no file is, just when one was before, one
    can be or none was followed. -/
theorem fallback_reads (tailer : LogFileTailer) :
    ReadFromFile otherName (followFallbackFiles existing tailer linuxFallbackFiles).1 existing ∨
        (followFallbackFiles existing tailer linuxFallbackFiles).1.files = [] ↔
      tailer.files = [] ∨ ReadFromFile otherName tailer existing ∨
        FallbackFollowed tailer existing := by
  have laws : (∀ file ∈ tailer.files,
      file ∈ (followFallbackFiles existing tailer linuxFallbackFiles).1.files) ∧
      ∀ file ∈ (followFallbackFiles existing tailer linuxFallbackFiles).1.files,
        file ∈ tailer.files ∨ (file.path ∈ linuxFallbackFiles ∧ file.path ∈ existing ∧
          tailer.files.length < maxFiles) :=
    foldl_followFallback linuxFallbackFiles (tailer, [])
  obtain ⟨kept, origin⟩ := laws
  have reads : ∀ file ∈ (followFallbackFiles existing tailer linuxFallbackFiles).1.files,
      file.path ∈ linuxFallbackFiles → file.path ∈ existing →
        ReadFromFile otherName (followFallbackFiles existing tailer linuxFallbackFiles).1 existing :=
    fun file member known there => ⟨file, member, isAuthLog_known known, there⟩
  constructor
  · rintro (⟨file, member, auth, there⟩ | none)
    · rcases origin file member with old | ⟨known, _, room⟩
      · exact Or.inr (Or.inl ⟨file, old, auth, there⟩)
      · exact Or.inr (Or.inr ⟨room, file.path, known, there⟩)
    · left
      rw [List.eq_nil_iff_forall_not_mem]
      intro file member
      have still := kept file member
      rw [none] at still
      cases still
  · rintro (none | ⟨file, member, auth, there⟩ | ⟨room, some_there⟩)
    · by_cases empty : (followFallbackFiles existing tailer linuxFallbackFiles).1.files = []
      · exact Or.inr empty
      · obtain ⟨file, member⟩ := List.exists_mem_of_ne_nil _ empty
        rcases origin file member with old | ⟨known, there, _⟩
        · rw [none] at old
          cases old
        · exact Or.inl (reads file member known there)
    · exact Or.inl ⟨file, kept file member, auth, there⟩
    · have follows : ∃ file ∈ (followFallbackFiles existing tailer linuxFallbackFiles).1.files,
          file.path ∈ linuxFallbackFiles ∧ file.path ∈ existing :=
        @foldl_follows existing linuxFallbackFiles (fun _ among => among) (tailer, []) room some_there
      obtain ⟨file, member, known, there⟩ := follows
      exact Or.inl (reads file member known there)

end Fallback

theorem startStream_early {sources : LogSources} {pass : StreamPass} {time : Nat}
    (next : sources.nextStreamAttempt = some time) (early : pass.now < time) :
    startStream sources pass = sources := by
  rw [startStream, if_pos]
  rw [next, Option.all_some]
  exact decide_eq_true early

theorem startStream_due {sources : LogSources} {pass : StreamPass} {time : Nat}
    (next : sources.nextStreamAttempt = some time) (due : time ≤ pass.now) :
    startStream sources pass =
      if pass.canStart then { sources with stream := true, nextStreamAttempt := none }
      else
        let tailer := (followFallbackFiles pass.existing sources.tailer linuxFallbackFiles).1
        { sources with
          tailer := tailer
          nextStreamAttempt :=
            if tailer.files.isEmpty then some (pass.now + streamRetry) else none } := by
  rw [startStream, if_neg]
  rw [next, Option.all_some]
  simpa using due

theorem retry_later (now : Nat) : now < now + streamRetry := Nat.lt_add_of_pos_right (by decide)

theorem scheduled_iff (empty : Bool) (time : Nat) :
    (if empty = true then some time else none).isSome = true ↔ empty = true := by
  cases empty with
  | true => simp
  | false => simp

/-- A pass leaves one reader, or another attempt, just when the condition is met before it. -/
theorem readOnce_iff (otherName : String → Bool) (sources : LogSources) (pass : StreamPass) :
    ReadOnce otherName (ensureStream sources pass) pass.existing ↔
      OneReader otherName sources pass := by
  unfold ensureStream OneReader
  cases stream : sources.stream with
  | true =>
    cases running : pass.isRunning with
    | true => simp [ReadOnce, stream]
    | false =>
      -- the stream stopped: it is tried again later
      rw [if_neg (by simp), if_pos rfl, startStream_early rfl (retry_later pass.now)]
      simp [ReadOnce]
  | false =>
    rw [if_neg (by simp), if_neg (by simp), if_neg (by simp)]
    cases next : sources.nextStreamAttempt with
    | none => simp [ReadOnce, startStream, next, stream]
    | some time =>
      by_cases early : pass.now < time
      · rw [startStream_early next early]
        simp [ReadOnce, next, stream, Nat.not_le_of_lt early]
      · have due : time ≤ pass.now := Nat.le_of_not_lt early
        rw [startStream_due next due]
        cases can : pass.canStart with
        | true => simp [ReadOnce, due]
        | false =>
          have reads := @fallback_reads otherName pass.existing sources.tailer
          simp only [due, Bool.false_eq_true, if_false, forall_const]
          rw [← reads]
          generalize (followFallbackFiles pass.existing sources.tailer linuxFallbackFiles).1 = tailer
          simp only [ReadOnce, stream, Bool.false_eq_true, false_and, not_false_eq_true, true_and,
            false_or, scheduled_iff]
          rw [List.isEmpty_iff]

/-- In every run the authentication log has one reader after each pass, or another attempt is
    to come, just when each pass meets the condition. -/
theorem log_read_once (otherName : String → Bool) (declared : List LogFileConfig)
    (fimWhodata : Bool) (now : Nat) (passes : List StreamPass) :
    Along ensureStream (fun sources pass =>
        ReadOnce otherName (ensureStream sources pass) pass.existing)
        (load declared fimWhodata now) passes ↔
      Along ensureStream (OneReader otherName) (load declared fimWhodata now) passes :=
  along_congr (readOnce_iff otherName)

section Files

def noOtherName (_ : String) : Bool := false

/-- After one failed start nobody reads the authentication log, nor ever will, when another file
    is followed; and a declared authentication log is read twice once the stream runs. -/
theorem other_file_ends_reading :
    ¬ ReadOnce noOtherName (ensureStream (load [⟨"/var/log/nginx/access.log", .web, none⟩] false 0)
        ⟨0, false, false, ["/var/log/nginx/access.log"]⟩) ["/var/log/nginx/access.log"] ∧
      ¬ ReadOnce noOtherName (ensureStream (load [fallbackSpec "/var/log/auth.log"] false 0)
        ⟨0, false, true, ["/var/log/auth.log"]⟩) ["/var/log/auth.log"] := by
  unfold ReadOnce ReadFromFile
  decide

end Files

end SentinelAgent.Logs
