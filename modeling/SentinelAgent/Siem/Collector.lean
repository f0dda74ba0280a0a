import Mathlib.Data.List.Forall2
import SentinelAgent.Library.Runs
import SentinelAgent.Library.Text
import SentinelAgent.Library.Utf8

/- The log collector on Linux: the journal, or the log file of the distribution from where
   its last reading stopped. What the journal prints, which files there are and whether one
   can be opened is the machine's. -/
namespace SentinelAgent.Collector
open Text

inductive LogSource where
  | system | auth | application | firewall
  deriving DecidableEq

/- A log line before it becomes an event. A time, an event number, a user and a level are for
   other systems to fill in. -/
structure RawLogEntry where
  message : String
  source : LogSource
  timestamp : Option Nat
  hostname : Option String
  process : Option String
  pid : Option Nat
  eventId : Option Nat
  user : Option String
  level : Option String
  deriving DecidableEq

abbrev Path := String

abbrev Files := Path → Option (List UInt8)

/- The files the distributions write: Debian and Ubuntu syslog, Red Hat and SUSE messages and
   secure. -/
def candidates : LogSource → List Path
  | .system => ["/var/log/syslog", "/var/log/messages"]
  | .auth => ["/var/log/auth.log", "/var/log/secure"]
  | .firewall => ["/var/log/kern.log", "/var/log/messages"]
  | .application => ["/var/log/messages", "/var/log/syslog"]

def logPath (files : Files) (source : LogSource) : Option Path :=
  (candidates source).find? fun path => (files path).isSome

/- `process[pid]:` -/
def processOf (text : String) : Option String × Option Nat :=
  match splitFirst '[' text with
  | some (name, rest) =>
    (some name, (splitFirst ']' rest).bind fun cut => parseUnsigned 32 cut.1)
  | none => (none, none)

/- `Mon DD HH:MM:SS hostname process[pid]: message` -/
def parseLine (source : LogSource) (line : String) : RawLogEntry :=
  let (hostname, process, pid) := match splitn 5 ' ' line with
    | [_, _, _, hostname, rest] => (some hostname, processOf rest)
    | _ => (none, none, none)
  ⟨line, source, none, hostname, process, pid, none, none, none⟩

/- The journal marks what it says of itself with `--`. -/
def isEntry (line : String) : Bool := line ≠ "" && !beginsWith "--" line

def parseSyslogLines (output : String) (source : LogSource) : List RawLogEntry :=
  ((lines output).filter isEntry).map (parseLine source)

def tailLines (content : String) (n : Nat) : String :=
  let lines := lines content
  "\n".intercalate (lines.drop (lines.length - n))

/- The lines written since the last reading, which stopped at byte `previous`, and where this
   one stops. A place within a character gives nothing. -/
def appendedLines (content : String) (previous : Option Nat) : String × Nat :=
  let bytes := Utf8.encode content.toList
  let text := match previous with
    | none => tailLines content 500
    | some offset =>
      if bytes.length < offset then content
      else ((Utf8.decode (bytes.drop offset)).map String.ofList).getD ""
  (text, bytes.length)

/- Where the last reading of each file stopped. -/
abbrev Offsets := Path → Option Nat

/- What a collection meets: what the journal prints where it answers, and why the file cannot
   be opened. -/
structure Attempt where
  journal : Option String
  refused : Option String
  deriving DecidableEq

/- A file read to its end has to be text. -/
def readToString (refused : Option String) (content : List UInt8) : Except String String :=
  match refused, Utf8.decode content with
  | some e, _ => .error e
  | none, none => .error "stream did not contain valid UTF-8"
  | none, some text => .ok (String.ofList text)

def collectLinux (files : Files) (source : LogSource) (attempt : Attempt) (offsets : Offsets) :
    Except String (List RawLogEntry) × Offsets :=
  match attempt.journal with
  | some stdout => (.ok (parseSyslogLines stdout source), offsets)
  | none =>
    match logPath files source with
    | none =>
      let paths := ", ".intercalate (candidates source)
      (.error s!"no journal, and none of {paths} exists", offsets)
    | some path =>
      match readToString attempt.refused ((files path).getD []) with
      | .error e => (.error s!"Cannot read {path}: {e}", offsets)
      | .ok content =>
        let (text, stop) := appendedLines content (offsets path)
        (.ok (parseSyslogLines text source), Function.update offsets path (some stop))

@[simp] theorem parseLine_message (source : LogSource) (line : String) :
    (parseLine source line).message = line := rfl

@[simp] theorem parseLine_source (source : LogSource) (line : String) :
    (parseLine source line).source = source := rfl

/-! Each line of a file once for each source that reads it: log files that grow and are cut, and
   collections in any order. -/

def lineFeed : UInt8 := 10

def carriageReturn : UInt8 := 13

def contentOf (files : Files) (path : Path) : List UInt8 := (files path).getD []

inductive Action where
  | append (path : Path) (bytes : List UInt8)
  | truncate (path : Path) (size : Nat)
  | collect (source : LogSource) (attempt : Attempt)

/- `given` is for the law only: after the first collection of a source from a file, how much of
   each file stands in lines that were there at its last one. -/
structure Machine where
  files : Files
  offsets : Offsets
  given : LogSource → Option (Path → Nat)

def start (files : Files) : Machine := ⟨files, fun _ => none, fun _ => none⟩

/- How much of each file stands in lines that have ended. -/
def linesIn (files : Files) (path : Path) : Nat := Lines.endedLength lineFeed (contentOf files path)

def Machine.collected (m : Machine) (source : LogSource) (attempt : Attempt) :
    Except String (List RawLogEntry) :=
  (collectLinux m.files source attempt m.offsets).1

def step (m : Machine) : Action → Machine
  | .append path bytes =>
    { m with files := Function.update m.files path (some (contentOf m.files path ++ bytes)) }
  | .truncate path size =>
    let files := Function.update m.files path ((m.files path).map (List.take size))
    -- of what a source was given, the lines that are still there
    { m with files,
             given := fun source => (m.given source).map fun given =>
               Function.update given path (min (given path) (linesIn files path)) }
  | .collect source attempt =>
    { m with offsets := (collectLinux m.files source attempt m.offsets).2,
             given :=
               if attempt.journal = none ∧ (m.collected source attempt).isOk = true then
                 Function.update m.given source (some (linesIn m.files))
               else m.given }

/- An event of the source with the line as its text. Carriage returns at its end are not part
   of the line. -/
def IsEvent (source : LogSource) (line : List UInt8) (entry : RawLogEntry) : Prop :=
  entry.source = source ∧ ∃ returns, line = Utf8.encode entry.message.toList ++ returns ∧
    ∀ byte ∈ returns, byte = carriageReturn

/- One event for each line the source was not given. -/
def Delivers (m : Machine) : Action → Prop
  | .collect source attempt => ∀ path given entries, attempt.journal = none →
      logPath m.files source = some path → m.given source = some given →
      m.collected source attempt = .ok entries →
      List.Forall₂ (IsEvent source)
        (Lines.complete lineFeed ((contentOf m.files path).drop (given path))) entries
  | _ => True

/- Where the next reading of the file begins is where the source is due to go on: the offset is
   the end of what it was given, or the file is shorter and none of that is left. A file with
   no offset yet is read whole where its lines are no more than a first reading takes. -/
def Resumes (content : List UInt8) (given : Nat) : Option Nat → Prop
  | some offset => offset ≤ content.length ∧ offset = given ∨ content.length < offset ∧ given = 0
  | none => given = 0 ∧ (Lines.complete lineFeed content).length ≤ 500

/- The line says something, and does not start as the journal's own words do. -/
def Plain (line : List UInt8) : Prop := (∃ byte ∈ line, byte ≠ carriageReturn) ∧ ¬ [45, 45] <+: line

/- The file is at the end of a line, and so is what was read of it. -/
structure Ready (content : List UInt8) (given : Nat) (offset : Option Nat) : Prop where
  ends : Lines.unended lineFeed content = []
  plain : ∀ line ∈ Lines.complete lineFeed (content.drop given), Plain line
  resumes : Resumes content given offset

instance (content : List UInt8) (given : Nat) :
    ∀ offset, Decidable (Resumes content given offset)
  | some offset => inferInstanceAs
      (Decidable (offset ≤ content.length ∧ offset = given ∨ content.length < offset ∧ given = 0))
  | none => inferInstanceAs
      (Decidable (given = 0 ∧ (Lines.complete lineFeed content).length ≤ 500))

instance (content : List UInt8) (given : Nat) (offset : Option Nat) :
    Decidable (Ready content given offset) :=
  decidable_of_iff (Lines.unended lineFeed content = [] ∧
      (∀ line ∈ Lines.complete lineFeed (content.drop given),
        (∃ byte ∈ line, byte ≠ carriageReturn) ∧ ¬ [45, 45] <+: line) ∧
      Resumes content given offset)
    ⟨fun h => ⟨h.1, h.2.1, h.2.2⟩, fun h => ⟨h.ends, h.plain, h.resumes⟩⟩

/- What a collection from a file needs that has given its lines to the source before. A file
   that is no text at the moment is not read. -/
def Meets (m : Machine) : Action → Prop
  | .collect source attempt => attempt = ⟨none, none⟩ →
      ∀ path ∈ logPath m.files source, ∀ given ∈ m.given source,
        Utf8.decode (contentOf m.files path) ≠ none →
          Ready (contentOf m.files path) (given path) (m.offsets path)
  | _ => True

instance (m : Machine) : ∀ action, Decidable (Meets m action)
  | .append _ _ => isTrue trivial
  | .truncate _ _ => isTrue trivial
  | .collect source attempt => inferInstanceAs (Decidable (attempt = ⟨none, none⟩ →
      ∀ path ∈ logPath m.files source, ∀ given ∈ m.given source,
        Utf8.decode (contentOf m.files path) ≠ none →
          Ready (contentOf m.files path) (given path) (m.offsets path)))

section Reading

/- A line without some of the carriage returns at its end. -/
def Trimmed (line text : List Char) : Prop := ∃ returns, line = text ++ returns ∧ ∀ c ∈ returns, c = '\r'

theorem trimmed_trans {a b c : List Char} (first : Trimmed a b) (second : Trimmed b c) :
    Trimmed a c := by
  obtain ⟨outer, rfl, outer_returns⟩ := first
  obtain ⟨inner, rfl, inner_returns⟩ := second
  refine ⟨inner ++ outer, List.append_assoc _ _ _, ?_⟩
  intro x member
  rcases List.mem_append.mp member with there | there
  · exact inner_returns x there
  · exact outer_returns x there

/- The end of a line as the lines of a text have it. -/
def withoutReturn (line : List Char) : List Char :=
  if line.getLast? = some '\r' then line.dropLast else line

theorem trimmed_withoutReturn (line : List Char) : Trimmed line (withoutReturn line) := by
  unfold withoutReturn
  split
  · rename_i last
    refine ⟨['\r'], ?_, by simp⟩
    exact (List.dropLast_append_getLast? _ last).symm
  · exact ⟨[], (List.append_nil _).symm, by simp⟩

theorem lines_ended {text : List Char} (ends : Lines.unended '\n' text = []) :
    lines (String.ofList text) =
      (Lines.complete '\n' text).map fun line => String.ofList (withoutReturn line) := by
  have cut := Lines.splitOn_eq '\n' text
  rw [ends] at cut
  simp only [lines, String.toList_ofList, cut, List.dropLast_concat, List.getLast?_concat]
  rw [Option.filter_some_neg (by simp), Option.toList_none, List.append_nil, List.map_map]
  rfl

/- The lines of a text, each whole. -/
def Gives (text : List Char) (output : String) : Prop :=
  List.Forall₂ (fun line said => Trimmed line said.toList) (Lines.complete '\n' text) (lines output)

theorem gives_itself {text : List Char} (ends : Lines.unended '\n' text = []) :
    Gives text (String.ofList text) := by
  rw [Gives, lines_ended ends, List.forall₂_map_right_iff, List.forall₂_same]
  intro line _
  rw [String.toList_ofList]
  exact trimmed_withoutReturn line

theorem trimmed_ne_nil {line text : List Char} (trimmed : Trimmed line text)
    (more : ∃ c ∈ line, c ≠ '\r') : text ≠ [] := by
  rintro rfl
  obtain ⟨returns, rfl, all⟩ := trimmed
  obtain ⟨c, member, other⟩ := more
  exact other (all c member)

/- The last lines of a text that has no more than those. -/
theorem gives_tail {text : List Char} {n : Nat} (ends : Lines.unended '\n' text = [])
    (few : (Lines.complete '\n' text).length ≤ n)
    (more : ∀ line ∈ Lines.complete '\n' text, ∃ c ∈ line, c ≠ '\r') :
    Gives text (tailLines (String.ofList text) n) := by
  have free : ∀ line ∈ Lines.complete '\n' text, '\n' ∉ line := fun line => Lines.complete_free
  have joined : (tailLines (String.ofList text) n).toList =
      ['\n'].intercalate ((Lines.complete '\n' text).map withoutReturn) := by
    rw [tailLines, lines_ended ends, List.length_map, Nat.sub_eq_zero_of_le few, List.drop_zero,
      String.toList_intercalate, List.map_map]
    simp [Function.comp_def]
  rw [Gives, lines, joined]
  generalize Lines.complete '\n' text = written at free more
  rcases List.eq_nil_or_concat written with rfl | ⟨init, last, rfl⟩
  · simp
  · rw [List.concat_eq_append] at free more ⊢
    have cut : (['\n'].intercalate ((init ++ [last]).map withoutReturn)).splitOn '\n' =
        init.map withoutReturn ++ [withoutReturn last] := by
      rw [List.splitOn_intercalate, List.map_append, List.map_singleton]
      · intro short member
        obtain ⟨line, there, rfl⟩ := List.mem_map.mp member
        obtain ⟨returns, whole, _⟩ := trimmed_withoutReturn line
        intro mark
        apply free line there
        rw [whole]
        exact List.mem_append_left _ mark
      · simp
    have nonempty : withoutReturn last ≠ [] :=
      trimmed_ne_nil (trimmed_withoutReturn last) (more last (by simp))
    simp only [cut, List.dropLast_concat, List.getLast?_concat]
    rw [Option.filter_some_pos (by simpa using nonempty), Option.toList_some, List.map_append,
      List.map_map]
    apply List.rel_append
    · rw [List.map_map, List.forall₂_map_right_iff, List.forall₂_same]
      intro line _
      show Trimmed line (String.ofList (withoutReturn (withoutReturn line))).toList
      rw [String.toList_ofList]
      exact trimmed_trans (trimmed_withoutReturn line) (trimmed_withoutReturn _)
    · refine List.Forall₂.cons ?_ List.Forall₂.nil
      rw [String.toList_ofList]
      exact trimmed_withoutReturn last

theorem lineFeed_ascii : ('\n' : Char).toNat < 128 := by decide

theorem complete_bytes (text : List Char) :
    Lines.complete lineFeed (Utf8.encode text) = (Lines.complete '\n' text).map Utf8.encode :=
  Utf8.complete_encode lineFeed_ascii text

theorem unended_bytes {text : List Char} (ends : Lines.unended lineFeed (Utf8.encode text) = []) :
    Lines.unended '\n' text = [] := by
  have bytes := Utf8.unended_encode lineFeed_ascii text
  exact Utf8.encode_injective (bytes.symm.trans ends)

theorem encode_returns {returns : List Char} (all : ∀ c ∈ returns, c = '\r') :
    ∀ byte ∈ Utf8.encode returns, byte = carriageReturn := by
  rw [List.eq_replicate_of_mem all]
  intro byte member
  simp only [Utf8.encode, List.mem_flatMap] at member
  obtain ⟨c, repeated, there⟩ := member
  rw [List.eq_of_mem_replicate repeated, Utf8.encode_ascii (by decide), List.mem_singleton] at there
  exact there

theorem plain_more {line : List Char} (plain : Plain (Utf8.encode line)) :
    ∃ c ∈ line, c ≠ '\r' := by
  by_contra none_other
  push Not at none_other
  obtain ⟨byte, member, other⟩ := plain.1
  exact other (encode_returns none_other byte member)

/- The words of a plain line are not left out. -/
theorem isEntry_of_plain {line : List Char} {text : String} (plain : Plain (Utf8.encode line))
    (trimmed : Trimmed line text.toList) : isEntry text = true := by
  have nonempty : text ≠ "" := by
    rintro rfl
    exact trimmed_ne_nil trimmed (plain_more plain) rfl
  have no_mark : beginsWith "--" text = false := by
    rw [Bool.eq_false_iff]
    intro begins
    obtain ⟨rest, starts⟩ := List.isPrefixOf_iff_prefix.mp begins
    obtain ⟨returns, rfl, _⟩ := trimmed
    apply plain.2
    rw [← starts, Utf8.encode_append, Utf8.encode_append, List.append_assoc]
    exact List.prefix_append _ _
  simp [isEntry, nonempty, no_mark]

theorem entries_kept {written : List (List Char)} {said : List String}
    (gives : List.Forall₂ (fun line said => Trimmed line said.toList) written said)
    (plain : ∀ line ∈ written, Plain (Utf8.encode line)) : said.filter isEntry = said := by
  induction gives with
  | nil => rfl
  | cons trimmed _ ih =>
    have kept := ih fun line member => plain line (List.mem_cons_of_mem _ member)
    rw [List.filter_cons_of_pos (isEntry_of_plain (plain _ List.mem_cons_self) trimmed), kept]

/- One event for each line of a text, where each is plain. -/
theorem events_of_lines {text : List Char} {output : String} (source : LogSource)
    (plain : ∀ line ∈ Lines.complete lineFeed (Utf8.encode text), Plain line)
    (gives : Gives text output) :
    List.Forall₂ (IsEvent source) (Lines.complete lineFeed (Utf8.encode text))
      (parseSyslogLines output source) := by
  rw [complete_bytes] at plain ⊢
  have kept := entries_kept gives fun line member => plain _ (List.mem_map_of_mem member)
  rw [parseSyslogLines, kept, List.forall₂_map_left_iff, List.forall₂_map_right_iff]
  refine gives.imp ?_
  rintro line said ⟨returns, whole, all⟩
  refine ⟨parseLine_source source said, Utf8.encode returns, ?_, encode_returns all⟩
  rw [parseLine_message, whole, Utf8.encode_append]

/- What a reading takes of a file that is ready for it: the lines due. -/
theorem appended_gives {text : List Char} {given : Nat} {offset : Option Nat}
    (line_start : Lines.unended lineFeed ((Utf8.encode text).take given) = [])
    (ready : Ready (Utf8.encode text) given offset) :
    ∃ due, (Utf8.encode text).drop given = Utf8.encode due ∧
      Gives due (appendedLines (String.ofList text) offset).1 := by
  have ends := unended_bytes ready.ends
  cases offset with
  | none =>
    obtain ⟨rfl, few⟩ := ready.resumes
    refine ⟨text, List.drop_zero, ?_⟩
    rw [complete_bytes, List.length_map] at few
    simp only [appendedLines]
    refine gives_tail ends few ?_
    intro line member
    apply plain_more
    apply ready.plain
    rw [List.drop_zero, complete_bytes]
    exact List.mem_map_of_mem member
  | some offset =>
    rcases ready.resumes with ⟨within, rfl⟩ | ⟨shorter, rfl⟩
    · obtain ⟨due, rest⟩ := Utf8.encode_drop lineFeed_ascii line_start
      refine ⟨due, rest, ?_⟩
      have due_ends := unended_bytes (rest ▸ Lines.unended_drop ready.ends offset)
      simp only [appendedLines, String.toList_ofList, if_neg (Nat.not_lt.mpr within), rest,
        Utf8.decode_encode, Option.map_some, Option.getD_some]
      exact gives_itself due_ends
    · refine ⟨text, List.drop_zero, ?_⟩
      simp only [appendedLines, String.toList_ofList, if_pos shorter]
      exact gives_itself ends

end Reading

section Runs

/- What a source was given of a file ends with a line of it. -/
def AtLines (m : Machine) : Prop :=
  ∀ source given, m.given source = some given → ∀ path,
    given path ≤ (contentOf m.files path).length ∧
      Lines.unended lineFeed ((contentOf m.files path).take (given path)) = []

theorem atLines_start (files : Files) : AtLines (start files) := by
  intro source given none_given
  cases none_given

theorem contentOf_append (files : Files) (path : Path) (bytes : List UInt8) (other : Path) :
    ∃ more, contentOf (Function.update files path (some (contentOf files path ++ bytes))) other =
      contentOf files other ++ more := by
  by_cases here : other = path
  · subst here
    exact ⟨bytes, by simp [contentOf]⟩
  · exact ⟨[], by simp [contentOf, Function.update_of_ne here]⟩

theorem contentOf_truncate (files : Files) (path : Path) (size : Nat) :
    contentOf (Function.update files path ((files path).map (List.take size))) path =
      (contentOf files path).take size := by
  rw [contentOf, Function.update_self, contentOf]
  cases files path with
  | none => simp
  | some content => rfl

theorem atLines_append {m : Machine} (lines : AtLines m) (path : Path) (bytes : List UInt8) :
    AtLines (step m (.append path bytes)) := by
  intro source given its other
  obtain ⟨within, ends⟩ := lines source given its other
  obtain ⟨more, grown⟩ := contentOf_append m.files path bytes other
  simp only [step, grown]
  refine ⟨?_, ?_⟩
  · rw [List.length_append]
    omega
  · rw [List.take_append_of_le_length within]
    exact ends

theorem atLines_truncate {m : Machine} (lines : AtLines m) (path : Path) (size : Nat) :
    AtLines (step m (.truncate path size)) := by
  intro source given its other
  simp only [step, Option.map_eq_some_iff] at its
  obtain ⟨before, was, rfl⟩ := its
  obtain ⟨within, ends⟩ := lines source before was other
  by_cases here : other = path
  · subst here
    simp only [step, Function.update_self, linesIn, contentOf_truncate]
    have fits : Lines.endedLength lineFeed ((contentOf m.files other).take size) ≤ _ :=
      Lines.endedLength_le _
    refine ⟨le_trans (Nat.min_le_right _ _) fits, ?_⟩
    rw [List.length_take] at fits
    rcases Nat.le_total (before other)
      (Lines.endedLength lineFeed ((contentOf m.files other).take size)) with kept | cut
    · rw [Nat.min_eq_left kept, List.take_take, Nat.min_eq_left (by omega)]
      exact ends
    · rw [Nat.min_eq_right cut]
      exact Lines.unended_ended _
  · have same : contentOf (step m (.truncate path size)).files other = contentOf m.files other := by
      simp only [step, contentOf, Function.update_of_ne here]
    rw [same, Function.update_of_ne here]
    exact ⟨within, ends⟩

theorem atLines_collect {m : Machine} (lines : AtLines m) (source : LogSource)
    (attempt : Attempt) : AtLines (step m (.collect source attempt)) := by
  intro other given its path
  simp only [step] at its ⊢
  split at its
  · by_cases here : other = source
    · subst here
      rw [Function.update_self, Option.some.injEq] at its
      subst its
      exact ⟨Lines.endedLength_le _, Lines.unended_ended _⟩
    · rw [Function.update_of_ne here] at its
      exact lines other given its path
  · exact lines other given its path

theorem atLines_step (m : Machine) (action : Action) (lines : AtLines m) :
    AtLines (step m action) := by
  cases action with
  | append path bytes => exact atLines_append lines path bytes
  | truncate path size => exact atLines_truncate lines path size
  | collect source attempt => exact atLines_collect lines source attempt

/- A collection that reads a file. -/
theorem collected_file {m : Machine} {source : LogSource} {attempt : Attempt} {path : Path}
    {entries : List RawLogEntry} (silent : attempt.journal = none)
    (found : logPath m.files source = some path)
    (reads : m.collected source attempt = .ok entries) :
    attempt.refused = none ∧ ∃ text, contentOf m.files path = Utf8.encode text ∧
      entries = parseSyslogLines (appendedLines (String.ofList text) (m.offsets path)).1 source := by
  simp only [Machine.collected, collectLinux, silent, found] at reads
  cases refused : attempt.refused with
  | some e => simp [readToString, refused] at reads
  | none =>
    cases decoded : Utf8.decode ((m.files path).getD []) with
    | none => simp [readToString, refused, decoded] at reads
    | some text =>
      simp only [readToString, refused, decoded, Except.ok.injEq] at reads
      exact ⟨rfl, text, Utf8.decode_eq.mp decoded, reads.symm⟩

theorem collect_delivers {m : Machine} (lines : AtLines m) (action : Action)
    (meets : Meets m action) : Delivers m action := by
  cases action with
  | append path bytes => trivial
  | truncate path size => trivial
  | collect source attempt =>
    intro path given entries silent found its reads
    obtain ⟨opened, text, content, rfl⟩ := collected_file silent found reads
    obtain ⟨journal, refused⟩ := attempt
    subst silent opened
    have ready := meets rfl path found given its (by simp [content])
    have line_start := (lines source given its path).2
    have plain := ready.plain
    rw [content] at ready line_start plain ⊢
    obtain ⟨due, rest, gives⟩ := appended_gives line_start ready
    rw [rest] at plain ⊢
    exact events_of_lines source plain gives

/-- Each line appended to a source's file since the source was last given lines is one event of
    the source, whole, in every run whose collections find the file ready. -/
theorem lines_collected_once (files : Files) (actions : List Action)
    (meets : Runs.Along step Meets (start files) actions) :
    Runs.Along step Delivers (start files) actions :=
  Runs.along_imp (I := AtLines) (fun _ action lines => collect_delivers lines action)
    (fun m action lines _ => atLines_step m action lines) (atLines_start files) meets

/- Lines written in two halves, a character among them, and a file that is emptied. -/
theorem lines_collected_once_halves :
    Runs.Along step Delivers
      (start fun path => if path = "/var/log/syslog" then some [97, 10] else none)
      [.collect .system ⟨none, none⟩, .append "/var/log/syslog" [98, 0xc3],
        .collect .system ⟨none, none⟩, .append "/var/log/syslog" [0xa9, 10],
        .collect .system ⟨none, none⟩, .truncate "/var/log/syslog" 0,
        .append "/var/log/syslog" [99, 10], .collect .system ⟨none, none⟩] :=
  lines_collected_once _ _ (by decide)

/- Two sources read one file: the first reads the line, and the second is past it. -/
theorem shared_file_starves :
    ¬ ∀ files actions, Runs.Along step Delivers (start files) actions := by
  intro always
  have run := always (fun path => if path = "/var/log/syslog" then some [97, 10] else none)
    [.collect .system ⟨none, none⟩, .collect .application ⟨none, none⟩,
      .append "/var/log/syslog" [98, 10], .collect .system ⟨none, none⟩,
      .collect .application ⟨none, none⟩]
  have last := run.2.2.2.2.1 "/var/log/syslog" _ [] rfl (by decide) rfl
    (by decide)
  cases last

end Runs

end SentinelAgent.Collector
