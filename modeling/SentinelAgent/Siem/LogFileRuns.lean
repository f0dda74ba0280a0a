import SentinelAgent.Siem.LogFile

/- What a followed file hands on over any run of appends, rotations, readings and restarts.
   The last line is held in memory while its bytes count as read on disk, and an old file is
   finished through its open handle: a restart or a rotation at the wrong moment loses either. -/
namespace SentinelAgent.LogFile
open Runs

/- The reading of a line that has come as far as a stream. -/
def Followed.at (followed : Followed) (stream : List UInt8) : Followed :=
  { followed with
    partialLine := (Lines.unended lineFeed stream).take maxLineBytes
    skipping := decide (maxLineBytes < (Lines.unended lineFeed stream).length) }

theorem at_unended {followed : Followed} {stream : List UInt8}
    (no_line : (followed.at stream).partialLine = []) :
    Lines.unended lineFeed stream = [] := by
  have nothing : (Lines.unended lineFeed stream).take maxLineBytes = [] := no_line
  rw [List.take_eq_nil_iff] at nothing
  exact nothing.resolve_left (by decide)

section Reading
variable (lossy : List UInt8 → String)

/- What a byte adds to the lines handed on. -/
def newLine (stream : List UInt8) (byte : UInt8) : List String :=
  if byte = lineFeed then
    (handOn lossy ((Lines.unended lineFeed stream).take maxLineBytes)).toList
  else []

@[simp] theorem linesOf_nil : linesOf lossy [] = [] := rfl

theorem linesOf_snoc (stream : List UInt8) (byte : UInt8) :
    linesOf lossy (stream ++ [byte]) = linesOf lossy stream ++ newLine lossy stream byte := by
  by_cases ends : byte = lineFeed
  · rw [linesOf, linesOf, ends, Lines.complete_snoc_mark, List.filterMap_append, newLine, if_pos rfl]
    cases handed : handOn lossy ((Lines.unended lineFeed stream).take maxLineBytes) with
    | none => simp [handed]
    | some line => simp [handed]
  · rw [linesOf, linesOf, Lines.complete_snoc ends, newLine, if_neg ends, List.append_nil]

theorem readByte_at (followed : Followed) (stream : List UInt8) (lines : List String)
    (byte : UInt8) : readByte lossy (followed.at stream, lines) byte =
      (followed.at (stream ++ [byte]), lines ++ newLine lossy stream byte) := by
  by_cases ends : byte = lineFeed
  · simp [readByte, newLine, ends, Followed.at, Lines.unended_snoc_mark]
  · rw [readByte, if_pos ends, newLine, if_neg ends, List.append_nil]
    have next := Lines.unended_snoc ends stream
    by_cases long : maxLineBytes < (Lines.unended lineFeed stream).length
    · have skips : (followed.at stream).skipping = true := decide_eq_true long
      rw [if_pos skips]
      simp only [Followed.at, next, List.length_append, List.length_singleton]
      rw [List.take_append_of_le_length (Nat.le_of_lt long), decide_eq_true long,
        decide_eq_true (Nat.lt_succ_of_lt long)]
    · have reads : (followed.at stream).skipping = false := decide_eq_false long
      have short : (Lines.unended lineFeed stream).length ≤ maxLineBytes := Nat.le_of_not_lt long
      have held : (followed.at stream).partialLine = Lines.unended lineFeed stream :=
        List.take_of_length_le short
      simp only [reads, Bool.false_eq_true, if_false, held]
      by_cases full : maxLineBytes ≤ (Lines.unended lineFeed stream).length
      · rw [if_pos full]
        simp only [Followed.at, next, List.length_append, List.length_singleton]
        rw [List.take_append_of_le_length full, List.take_of_length_le short,
          decide_eq_true (Nat.lt_succ_of_le full)]
      · rw [if_neg full]
        simp only [Followed.at, next, List.length_append, List.length_singleton]
        rw [List.take_of_length_le (by simp; omega), decide_eq_false (by omega)]

/- Reading on gives the lines that end in what is read. -/
theorem readBytes_at (followed : Followed) (stream buffer : List UInt8) (lines : List String) :
    ∃ new, linesOf lossy (stream ++ buffer) = linesOf lossy stream ++ new ∧
      buffer.foldl (readByte lossy) (followed.at stream, lines) =
        (followed.at (stream ++ buffer), lines ++ new) := by
  induction buffer generalizing stream lines with
  | nil => exact ⟨[], by simp, by simp⟩
  | cons byte buffer ih =>
    obtain ⟨new, handed, ends⟩ := ih (stream ++ [byte]) (lines ++ newLine lossy stream byte)
    rw [List.append_assoc, List.singleton_append] at handed ends
    refine ⟨newLine lossy stream byte ++ new, ?_, ?_⟩
    · rw [handed, linesOf_snoc, List.append_assoc]
    · rw [List.foldl_cons, readByte_at, ends, List.append_assoc]

theorem linesOf_first (stream more : List UInt8) :
    linesOf lossy stream <+: linesOf lossy (stream ++ more) := by
  obtain ⟨new, handed, _⟩ := readBytes_at lossy follow stream more []
  exact ⟨new, handed.symm⟩

end Reading

/- Where the reading stands: so far in what was written, in the file so numbered, which was
   the last one under the name or the one before it. -/
structure Stands (lossy : List UInt8 → String) (unix : Bool) (s : State) (number : Nat)
    (before : List (List UInt8)) (taken left : List UInt8) : Prop where
  place : (s.written = some (before, taken ++ left) ∧ s.disk.files.length = number + 1) ∨
    ∃ new, s.disk.present = some new ∧ s.written = some (before ++ [taken ++ left], new) ∧
      s.disk.renamed.length = number + 1
  content : ∃ read, s.disk.files[number]? = some (read ++ left) ∧
    s.saved = some ⟨identity unix number, read.length⟩
  handed : s.handed = (before ++ [taken]).flatMap (linesOf lossy)
  opened : s.followed.file.isSome = true → s.followed.file = some number ∧
    s.followed.position = s.saved ∧ s.followed.at taken = s.followed
  closed : s.followed.file = none → s.followed.position = none ∧ s.followed.at [] = s.followed ∧
    Lines.unended lineFeed taken = [] ∧
      (left = [] ∨ s.disk.present.isSome = true ∧ s.disk.renamed.length = number)
  plain : unix = false → s.disk.present.isSome = true ∧ s.disk.renamed.length = number

/- The file under the name is the one the position is in. -/
def underName (s : State) : Bool :=
  match s.saved.bind Position.identity with
  | some number => s.disk.present.isSome && number = s.disk.renamed.length
  | none => false

/- The file the position is in was read to its end. -/
def readToEnd (s : State) : Bool :=
  match s.saved with
  | some ⟨some number, offset⟩ => (s.disk.files[number]?.map List.length) = some offset
  | _ => false

/- What a reading finds of the file under the name that was not read. -/
def unread (unix : Bool) (s : State) : Nat :=
  (s.disk.present.map fun content =>
    content.length - openingOffset unix s.disk content s.followed s.saved).getD 0

/- Nothing was opened yet, or the reading stands somewhere. -/
def Sound (lossy : List UInt8 → String) (unix : Bool) (s : State) : Prop :=
  (s.written = none ∧ s.saved = none ∧ s.handed = [] ∧
    ∃ seen, s.followed = { follow with seenAbsent := seen }) ∨
  ∃ number before taken left, Stands lossy unix s number before taken left

section Steps
variable {lossy : List UInt8 → String} {unix : Bool} {s : State}

theorem files_present {disk : Disk} {content : List UInt8} (present : disk.present = some content) :
    disk.files = disk.renamed ++ [content] := by
  simp [Disk.files, present]

theorem files_absent {disk : Disk} (absent : disk.present = none) : disk.files = disk.renamed := by
  simp [Disk.files, absent]

theorem files_append (disk : Disk) (bytes : List UInt8) :
    (disk.append bytes).files = disk.renamed ++ [disk.present.getD [] ++ bytes] := by
  simp [Disk.files, Disk.append]

theorem files_rotate (disk : Disk) : disk.rotate.files = disk.files := by
  simp [Disk.files, Disk.rotate]

theorem append_sound (sound : Sound lossy unix s) (bytes : List UInt8) :
    Sound lossy unix (step lossy unix s (.append bytes)) := by
  rcases sound with ⟨none_written, rest⟩ | ⟨number, before, taken, left, stands⟩
  · left
    exact ⟨by simp [step, none_written], rest⟩
  · right
    obtain ⟨read, here, saved⟩ := stands.content
    rcases stands.place with ⟨written, last⟩ | ⟨new, present, written, next⟩
    · cases present : s.disk.present with
      | some content =>
        -- the file being read grows
        rw [files_present present, List.length_append, List.length_singleton] at last
        have under : s.disk.renamed.length = number := by omega
        rw [files_present present, ← under, List.getElem?_concat_length, Option.some_inj] at here
        refine ⟨number, before, taken, left ++ bytes, ?_, ?_, stands.handed, stands.opened, ?_, ?_⟩
        · left
          simp [step, written, appended, present, files_append, under]
        · refine ⟨read, ?_, saved⟩
          simp only [step, files_append, present, Option.getD_some, here, ← under,
            List.getElem?_concat_length, List.append_assoc]
        · intro closed
          obtain ⟨a, b, c, _⟩ := stands.closed closed
          exact ⟨a, b, c, Or.inr ⟨rfl, under⟩⟩
        · exact fun _ => ⟨rfl, under⟩
      | none =>
        -- a new file appears under the name
        rw [files_absent present] at last here
        refine ⟨number, before, taken, left, ?_, ?_, stands.handed, stands.opened, ?_, ?_⟩
        · right
          exact ⟨bytes, by simp [step, Disk.append, present], by simp [step, written, appended, present],
            last⟩
        · refine ⟨read, ?_, saved⟩
          simp only [step, files_append]
          rw [List.getElem?_append_left (by omega), here]
        · intro closed
          obtain ⟨a, b, c, either⟩ := stands.closed closed
          rcases either with all | ⟨shown, _⟩
          · exact ⟨a, b, c, Or.inl all⟩
          · simp [present] at shown
        · intro plain
          have shown := (stands.plain plain).1
          simp [present] at shown
    · refine ⟨number, before, taken, left, ?_, ?_, stands.handed, stands.opened, ?_, ?_⟩
      · right
        exact ⟨new ++ bytes, by simp [step, Disk.append, present],
          by simp [step, written, appended, present], next⟩
      · refine ⟨read, ?_, saved⟩
        rw [files_present present, List.getElem?_append_left (by omega)] at here
        simp only [step, files_append]
        rw [List.getElem?_append_left (by omega), here]
      · intro closed
        obtain ⟨a, b, c, either⟩ := stands.closed closed
        exact ⟨a, b, c, either.imp id fun both => ⟨rfl, both.2⟩⟩
      · exact fun plain => ⟨rfl, (stands.plain plain).2⟩

theorem read_to_end {number : Nat} {before : List (List UInt8)} {taken left : List UInt8}
    (stands : Stands lossy unix s number before taken left) (finished : readToEnd s = true) :
    left = [] := by
  obtain ⟨read, here, saved⟩ := stands.content
  cases system : unix with
  | false => simp [readToEnd, saved, identity, system] at finished
  | true => simpa [readToEnd, saved, identity, system, here] using finished

theorem under_name {number : Nat} {before : List (List UInt8)} {taken left : List UInt8}
    (stands : Stands lossy unix s number before taken left) (under : underName s = true) :
    s.disk.present.isSome = true ∧ s.disk.renamed.length = number := by
  obtain ⟨read, _, saved⟩ := stands.content
  cases system : unix with
  | false => simp [underName, saved, identity, system] at under
  | true =>
    simp only [underName, saved, identity, system, if_true, Option.bind_some, Bool.and_eq_true,
      decide_eq_true_eq] at under
    exact ⟨under.1, under.2.symm⟩

theorem rotate_sound (sound : Sound lossy unix s)
    (safe : s.written = none ∨ s.disk.present = none ∨ (unix = true ∧ underName s = true ∧
      (s.followed.file.isSome = true ∨ readToEnd s = true))) :
    Sound lossy unix (step lossy unix s .rotate) := by
  rcases sound with fresh | ⟨number, before, taken, left, stands⟩
  · exact Or.inl fresh
  · right
    refine ⟨number, before, taken, left, ?_⟩
    obtain ⟨read, here, saved⟩ := stands.content
    rcases safe with none_written | absent | ⟨system, under, held⟩
    · rcases stands.place with ⟨written, _⟩ | ⟨_, _, written, _⟩ <;> simp [none_written] at written
    · have same : s.disk.rotate = s.disk := by simp [Disk.rotate, files_absent absent, ← absent]
      have still : step lossy unix s .rotate = s := by simp [step, same]
      rwa [still]
    · obtain ⟨shown, last⟩ := under_name stands under
      refine ⟨?_, ?_, stands.handed, stands.opened, ?_, ?_⟩
      · rcases stands.place with ⟨written, all⟩ | ⟨_, _, _, next⟩
        · exact Or.inl ⟨written, by simpa [step, files_rotate] using all⟩
        · omega
      · exact ⟨read, by simpa [step, files_rotate] using here, saved⟩
      · intro closed
        obtain ⟨a, b, c, _⟩ := stands.closed closed
        rcases held with opened | finished
        · have no_file : s.followed.file = none := closed
          simp [no_file] at opened
        · exact ⟨a, b, c, Or.inl (read_to_end stands finished)⟩
      · simp [system]

theorem restart_sound (sound : Sound lossy unix s) (no_line : s.followed.partialLine = [])
    (safe : s.written = none ∨ unix = false ∨ underName s = true ∨ readToEnd s = true) :
    Sound lossy unix (step lossy unix s .restart) := by
  rcases sound with ⟨none_written, no_position, none_handed, _⟩ | ⟨number, before, taken, left, stands⟩
  · exact Or.inl ⟨none_written, no_position, none_handed, false, rfl⟩
  · right
    refine ⟨number, before, taken, left, stands.place, stands.content, stands.handed, ?_, ?_,
      stands.plain⟩
    · intro opened
      cases opened
    · intro _
      refine ⟨rfl, rfl, ?_, ?_⟩
      · cases held : s.followed.file with
        | none => exact (stands.closed held).2.2.1
        | some file =>
          have same := (stands.opened (by simp [held])).2.2
          rw [← same] at no_line
          exact at_unended no_line
      · rcases safe with none_written | system | under | finished
        · rcases stands.place with ⟨written, _⟩ | ⟨_, _, written, _⟩ <;>
            simp [none_written] at written
        · exact Or.inr (stands.plain system)
        · have shown := under_name stands under
          exact Or.inr shown
        · exact Or.inl (read_to_end stands finished)

/- What one reading of the open file takes, and what it hands on. -/
theorem readLines_at (lossy : List UInt8 → String) {disk : Disk} {followed : Followed} {number : Nat} {id : Option Nat}
    {read left taken : List UInt8} (limit : Option Nat) (file : followed.file = some number)
    (position : followed.position = some ⟨id, read.length⟩)
    (content : disk.files[number]? = some (read ++ left)) (line : followed.at taken = followed) :
    ∃ buffer rest new, left = buffer ++ rest ∧ buffer = (limit.map left.take).getD left ∧
      linesOf lossy (taken ++ buffer) = linesOf lossy taken ++ new ∧
      readLines lossy disk limit followed =
        ({ followed with position := some ⟨id, (read ++ buffer).length⟩ }.at (taken ++ buffer), new) := by
  have part : left = (limit.map left.take).getD left ++ (limit.map left.drop).getD [] := by
    cases limit <;> simp
  obtain ⟨new, handed, ends⟩ := readBytes_at lossy
    { followed with position := some ⟨id, (read ++ (limit.map left.take).getD left).length⟩ } taken
    ((limit.map left.take).getD left) []
  refine ⟨_, _, new, part, rfl, handed, ?_⟩
  rw [List.nil_append] at ends
  rw [← ends, readLines, file, position]
  simp only [content, Option.getD_some, List.drop_left, List.length_append]
  rw [← line]
  rfl

theorem readNow_eq {followed : Followed} {lines : List String}
    (result : readFile lossy unix s.disk s.saved s.followed = (followed, lines)) :
    readNow lossy unix s = { s with
      followed
      saved := if followed.position = s.followed.position then s.saved
        else followed.position.or s.saved
      handed := s.handed ++ lines
      written := s.written.or (s.disk.present.map fun content =>
        ([], content.drop (openingOffset unix s.disk content s.followed s.saved))) } := by
  rw [readNow, result]

theorem saved_after {followed : Followed} {position : Position}
    (moved : followed.position = some position)
    (before : s.followed.position = s.saved ∨ s.followed.position = none) :
    (if followed.position = s.followed.position then s.saved else followed.position.or s.saved) =
      some position := by
  split
  · rename_i same
    rcases before with known | unknown
    · rw [← known, ← same, moved]
    · rw [unknown, moved] at same
      cases same
  · rw [moved, Option.some_or]

/- A reading stands in the last file, and takes all of it up to the limit. -/
def ReadTo (lossy : List UInt8 → String) (unix : Bool) (s : State) : Prop :=
  ∃ number before taken left, Stands lossy unix (readNow lossy unix s) number before taken left ∧
    (readNow lossy unix s).written = some (before, taken ++ left) ∧
      (unread unix s ≤ maxBytesPerRead → left = [])

/- The file under the name, open and read so far, is read on: whatever came before, the
   reading then stands in it. -/
theorem reads_on (followed : Followed) (finished : List String) (before : List (List UInt8))
    (taken : List UInt8) {read left : List UInt8} (present : s.disk.present = some (read ++ left))
    (result : readFile lossy unix s.disk s.saved s.followed =
      ((readLines lossy s.disk (some maxBytesPerRead) (restartTruncated (read ++ left) followed)).1,
        finished ++
          (readLines lossy s.disk (some maxBytesPerRead) (restartTruncated (read ++ left) followed)).2))
    (file : followed.file = some s.disk.renamed.length)
    (position : followed.position = some ⟨identity unix s.disk.renamed.length, read.length⟩)
    (line : followed.at taken = followed)
    (known : s.followed.position = s.saved ∨ s.followed.position = none)
    (handed : s.handed ++ finished = (before ++ [taken]).flatMap (linesOf lossy))
    (written : s.written.or (s.disk.present.map fun content =>
      ([], content.drop (openingOffset unix s.disk content s.followed s.saved))) =
        some (before, taken ++ left))
    (found : unread unix s = left.length) : ReadTo lossy unix s := by
  have whole : restartTruncated (read ++ left) followed = followed := by
    rw [restartTruncated, position]
    exact if_neg (by simp)
  have content : s.disk.files[s.disk.renamed.length]? = some (read ++ left) := by
    rw [files_present present, List.getElem?_concat_length]
  obtain ⟨buffer, rest, new, all, part, more, reads⟩ := readLines_at lossy
    (some maxBytesPerRead) file position content line
  rw [whole, reads] at result
  have now := readNow_eq result
  refine ⟨s.disk.renamed.length, before, taken ++ buffer, rest, ?_, ?_, ?_⟩
  · rw [now, saved_after rfl known]
    refine ⟨Or.inl ⟨?_, ?_⟩, ⟨read ++ buffer, ?_, rfl⟩, ?_, fun _ => ⟨file, rfl, rfl⟩, ?_, ?_⟩
    · rw [written, all, List.append_assoc]
    · simp [files_present present]
    · rw [content, all, List.append_assoc]
    · rw [← List.append_assoc, handed, List.flatMap_append, List.flatMap_append]
      simp [more]
    · intro closed
      have closed : followed.file = none := closed
      rw [file] at closed
      cases closed
    · exact fun _ => ⟨by simp [present], rfl⟩
  · rw [now, written, all, List.append_assoc]
  · intro small
    have taken_all : buffer = left := by
      rw [part]
      exact List.take_of_length_le (by omega)
    rw [taken_all] at all
    exact (List.append_right_eq_self.mp all.symm)

def Followed.openAt (followed : Followed) (unix : Bool) (number offset : Nat) : Followed :=
  { followed with file := some number, position := some ⟨identity unix number, offset⟩ }

/- A file that was not open is opened, and read on. -/
theorem readFile_unopened (lossy : List UInt8 → String) (unix : Bool) {content : List UInt8}
    (closed : s.followed.file = none)
    (present : s.disk.present = some content) :
    readFile lossy unix s.disk s.saved s.followed = readLines lossy s.disk (some maxBytesPerRead)
      (restartTruncated content (s.followed.openAt unix s.disk.renamed.length
        (openingOffset unix s.disk content s.followed s.saved))) := by
  have unreplaced : finishReplaced lossy unix s.disk s.followed = (s.followed, []) := by
    rw [finishReplaced, present]
    split
    · simp [closed]
    · rfl
  rw [readFile, unreplaced, present]
  simp only [openFile, closed, Option.isNone_none, if_true, List.nil_append, Followed.openAt]

theorem first_read (no_position : s.saved = none) (none_written : s.written = none)
    (none_handed : s.handed = []) {seen : Bool} (fresh : s.followed = { follow with seenAbsent := seen })
    {content : List UInt8} (present : s.disk.present = some content) : ReadTo lossy unix s := by
  obtain ⟨read, left, cut, count⟩ : ∃ read left, content = read ++ left ∧
      openingOffset unix s.disk content s.followed s.saved = read.length := by
    have opening : openingOffset unix s.disk content s.followed s.saved ≤ content.length := by
      simp only [openingOffset, fresh, no_position, follow, Option.or_none]
      split <;> omega
    exact ⟨_, _, (List.take_append_drop _ content).symm, (List.length_take_of_le opening).symm⟩
  have closed : s.followed.file = none := by rw [fresh]; rfl
  have result := readFile_unopened lossy unix closed present
  subst cut
  rw [count] at result
  refine reads_on (s.followed.openAt unix s.disk.renamed.length read.length) [] [] [] present ?_ rfl
    rfl ?_ ?_ ?_ ?_ ?_
  · rw [result]
    rfl
  · rw [fresh]
    rfl
  · right
    rw [fresh]
    rfl
  · simp [none_handed]
  · simp [none_written, present, count]
  · simp [unread, present, count]

/- A reading after the first one, with the file open. -/
theorem read_opened {number : Nat} {before : List (List UInt8)} {taken left : List UInt8}
    (stands : Stands lossy unix s number before taken left) {content : List UInt8}
    (opened : s.followed.file.isSome = true) (present : s.disk.present = some content) :
    ReadTo lossy unix s := by
  obtain ⟨read, here, saved⟩ := stands.content
  obtain ⟨file, known, line⟩ := stands.opened opened
  have position := known.trans saved
  rcases stands.place with ⟨written, last⟩ | ⟨new, shown, written, next⟩
  · -- it is still the one under the name
    rw [files_present present, List.length_append, List.length_singleton] at last
    have under : s.disk.renamed.length = number := by omega
    subst under
    rw [files_present present, List.getElem?_concat_length, Option.some_inj] at here
    subst here
    refine reads_on s.followed [] before taken present ?_ file position line (Or.inl known) ?_ ?_ ?_
    · have unreplaced : finishReplaced lossy unix s.disk s.followed = (s.followed, []) := by
        rw [finishReplaced, position, present]
        simp
      rw [readFile, unreplaced, present]
      simp [openFile, file]
    · rw [List.append_nil, stands.handed]
    · rw [written, Option.some_or]
    · simp [unread, present, openingOffset, position]
  · -- it was renamed: it is finished, and the new one opened
    rw [present, Option.some_inj] at shown
    subst shown
    have system : unix = true := by
      by_contra plain
      have last := (stands.plain (Bool.eq_false_iff.mpr plain)).2
      omega
    subst system
    obtain ⟨buffer, rest, lines, all, part, more, reads⟩ :=
      readLines_at lossy none file position here line
    have rest_nil : rest = [] := by
      rw [part] at all
      simpa using all
    subst rest_nil
    rw [List.append_nil] at all
    subst all
    have other : number ≠ s.disk.renamed.length := by omega
    have empty : s.disk.present = some ([] ++ content) := present
    refine reads_on (Followed.openAt ({ s.followed with partialLine := [], skipping := false }) true
      s.disk.renamed.length 0) lines (before ++ [taken ++ left]) [] empty ?_ rfl rfl rfl
      (Or.inl known) ?_ ?_ ?_
    · have replaced : finishReplaced lossy true s.disk s.followed =
          ({ s.followed with
              file := none, partialLine := [], skipping := false
              position := some ⟨identity true s.disk.renamed.length, 0⟩ }, lines) := by
        rw [finishReplaced, position, present]
        simp only [identity, if_true, opened, Option.isSome_some, ne_eq, Option.some_inj, other,
          not_false_eq_true, and_self, reads, Followed.at]
      rw [readFile, replaced, present]
      simp only [openFile, openingOffset, Option.isNone_none, if_true, Option.some_or,
        Nat.zero_le, and_self, Followed.openAt, List.nil_append]
    · rw [stands.handed, List.flatMap_append, List.flatMap_append, List.flatMap_append]
      simp [more]
    · rw [written, Option.some_or, List.nil_append]
    · simp [unread, present, openingOffset, position, identity, other]

/- A reading after the first one, with the file not open since a restart. -/
theorem read_unopened {number : Nat} {before : List (List UInt8)} {taken left : List UInt8}
    (stands : Stands lossy unix s number before taken left) {content : List UInt8}
    (closed : s.followed.file = none) (present : s.disk.present = some content) :
    ReadTo lossy unix s := by
  obtain ⟨read, here, saved⟩ := stands.content
  obtain ⟨no_position, no_line, ended, either⟩ := stands.closed closed
  have result := readFile_unopened lossy unix closed present
  rcases stands.place with ⟨written, last⟩ | ⟨new, shown, written, next⟩
  · -- it is still the one under the name
    rw [files_present present, List.length_append, List.length_singleton] at last
    have under : s.disk.renamed.length = number := by omega
    subst under
    rw [files_present present, List.getElem?_concat_length, Option.some_inj] at here
    subst here
    have offset : openingOffset unix s.disk (read ++ left) s.followed s.saved = read.length := by
      simp [openingOffset, no_position, saved]
    rw [offset] at result
    refine reads_on (s.followed.openAt unix s.disk.renamed.length read.length) [] before taken
      present result rfl rfl ?_ (Or.inr no_position) ?_ ?_ ?_
    · simp only [Followed.at, Lines.unended_nil] at no_line
      rw [Followed.at, ended, ← no_line]
      rfl
    · rw [List.append_nil, stands.handed]
    · rw [written, Option.some_or]
    · simp [unread, present, offset]
  · -- it was renamed, and nothing of it is left
    rw [present, Option.some_inj] at shown
    subst shown
    have none_left : left = [] := either.resolve_right fun both => by omega
    subst none_left
    have system : unix = true := by
      by_contra plain
      have last := (stands.plain (Bool.eq_false_iff.mpr plain)).2
      omega
    subst system
    have other : number ≠ s.disk.renamed.length := by omega
    have empty : s.disk.present = some ([] ++ content) := present
    have offset : openingOffset true s.disk content s.followed s.saved = 0 := by
      simp [openingOffset, no_position, saved, identity, other]
    rw [offset] at result
    refine reads_on (s.followed.openAt true s.disk.renamed.length 0) [] (before ++ [taken]) [] empty
      result rfl rfl ?_ (Or.inr no_position) ?_ ?_ ?_
    · simp only [Followed.at, Lines.unended_nil] at no_line
      rw [Followed.at, Lines.unended_nil, ← no_line]
      rfl
    · rw [List.append_nil, stands.handed]
      simp
    · rw [written, Option.some_or, List.append_nil, List.nil_append]
    · simp [unread, present, offset]

/- Between a rotation and the new file: what is left of the old one is read. -/
theorem read_absent {number : Nat} {before : List (List UInt8)} {taken left : List UInt8}
    (stands : Stands lossy unix s number before taken left) (absent : s.disk.present = none) :
    ReadTo lossy unix s := by
  obtain ⟨read, here, saved⟩ := stands.content
  have unreplaced : finishReplaced lossy unix s.disk s.followed = (s.followed, []) := by
    rw [finishReplaced, absent]
    split
    · rename_i shown
      cases shown
    · rfl
  obtain ⟨written, last⟩ | ⟨new, shown, _⟩ := stands.place
  swap
  · rw [absent] at shown
    cases shown
  have no_plain : unix = false → False := fun plain => by
    have shown := (stands.plain plain).1
    simp [absent] at shown
  cases held : s.followed.file with
  | none =>
    obtain ⟨no_position, no_line, ended, either⟩ := stands.closed held
    have none_left : left = [] := either.resolve_right fun both => by simp [absent] at both
    have result : readFile lossy unix s.disk s.saved s.followed =
        ({ s.followed with seenAbsent := true }, []) := by
      rw [readFile, unreplaced, absent]
      simp [readLines, held]
    have now := readNow_eq result
    refine ⟨number, before, taken, left, ?_, ?_, fun _ => none_left⟩
    · rw [now]
      refine ⟨Or.inl ⟨by simp [written], last⟩, ⟨read, here, by simp [saved]⟩, ?_, ?_, ?_, ?_⟩
      · simp [stands.handed]
      · intro opened
        have opened : s.followed.file.isSome = true := opened
        simp [held] at opened
      · refine fun _ => ⟨no_position, ?_, ended, Or.inl none_left⟩
        have same : ({ s.followed with seenAbsent := true } : Followed).at [] =
            { s.followed.at [] with seenAbsent := true } := rfl
        rw [same, no_line]
      · exact fun plain => (no_plain plain).elim
    · rw [now, written, Option.some_or]
  | some file =>
    obtain ⟨file_eq, known, line⟩ := stands.opened (by simp [held])
    have position := known.trans saved
    obtain ⟨buffer, rest, lines, all, part, more, reads⟩ :=
      readLines_at lossy none file_eq position here line
    have rest_nil : rest = [] := by
      rw [part] at all
      simpa using all
    subst rest_nil
    rw [List.append_nil] at all
    subst all
    have result : readFile lossy unix s.disk s.saved s.followed =
        ({ ({ s.followed with
            position := some ⟨identity unix number, (read ++ left).length⟩ } : Followed).at
              (taken ++ left) with seenAbsent := true }, lines) := by
      rw [readFile, unreplaced, absent]
      simp only [reads, List.nil_append]
    have now := readNow_eq result
    refine ⟨number, before, taken ++ left, [], ?_, ?_, fun _ => rfl⟩
    · rw [now, saved_after rfl (Or.inl known)]
      refine ⟨Or.inl ⟨by simp [written], last⟩, ⟨read ++ left, by simpa using here, rfl⟩, ?_, ?_, ?_, ?_⟩
      · rw [stands.handed]
        simp [more]
      · exact fun _ => ⟨file_eq, rfl, rfl⟩
      · intro closed
        have closed : s.followed.file = none := closed
        rw [held] at closed
        cases closed
      · exact fun plain => (no_plain plain).elim
    · rw [now, written, Option.some_or, List.append_nil]

theorem read_sound (sound : Sound lossy unix s) :
    ReadTo lossy unix s ∨ Sound lossy unix (readNow lossy unix s) ∧
      (readNow lossy unix s).written = none := by
  cases present : s.disk.present with
  | some content =>
    left
    rcases sound with ⟨none_written, no_position, none_handed, seen, fresh⟩ |
      ⟨number, before, taken, left, stands⟩
    · exact first_read no_position none_written none_handed fresh present
    · cases held : s.followed.file with
      | none => exact read_unopened stands held present
      | some file => exact read_opened stands (by simp [held]) present
  | none =>
    rcases sound with ⟨none_written, no_position, none_handed, seen, fresh⟩ |
      ⟨number, before, taken, left, stands⟩
    · right
      have result : readFile lossy unix s.disk s.saved s.followed =
          ({ follow with seenAbsent := true }, []) := by
        rw [readFile, finishReplaced, present, fresh]
        rfl
      have now := readNow_eq result
      constructor
      · rw [now]
        exact Or.inl ⟨by simp [none_written, present], by simp [no_position, follow],
          by simp [none_handed], true, rfl⟩
      · rw [now]
        simp [none_written, present]
    · exact Or.inl (read_absent stands present)

end Steps

/- No line is lost, split or repeated: what was handed on comes first of what was to be, and
   a reading that finds no more than its limit hands on all there is. -/
def HandsOn (lossy : List UInt8 → String) (unix : Bool) (s : State) : Prop :=
  s.handed <+: expected lossy s ∧
    (unread unix s ≤ maxBytesPerRead →
      (readNow lossy unix s).handed = expected lossy (readNow lossy unix s))

/- A file is renamed while it is being read, or once it was read to its end, on a system that
   tells files apart; and the agent is not restarted in the middle of a line, nor while the
   rest of a renamed file is unread. -/
def Careful (unix : Bool) (s : State) : Action → Prop
  | .append _ => True
  | .read => True
  | .rotate => s.written = none ∨ s.disk.present = none ∨
      (unix = true ∧ underName s = true ∧ (s.followed.file.isSome = true ∨ readToEnd s = true))
  | .restart => s.followed.partialLine = [] ∧
      (s.written = none ∨ unix = false ∨ underName s = true ∨ readToEnd s = true)

instance (unix : Bool) (s : State) : ∀ a, Decidable (Careful unix s a)
  | .append _ => isTrue trivial
  | .read => isTrue trivial
  | .rotate => inferInstanceAs (Decidable (_ ∨ _))
  | .restart => inferInstanceAs (Decidable (_ ∧ _))

section Runs
variable {lossy : List UInt8 → String} {unix : Bool}

theorem step_sound (s : State) (a : Action) (sound : Sound lossy unix s)
    (careful : Careful unix s a) : Sound lossy unix (step lossy unix s a) := by
  cases a with
  | append bytes => exact append_sound sound bytes
  | rotate => exact rotate_sound sound careful
  | restart => exact restart_sound sound careful.1 careful.2
  | read =>
    rcases read_sound sound with ⟨number, before, taken, left, stands, _⟩ | ⟨still, _⟩
    · exact Or.inr ⟨number, before, taken, left, stands⟩
    · exact still

theorem handed_first {s : State} (sound : Sound lossy unix s) : s.handed <+: expected lossy s := by
  rcases sound with ⟨_, _, none_handed, _⟩ | ⟨number, before, taken, left, stands⟩
  · rw [none_handed]
    exact List.nil_prefix
  · have so_far : (before ++ [taken]).flatMap (linesOf lossy) <+:
        (before ++ [taken ++ left]).flatMap (linesOf lossy) := by
      rw [List.flatMap_append, List.flatMap_append, List.prefix_append_right_inj]
      simpa using linesOf_first lossy taken left
    rw [stands.handed]
    rcases stands.place with ⟨written, _⟩ | ⟨new, _, written, _⟩
    · simpa [expected, streams, written] using so_far
    · refine so_far.trans ?_
      rw [expected, streams, written]
      exact ⟨linesOf lossy new, by simp⟩

theorem handsOn_of_sound {s : State} (sound : Sound lossy unix s) : HandsOn lossy unix s := by
  refine ⟨handed_first sound, fun small => ?_⟩
  rcases read_sound sound with ⟨number, before, taken, left, stands, written, all⟩ | ⟨still, none_written⟩
  · rw [stands.handed, expected, streams, written, all small]
    simp
  · rcases still with ⟨_, _, none_handed, _⟩ | ⟨number, before, taken, left, stands⟩
    · simp [none_handed, expected, streams, none_written]
    · rcases stands.place with ⟨written, _⟩ | ⟨_, _, written, _⟩ <;> simp [none_written] at written

end Runs

/- A run of careful steps hands on each complete line once, whole and in order. -/
theorem hands_on_lines (lossy : List UInt8 → String) (unix : Bool) (disk : Disk)
    (as : List Action) (careful : Along (step lossy unix) (Careful unix) (start disk) as) :
    HandsOn lossy unix (run (step lossy unix) (start disk) as) := by
  have initial : Sound lossy unix (start disk) := Or.inl ⟨rfl, rfl, rfl, false, rfl⟩
  exact handsOn_of_sound (run_keeps step_sound initial careful)

def ascii (bytes : List UInt8) : String := String.ofList (bytes.map fun b => Char.ofNat b.toNat)

def utf8 (text : String) : List UInt8 := text.toList.map fun c => UInt8.ofNat c.toNat

theorem rotated_file_handed_on : HandsOn ascii true (run (step ascii true) (start ⟨[], some []⟩)
    [.read, .append (utf8 "one\ntw"), .read, .append (utf8 "o\n"), .rotate,
      .append (utf8 "three\n"), .read, .restart, .append (utf8 "four\n"), .read]) :=
  hands_on_lines ascii true ⟨[], some []⟩ _ (by decide)

/- The agent is restarted in the middle of a line: its second half is handed on as a line. -/
theorem restart_splits_line : ¬ HandsOn ascii true (run (step ascii true) (start ⟨[], some []⟩)
    [.read, .append (utf8 "ab"), .read, .restart, .append (utf8 "c\n"), .read]) := by
  intro handsOn
  have comes_first := handsOn.1
  revert comes_first
  decide

end SentinelAgent.LogFile
