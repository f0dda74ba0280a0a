import SentinelAgent.Library.Inside
import SentinelAgent.Siem.SshdForged

/-!
The line sudo writes about one command, and the parts it is cut into.
-/
namespace SentinelAgent.Decode
open Captures Inside Text

/- One command as sudo logs it: `user : TTY=t ; PWD=d ; USER=r ; COMMAND=c`. -/
structure SudoEntry where
  user : List Char
  tty : List Char
  pwd : List Char
  targetUser : List Char
  command : List Char

/- A setting is written with what parts it from the next. -/
def settingText (setting : List Char × List Char) : List Char :=
  setting.1 ++ ('=' :: (setting.2 ++ " ; ".toList))

namespace SudoEntry

def settings (entry : SudoEntry) : List (List Char × List Char) :=
  [("TTY".toList, entry.tty), ("PWD".toList, entry.pwd), ("USER".toList, entry.targetUser)]

def message (entry : SudoEntry) : List Char :=
  entry.user ++ (" : ".toList ++
    (entry.settings.flatMap settingText ++ ("COMMAND=".toList ++ entry.command)))

/- What was decoded is what sudo wrote. -/
def Recovered (entry : SudoEntry) (log : DecodedLog) : Prop :=
  log.get "user" = some (String.ofList entry.user) ∧
    log.get "tty" = some (String.ofList entry.tty) ∧
    log.get "pwd" = some (String.ofList entry.pwd) ∧
    log.get "target_user" = some (String.ofList entry.targetUser) ∧
    log.get "command" = some (String.ofList entry.command)

end SudoEntry

/- A value that a field keeps whole, on one line. -/
structure Whole (value : List Char) : Prop where
  nonempty : value ≠ []
  trimmed : trim (String.ofList value) = String.ofList value
  short : value.length ≤ maxFieldChars
  one_line : '\n' ∉ value

/- A value that can stand before the command. -/
structure Setting (value : List Char) : Prop extends Whole value where
  no_separator : ¬ " ; ".toList <:+: value ++ [' ']
  no_command : ¬ "COMMAND=".toList <:+: value

structure SudoEntry.Readable (entry : SudoEntry) : Prop where
  user : Whole entry.user
  one_word : ∀ c ∈ entry.user, nonBlank c = true
  tty : Setting entry.tty
  pwd : Setting entry.pwd
  targetUser : Setting entry.targetUser
  command : Whole entry.command

section Cut
variable {needle before rest : List Char}

theorem afterChars_first (nonempty : needle ≠ []) (first : FirstAt needle before) :
    afterChars needle (before ++ (needle ++ rest)) = some rest := by
  induction before with
  | nil =>
    obtain ⟨c, more, rfl⟩ := List.exists_cons_of_ne_nil nonempty
    rw [List.nil_append, List.cons_append, afterChars, if_pos]
    · simp
    · exact List.isPrefixOf_iff_prefix.mpr ⟨rest, rfl⟩
  | cons c before ih =>
    rw [List.cons_append, afterChars, if_neg]
    · exact ih first.tail
    · exact fun starts => first.not_here (List.isPrefixOf_iff_prefix.mp starts)

theorem afterText_first {needle : String} (nonempty : needle.toList ≠ [])
    (first : FirstAt needle.toList before) :
    afterText needle (String.ofList (before ++ (needle.toList ++ rest))) =
      some (String.ofList rest) := by
  rw [afterText, String.toList_ofList, afterChars_first nonempty first, Option.map_some]

theorem beforeText_first {needle : String} (nonempty : needle.toList ≠ [])
    (first : FirstAt needle.toList before) :
    beforeText needle (String.ofList (before ++ (needle.toList ++ rest))) =
      some (String.ofList before) := by
  have lengths : (before ++ (needle.toList ++ rest)).length - rest.length - needle.toList.length =
      before.length := by
    simp only [List.length_append]
    omega
  rw [beforeText, afterText_first nonempty first, Option.map_some, String.toList_ofList,
    String.toList_ofList, lengths, List.take_left]

theorem splitText_skip (skipped piece : List Char) :
    splitText needle skipped.length piece (skipped ++ rest) = splitText needle 0 piece rest := by
  induction skipped with
  | nil => rfl
  | cons c skipped ih => exact ih

theorem splitText_first (nonempty : needle ≠ []) (first : FirstAt needle before) (piece : List Char) :
    splitText needle 0 piece (before ++ (needle ++ rest)) =
      (piece ++ before) :: splitText needle 0 [] rest := by
  induction before generalizing piece with
  | nil =>
    obtain ⟨c, more, rfl⟩ := List.exists_cons_of_ne_nil nonempty
    rw [List.nil_append, List.cons_append, splitText, if_pos ⟨rest, rfl⟩, List.append_nil]
    congr 1
    exact splitText_skip more []
  | cons c before ih =>
    rw [List.cons_append, splitText, if_neg first.not_here, ih first.tail]
    simp

theorem splitText_none {text : List Char} (absent : ¬ needle <:+: text) (piece : List Char) :
    splitText needle 0 piece text = [piece ++ text] := by
  induction text generalizing piece with
  | nil => simp [splitText]
  | cons c text ih =>
    have not_here : ¬ needle <+: c :: text := fun starts => absent starts.isInfix
    have not_later : ¬ needle <:+: text :=
      fun inside => absent (List.infix_cons_iff.mpr (Or.inr inside))
    rw [splitText, if_neg not_here, ih not_later]
    simp

/-- A piece stands in the text, and what parts the pieces does not stand in it. -/
theorem piece_of_split (nonempty : needle ≠ []) {part text : List Char}
    (member : part ∈ splitText needle 0 [] text) : part <:+: text ∧ ¬ needle <:+: part := by
  by_cases inside : needle <:+: text
  · obtain ⟨before, rest, text_eq, first⟩ := first_place nonempty inside
    rw [text_eq, splitText_first nonempty first, List.nil_append] at member
    rcases List.mem_cons.mp member with rfl | later
    · exact ⟨⟨[], needle ++ rest, by rw [text_eq]; simp⟩, first.free⟩
    · have shorter : rest.length < text.length := by
        have := List.length_pos_of_ne_nil nonempty
        rw [text_eq, List.length_append, List.length_append]
        omega
      obtain ⟨within, free⟩ := piece_of_split nonempty later
      exact ⟨within.trans ⟨before ++ needle, [], by rw [text_eq]; simp⟩, free⟩
  · rw [splitText_none inside, List.mem_singleton, List.nil_append] at member
    rw [member]
    exact ⟨List.infix_rfl, inside⟩
termination_by text.length

end Cut

/-!
What is read of a line of sudo: who ran the command, and the values of its settings.
-/

open Maps

section Line
variable {user body : List Char} {groups : Groups}

/- The last part of the line, up to its end. -/
theorem last_captured : (run (sequence [.group 2 (.many 1 (· != '\n')), .stop])
    ⟨groups, body⟩).head? =
      if body = [] ∨ '\n' ∈ body then none else some ⟨groups ++ [(2, body)], []⟩ := by
  rw [run_sequence_cons, run, run_many, List.map_append, List.flatMap_append]
  have whole : ∀ found, run (sequence [.stop]) found = if found.rest = [] then [found] else [] := by
    intro found
    rw [run_sequence_single, run]
  have early : ((((shorter 1 (· != '\n') body).map fun taken =>
      (⟨groups, body.drop taken⟩ : Found)).map fun further =>
        (⟨further.groups ++ [(2, body.take (body.length - further.rest.length))],
          further.rest⟩ : Found)).flatMap (run (sequence [.stop]))) = [] := by
    simp only [List.flatMap_eq_nil_iff, List.mem_map]
    rintro _ ⟨_, ⟨taken, member, rfl⟩, rfl⟩
    obtain ⟨c, rest, next, _⟩ := shorter_next member
    rw [whole, next]
    rfl
  rw [early, List.append_nil]
  by_cases line_end : '\n' ∈ body
  · have stops : body.dropWhile (· != '\n') ≠ [] := by
      intro none_left
      have := List.dropWhile_eq_nil_iff.mp none_left '\n' line_end
      simp at this
    rw [if_pos (Or.inr line_end)]
    split_ifs
    · simp [whole, stops]
    · rfl
  · have accepted : ∀ c ∈ body, (c != '\n') = true := by
      intro c member
      simp only [bne_iff_ne, ne_eq]
      rintro rfl
      exact line_end member
    rw [List.takeWhile_eq_self_iff.mpr accepted, List.dropWhile_eq_nil_iff.mpr accepted]
    cases body with
    | nil => rfl
    | cons c body => simp [whole, line_end]

/-- Where the user is one word, the rest of the line is read whole. -/
theorem sudoLine_captured (one_word : ∀ c ∈ user, nonBlank c = true) (nonempty : user ≠ []) :
    captures sudoLine (user ++ (" : ".toList ++ body)) =
      if body = [] ∨ '\n' ∈ body then none else some [(1, user), (2, body)] := by
  have no_white : (user ++ (" : ".toList ++ body)).takeWhile isWhitespace = [] := by
    cases user with
    | nil => exact absurd rfl nonempty
    | cons c user =>
      have plain : isWhitespace c = false := by
        simpa [nonBlank] using one_word c List.mem_cons_self
      exact List.takeWhile_cons_of_neg (by simp [plain])
  have nothing_skipped : run (.many 0 isWhitespace) ⟨[], user ++ (" : ".toList ++ body)⟩ =
      [⟨[], user ++ (" : ".toList ++ body)⟩] := by
    rw [run, no_white]
    rfl
  have some_letter : 1 ≤ user.length := List.length_pos_of_ne_nil nonempty
  rw [captures, sudoLine, run_sequence_cons, nothing_skipped, List.flatMap_singleton, nonBlanks,
    Decode.text]
  have word := run_many_word_here (c := ' ') [.group 2 (.many 1 (· != '\n')), .stop] [] body
    (by decide) one_word some_letter 1 ": ".toList
  refine (congrArg (fun found => Option.map Found.groups (List.head? found)) word).trans ?_
  rw [last_captured]
  split_ifs
  · rfl
  · rfl

/-- Whoever is read to have run the command is one word. -/
theorem sudoLine_user {text : List Char} (found : captures sudoLine text = some groups) :
    ∃ word, captured groups 1 = String.ofList word ∧ (∀ c ∈ word, nonBlank c = true) ∧
      1 ≤ word.length := by
  obtain ⟨stop, first, rfl⟩ := Option.map_eq_some_iff.mp found
  rw [sudoLine, run_sequence_cons, List.head?_flatMap] at first
  obtain ⟨blanks, member, rest_first⟩ := List.exists_of_findSome?_eq_some first
  have no_group : blanks.groups = [] := by
    obtain ⟨_, _, rfl⟩ := List.mem_map.mp member
    rfl
  have cut : nonBlank ' ' = false := by decide
  obtain ⟨word, body, _, plain, some_letter, last⟩ := (first_many_word cut).mp rest_first
  rw [First, last_captured] at last
  split_ifs at last
  obtain rfl := Option.some.inj last
  refine ⟨word, ?_, plain, some_letter⟩
  rw [no_group]
  rfl

end Line

/-! Values without the blanks around them. -/

section Trimmed
variable {start value text : List Char}

def endTrimmed (text : List Char) : List Char := (text.reverse.dropWhile isWhitespace).reverse

theorem trim_eq : trim (String.ofList text) =
    String.ofList (endTrimmed (text.dropWhile isWhitespace)) := by
  rw [trim, String.toList_ofList, endTrimmed]

theorem endTrimmed_starts : endTrimmed text <+: text := by
  have ends := List.reverse_prefix.mpr (List.dropWhile_suffix (l := text.reverse) isWhitespace)
  rwa [List.reverse_reverse] at ends

theorem trim_inside : (trim (String.ofList text)).toList <:+: text := by
  rw [trim_eq, String.toList_ofList]
  exact endTrimmed_starts.isInfix.trans (List.dropWhile_suffix _).isInfix

/- Only the value of a setting has blanks to lose. -/
theorem trim_after (plain : ∀ c ∈ start, isWhitespace c = false) (nonempty : start ≠ []) :
    trim (String.ofList (start ++ value)) = String.ofList (start ++ endTrimmed value) := by
  have first : (start ++ value).dropWhile isWhitespace = start ++ value := by
    obtain ⟨c, more, rfl⟩ := List.exists_cons_of_ne_nil nonempty
    exact List.dropWhile_cons_of_neg (by simp [plain c List.mem_cons_self])
  have last : start.reverse.dropWhile isWhitespace = start.reverse := by
    obtain ⟨more, c, rfl⟩ := (List.eq_nil_or_concat start).resolve_left nonempty
    have c_plain : isWhitespace c = false := plain c (by simp)
    rw [List.concat_eq_append, List.reverse_append, List.reverse_singleton, List.singleton_append,
      List.dropWhile_cons_of_neg (by simp [c_plain])]
  rw [trim_eq, first, endTrimmed, List.reverse_append, List.dropWhile_append, last, endTrimmed]
  split_ifs with all_white
  · rw [List.isEmpty_iff.mp all_white]
    simp
  · simp

/-- A value that was kept of a text no longer than it is that text, whole. -/
theorem kept_whole (kept : DecodedLog.kept (String.ofList text) = String.ofList value)
    (some_text : trim (String.ofList text) ≠ "") (long : text.length ≤ value.length) :
    text = value ∧ value ≠ [] ∧ trim (String.ofList value) = String.ofList value ∧
      value.length ≤ maxFieldChars := by
  have value_eq := congrArg String.toList kept
  rw [DecodedLog.kept, String.toList_ofList, String.toList_ofList] at value_eq
  have cut := congrArg List.length value_eq
  rw [List.length_take] at cut
  have shorter : (trim (String.ofList text)).toList.length ≤ text.length := trim_inside.length_le
  have trimmed : (trim (String.ofList text)).toList = text :=
    trim_inside.eq_of_length (by omega)
  have text_eq : text = value := by
    rw [← value_eq, trimmed, List.take_of_length_le]
    rw [trimmed] at cut
    omega
  subst text_eq
  refine ⟨rfl, ?_, ?_, by omega⟩
  · rintro rfl
    exact some_text (by decide)
  · rw [← String.toList_inj, trimmed, String.toList_ofList]

theorem kept_eq_iff (some_text : trim (String.ofList value) ≠ "") :
    DecodedLog.kept (String.ofList value) = String.ofList value ↔
      trim (String.ofList value) = String.ofList value ∧ value.length ≤ maxFieldChars := by
  constructor
  · intro kept
    obtain ⟨_, _, trimmed, short⟩ := kept_whole kept some_text (Nat.le_refl _)
    exact ⟨trimmed, short⟩
  · rintro ⟨trimmed, short⟩
    rw [DecodedLog.kept, trimmed, String.toList_ofList, List.take_of_length_le short]

theorem Whole.some_text (whole : Whole value) : trim (String.ofList value) ≠ "" := by
  rw [whole.trimmed]
  exact fun none_there => whole.nonempty (by simpa using congrArg String.toList none_there)

theorem Whole.kept (whole : Whole value) :
    DecodedLog.kept (String.ofList value) = String.ofList value :=
  (kept_eq_iff whole.some_text).mpr ⟨whole.trimmed, whole.short⟩

end Trimmed

/-! One part of the settings. -/

section Parts
variable (engine : Engine)

theorem settingName_lower {key name : String} (named : settingName key = some name) :
    toAsciiLowercase name = name := by
  unfold settingName at named
  split_ifs at named <;> rw [← Option.some.inj named] <;> decide

/-- What a part sets, apart from the reason and the attempts, is the value of its own setting. -/
theorem sudoPart_get {read : SudoRead} {part name value : String} (no_attempts : name ≠ "attempts")
    (no_reason : name ≠ "reason") (got : (sudoPart engine read part).log.get name = some value) :
    read.log.get name = some value ∨ ∃ key text, settingName key = some name ∧
      splitFirst '=' part = some (key, text) ∧ trim text ≠ "" ∧ value = DecodedLog.kept text := by
  have attempts : toAsciiLowercase "attempts" = "attempts" := by decide
  have reason : toAsciiLowercase "reason" = "reason" := by decide
  unfold sudoPart at got
  split at got
  · rename_i key text cut
    split at got
    · rename_i setting named
      rw [DecodedLog.get_set] at got
      split_ifs at got with empty same
      · exact Or.inl got
      · rw [settingName_lower named] at same
        exact Or.inr ⟨key, text, same ▸ named, cut, empty, (Option.some.inj got).symm⟩
      · exact Or.inl got
    · exact Or.inl got
  · split at got
    · rw [DecodedLog.get_set, attempts, if_neg no_attempts, ite_self] at got
      exact Or.inl got
    · split at got
      · exact Or.inl got
      · rw [DecodedLog.get_set, reason, if_neg no_reason, ite_self] at got
        exact Or.inl got

/-- A value of the settings is that of one of their parts. -/
theorem sudoParts_get {parts : List String} {read : SudoRead} {name value : String}
    (no_attempts : name ≠ "attempts") (no_reason : name ≠ "reason")
    (got : (parts.foldl (sudoPart engine) read).log.get name = some value) :
    read.log.get name = some value ∨ ∃ part ∈ parts, ∃ key text, settingName key = some name ∧
      splitFirst '=' part = some (key, text) ∧ trim text ≠ "" ∧ value = DecodedLog.kept text := by
  induction parts generalizing read with
  | nil => exact Or.inl got
  | cons part parts ih =>
    rcases ih got with before | ⟨later, member, found⟩
    · rcases sudoPart_get engine no_attempts no_reason before with start | here
      · exact Or.inl start
      · exact Or.inr ⟨part, List.mem_cons_self, here⟩
    · exact Or.inr ⟨later, List.mem_cons_of_mem _ member, found⟩

theorem sudoSettings_get {settings : List Char} {name value : String}
    (no_attempts : name ≠ "attempts") (no_reason : name ≠ "reason")
    (got : (sudoSettings engine .empty (String.ofList settings)).log.get name = some value) :
    ∃ piece ∈ splitText " ; ".toList 0 [] settings, ∃ key text, settingName key = some name ∧
      splitFirst '=' (trim (String.ofList piece)) = some (key, text) ∧ trim text ≠ "" ∧
        value = DecodedLog.kept text := by
  rw [sudoSettings, String.toList_ofList (l := settings)] at got
  rcases sudoParts_get engine no_attempts no_reason got with none_yet | ⟨part, member, found⟩
  · rw [DecodedLog.get_empty] at none_yet
    cases none_yet
  · obtain ⟨piece, piece_member, rfl⟩ := List.mem_map.mp member
    exact ⟨piece, piece_member, found⟩

/- A part that is a setting, where it has a value at all. -/
theorem sudoPart_setting {read : SudoRead} {key value : List Char} {name : String} (free : '=' ∉ key)
    (named : settingName (String.ofList key) = some name) :
    sudoPart engine read (String.ofList (key ++ '=' :: value)) =
      { read with log := read.log.set name (String.ofList value), recognised := true } := by
  rw [sudoPart, splitFirst_text free]
  simp only [named]

end Parts

/-- What is decoded of a line, once its parts are known. -/
theorem decodeSudo_read (engine : Engine) {user before command : List Char}
    (one_word : ∀ c ∈ user, nonBlank c = true) (nonempty : user ≠ [])
    (one_line : '\n' ∉ before ++ ("COMMAND=".toList ++ command))
    (first : FirstAt "COMMAND=".toList before) :
    let read := sudoSettings engine .empty (String.ofList before)
    decodeSudo engine .empty
        (user ++ (" : ".toList ++ (before ++ ("COMMAND=".toList ++ command)))) =
      ((read.log.set "command" (String.ofList command)).set "user" (String.ofList user)).set "action"
        read.action := by
  have some_body : before ++ ("COMMAND=".toList ++ command) ≠ [] := by simp
  have command_there : "COMMAND=".toList ≠ [] := by decide
  have found : engine.captures sudoLine
      (user ++ (" : ".toList ++ (before ++ ("COMMAND=".toList ++ command)))) =
        some [(1, user), (2, before ++ ("COMMAND=".toList ++ command))] := by
    rw [engine.preferred, sudoLine_captured one_word nonempty, if_neg]
    rintro (none_there | line_end)
    · exact some_body none_there
    · exact one_line line_end
  have line : captured [(1, user), (2, before ++ ("COMMAND=".toList ++ command))] 2 =
      String.ofList (before ++ ("COMMAND=".toList ++ command)) := rfl
  have who : captured [(1, user), (2, before ++ ("COMMAND=".toList ++ command))] 1 =
      String.ofList user := rfl
  rw [decodeSudo, found]
  simp only [line, who, afterText_first command_there first, beforeText_first command_there first,
    Option.getD_some, if_true]

end SentinelAgent.Decode
