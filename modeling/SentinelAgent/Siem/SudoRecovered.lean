import SentinelAgent.Siem.SshdPeers
import SentinelAgent.Siem.SudoRead

/-!
When a line of sudo is decoded to what sudo wrote into it.
-/
namespace SentinelAgent.Decode
open Captures Inside Maps Text

def separator : List Char := [' ', ';', ' ']

/- What names a setting has no blank and nothing that parts the settings. -/
def SettingKey (key : List Char) : Prop := ∀ c ∈ key, isWhitespace c = false ∧ c ≠ '=' ∧ c ≠ ';'

instance (key : List Char) : Decidable (SettingKey key) :=
  inferInstanceAs (Decidable (∀ c ∈ key, isWhitespace c = false ∧ c ≠ '=' ∧ c ≠ ';'))

section Separated
variable {key value rest : List Char}

theorem firstAt_iff : FirstAt separator value ↔ ¬ separator <:+: value ++ [' '] := by
  have stretch : value ++ separator.dropLast = (value ++ [' ']) ++ [';'] := by
    simp [separator]
  have no_end : ¬ separator <:+ (value ++ [' ']) ++ [';'] := by
    rintro ⟨left, whole⟩
    have cut : (left ++ [' ', ';']) ++ [' '] = (value ++ [' ']) ++ [';'] := by
      rw [← whole]
      simp [separator]
    exact absurd (List.append_inj' cut rfl).2 (by decide)
  rw [FirstAt, stretch, List.infix_concat_iff]
  tauto

/- Of a value followed by what parts it from the next, a blank and a semicolon at its end are lost
   to the separator. -/
theorem value_cut (free : ¬ separator <:+: value) :
    ∃ shown lead, value = shown ++ lead ∧ FirstAt separator shown ∧
      (lead = [] ∨ lead = [' ', ';']) := by
  by_cases again : separator <:+: value ++ [' ']
  · obtain ⟨left, whole⟩ := (List.infix_concat_iff.mp again).resolve_right free
    have cut : (left ++ [' ', ';']) ++ [' '] = value ++ [' '] := by
      rw [← whole]
      simp [separator]
    have value_eq := (List.append_inj' cut rfl).1
    refine ⟨left, [' ', ';'], value_eq.symm, ?_, Or.inr rfl⟩
    rw [FirstAt, separator]
    exact value_eq ▸ free
  · exact ⟨value, [], (List.append_nil _).symm, firstAt_iff.mpr again, Or.inl rfl⟩

theorem firstAt_setting {lead : List Char} (lead_cases : lead = [] ∨ lead = [';', ' '])
    (plain : SettingKey key) (first : FirstAt separator value) :
    FirstAt separator (lead ++ (key ++ '=' :: value)) := by
  have no_blank : ' ' ∉ key := fun member => absurd (plain ' ' member).1 (by decide)
  have one_blank : (lead ++ key).count ' ' ≤ 1 := by
    rw [List.count_append, List.count_eq_zero.mpr no_blank]
    rcases lead_cases with rfl | rfl <;> decide
  intro inside
  have parts : lead ++ (key ++ '=' :: value) ++ separator.dropLast =
      (lead ++ key) ++ '=' :: (value ++ separator.dropLast) := by simp
  rw [parts] at inside
  rcases inside_around (by decide) inside with within | later
  · have two : separator.count ' ' = 2 := by decide
    have := within.sublist.count_le ' '
    omega
  · exact first later

/-- A piece of the settings is nothing, or begins where a separator was taken from its end, or is a
    setting with a start of its value. -/
theorem piece_of_settings {settings : List (List Char × List Char)} {lead piece : List Char}
    (lead_cases : lead = [] ∨ lead = [';', ' '])
    (keys : ∀ setting ∈ settings, SettingKey setting.1)
    (values : ∀ setting ∈ settings, ¬ separator <:+: setting.2)
    (member : piece ∈ splitText separator 0 [] (lead ++ settings.flatMap settingText)) :
    piece = [] ∨ piece.head? = some ';' ∨ ∃ setting ∈ settings, ∃ shown,
      shown <+: setting.2 ∧ FirstAt separator shown ∧ piece = setting.1 ++ '=' :: shown := by
  induction settings generalizing lead with
  | nil =>
    have absent : ¬ separator <:+: lead := by
      rcases lead_cases with rfl | rfl <;> decide
    rw [List.flatMap_nil, List.append_nil, splitText_none absent, List.mem_singleton,
      List.nil_append] at member
    rcases lead_cases with rfl | rfl
    · exact Or.inl member
    · exact Or.inr (Or.inl (by rw [member]; rfl))
  | cons setting settings ih =>
    obtain ⟨shown, left, value_eq, first, left_cases⟩ :=
      value_cut (values setting List.mem_cons_self)
    obtain ⟨next, next_cases, swapped⟩ : ∃ next, (next = [] ∨ next = [';', ' ']) ∧
        left ++ separator = separator ++ next := by
      rcases left_cases with rfl | rfl
      · exact ⟨[], Or.inl rfl, rfl⟩
      · exact ⟨[';', ' '], Or.inr rfl, rfl⟩
    have whole : lead ++ (setting :: settings).flatMap settingText =
        (lead ++ (setting.1 ++ '=' :: shown)) ++
          (separator ++ (next ++ settings.flatMap settingText)) := by
      have parted : " ; ".toList = separator := rfl
      rw [List.flatMap_cons, settingText, parted, value_eq, List.append_assoc shown, swapped]
      simp only [List.append_assoc, List.cons_append]
    have plain := keys setting List.mem_cons_self
    rw [whole, splitText_first (by decide) (firstAt_setting lead_cases plain first)] at member
    rcases List.mem_cons.mp member with here | later
    · rcases lead_cases with rfl | rfl
      · exact Or.inr (Or.inr ⟨setting, List.mem_cons_self, shown, ⟨left, value_eq.symm⟩, first, here⟩)
      · exact Or.inr (Or.inl (by rw [here]; rfl))
    · rcases ih next_cases (fun s m => keys s (List.mem_cons_of_mem _ m))
        (fun s m => values s (List.mem_cons_of_mem _ m)) later with nothing | cut | found
      · exact Or.inl nothing
      · exact Or.inr (Or.inl cut)
      · obtain ⟨other, other_member, rest⟩ := found
        exact Or.inr (Or.inr ⟨other, List.mem_cons_of_mem _ other_member, rest⟩)

/-- Settings without the separator are parted as they were written. -/
theorem split_settings {settings : List (List Char × List Char)}
    (keys : ∀ setting ∈ settings, SettingKey setting.1)
    (values : ∀ setting ∈ settings, FirstAt separator setting.2) :
    splitText separator 0 [] (settings.flatMap settingText) =
      settings.map (fun setting => setting.1 ++ '=' :: setting.2) ++ [[]] := by
  induction settings with
  | nil => rfl
  | cons setting settings ih =>
    have first : FirstAt separator (setting.1 ++ '=' :: setting.2) :=
      firstAt_setting (Or.inl rfl) (keys setting List.mem_cons_self)
        (values setting List.mem_cons_self)
    have whole : (setting :: settings).flatMap settingText =
        (setting.1 ++ '=' :: setting.2) ++ (separator ++ settings.flatMap settingText) := by
      have parted : " ; ".toList = separator := rfl
      rw [List.flatMap_cons, settingText, parted]
      simp only [List.append_assoc, List.cons_append]
    rw [whole, splitText_first (by decide) first, List.nil_append,
      ih (fun s m => keys s (List.mem_cons_of_mem _ m))
        (fun s m => values s (List.mem_cons_of_mem _ m))]
    rfl

end Separated

theorem SudoEntry.settings_eq (entry : SudoEntry) : entry.settings =
    [("TTY".toList, entry.tty), ("PWD".toList, entry.pwd), ("USER".toList, entry.targetUser)] := rfl

theorem SudoEntry.setting_keys (entry : SudoEntry) :
    ∀ setting ∈ entry.settings, SettingKey setting.1 := by
  simp only [entry.settings_eq, List.forall_mem_cons, List.not_mem_nil, false_implies,
    implies_true, and_true]
  decide

/- A whole value has nothing to lose at its end. -/
theorem Whole.end_kept {value : List Char} (whole : Whole value) : endTrimmed value = value := by
  have trimmed := whole.trimmed
  rw [trim_eq, String.ofList_inj] at trimmed
  have ends := (List.dropWhile_suffix (l := value) isWhitespace).length_le
  have starts : (endTrimmed (value.dropWhile isWhitespace)).length ≤
      (value.dropWhile isWhitespace).length := endTrimmed_starts.length_le
  rw [trimmed] at starts
  have all_of_it := (List.dropWhile_suffix (l := value) isWhitespace).eq_of_length (by omega)
  rwa [all_of_it] at trimmed

theorem Setting.written {key value : List Char} (setting : Setting value) (plain : SettingKey key) :
    trim (String.ofList (key ++ '=' :: value)) = String.ofList (key ++ '=' :: value) := by
  have start_plain : ∀ c ∈ key ++ ['='], isWhitespace c = false := by
    intro c member
    rcases List.mem_append.mp member with in_key | equals
    · exact (plain c in_key).1
    · rw [List.mem_singleton.mp equals]
      decide
  have trimmed := @trim_after (key ++ ['=']) value start_plain (by simp)
  rwa [setting.end_kept, List.append_assoc, List.singleton_append] at trimmed

section Values
variable (engine : Engine) {settings : List (List Char × List Char)} {key value : List Char}
  {name : String}

/-- Whatever the pieces are, a value that is read of them has no separator in it, and stands in the
    text they were cut from. -/
theorem value_free {text : List Char} (no_attempts : name ≠ "attempts") (no_reason : name ≠ "reason")
    (got : (sudoSettings engine .empty (String.ofList text)).log.get name =
      some (String.ofList value)) : value <:+: text ∧ ¬ separator <:+: value := by
  obtain ⟨piece, member, read, part, _, cut, _, kept⟩ :=
    sudoSettings_get engine no_attempts no_reason got
  obtain ⟨inside, free⟩ := piece_of_split (by decide) member
  have value_eq : value = (trim part).toList.take maxFieldChars := String.ofList_injective kept
  have within : value <:+: piece := by
    have in_part : (trim part).toList <:+: part.toList := by
      have inside : (trim (String.ofList part.toList)).toList <:+: part.toList := trim_inside
      rwa [String.ofList_toList] at inside
    have part_in : part.toList <:+: (trim (String.ofList piece)).toList := by
      rw [(splitFirst_parts cut).1]
      exact ⟨read.toList ++ ['='], [], by simp⟩
    rw [value_eq]
    exact (List.take_prefix _ _).isInfix.trans (in_part.trans (part_in.trans trim_inside))
  exact ⟨within.trans inside, fun found => free (found.trans within)⟩

/-- A value that is read back was written without a separator or blanks around it. -/
theorem value_written (no_attempts : name ≠ "attempts") (no_reason : name ≠ "reason")
    (named : ∀ other, settingName other = some name → other = String.ofList key)
    (keys : ∀ setting ∈ settings, SettingKey setting.1)
    (values : ∀ setting ∈ settings, ¬ separator <:+: setting.2) (plain : SettingKey key)
    (once : ∀ setting ∈ settings, setting.1 = key → setting.2 = value)
    (got : (sudoSettings engine .empty (String.ofList (settings.flatMap settingText))).log.get name =
      some (String.ofList value)) :
    value ≠ [] ∧ trim (String.ofList value) = String.ofList value ∧ value.length ≤ maxFieldChars ∧
      FirstAt separator value := by
  obtain ⟨piece, member, read, text, reads, cut, some_text, kept⟩ :=
    sudoSettings_get engine no_attempts no_reason got
  obtain rfl := named read reads
  have part_eq := (splitFirst_parts cut).1
  rw [String.toList_ofList] at part_eq
  rcases piece_of_settings (Or.inl rfl) keys values member with rfl | semicolon | found
  · have nothing : (trim (String.ofList [])).toList = [] := by decide
    rw [nothing] at part_eq
    simp at part_eq
  · obtain ⟨rest, rfl⟩ : ∃ rest, piece = ';' :: rest := by
      cases piece with
      | nil => cases semicolon
      | cons c rest => exact ⟨rest, by rw [Option.some.inj semicolon]⟩
    have blank : ∀ c ∈ [';'], isWhitespace c = false := by decide
    have trimmed := @trim_after [';'] rest blank (by decide)
    rw [List.singleton_append, List.singleton_append] at trimmed
    rw [trimmed, String.toList_ofList] at part_eq
    cases key with
    | nil => exact absurd (List.cons.inj part_eq).1 (by decide)
    | cons c key =>
      exact absurd (List.cons.inj part_eq).1.symm (plain c List.mem_cons_self).2.2
  · obtain ⟨setting, setting_member, shown, starts, first, rfl⟩ := found
    have setting_plain := keys setting setting_member
    have start_plain : ∀ c ∈ setting.1 ++ ['='], isWhitespace c = false := by
      intro c c_member
      rcases List.mem_append.mp c_member with in_key | equals
      · exact (setting_plain c in_key).1
      · rw [List.mem_singleton.mp equals]
        decide
    have trimmed := @trim_after (setting.1 ++ ['=']) shown start_plain (by simp)
    rw [List.append_assoc, List.singleton_append, List.append_assoc, List.singleton_append] at trimmed
    have no_equals : '=' ∉ setting.1 := fun inside => (setting_plain '=' inside).2.1 rfl
    rw [trimmed, splitFirst_text no_equals] at cut
    obtain ⟨key_eq, text_eq⟩ := Prod.mk.inj (Option.some.inj cut)
    have value_eq := once setting setting_member (String.ofList_injective key_eq)
    subst text_eq
    rw [value_eq] at starts
    have shorter : (endTrimmed shown).length ≤ shown.length := endTrimmed_starts.length_le
    have long := starts.length_le
    obtain ⟨same, nonempty, whole, short⟩ := kept_whole kept.symm some_text (by omega)
    have shown_eq : shown = value := starts.eq_of_length (by rw [same] at shorter; omega)
    exact ⟨nonempty, whole, short, shown_eq ▸ first⟩

theorem sudoPart_nothing (read : SudoRead) : sudoPart engine read (trim (String.ofList [])) = read := by
  have nothing : trim (String.ofList []) = "" := by decide
  have no_setting : splitFirst '=' "" = none := by decide
  have no_attempt : engine.captures (sudoAttempts engine) "".toList = none := by
    rw [engine.preferred]
    rfl
  rw [nothing, sudoPart, no_setting]
  simp only [no_attempt, if_true]

theorem sudoPart_written (setting : Setting value) (plain : SettingKey key)
    (named : settingName (String.ofList key) = some name) (read : SudoRead) :
    sudoPart engine read (trim (String.ofList (key ++ '=' :: value))) =
      { read with log := read.log.set name (String.ofList value), recognised := true } := by
  have no_equals : '=' ∉ key := fun inside => (plain '=' inside).2.1 rfl
  rw [setting.written plain, sudoPart_setting engine no_equals named]

/- Settings that can be read back set their fields, and nothing else. -/
theorem settings_written {entry : SudoEntry} (tty : Setting entry.tty) (pwd : Setting entry.pwd)
    (targetUser : Setting entry.targetUser) :
    sudoSettings engine .empty (String.ofList (entry.settings.flatMap settingText)) =
      ⟨((DecodedLog.empty.set "tty" (String.ofList entry.tty)).set "pwd"
        (String.ofList entry.pwd)).set "target_user" (String.ofList entry.targetUser),
        "command", true⟩ := by
  have keys : ∀ setting ∈ entry.settings, SettingKey setting.1 := entry.setting_keys
  have values : ∀ setting ∈ entry.settings, FirstAt separator setting.2 := by
    simp only [entry.settings_eq, List.forall_mem_cons, List.not_mem_nil, false_implies,
      implies_true, and_true]
    exact ⟨firstAt_iff.mpr tty.no_separator, firstAt_iff.mpr pwd.no_separator,
      firstAt_iff.mpr targetUser.no_separator⟩
  have parted : " ; ".toList = separator := rfl
  have tty_plain : SettingKey "TTY".toList := by decide
  have pwd_plain : SettingKey "PWD".toList := by decide
  have user_plain : SettingKey "USER".toList := by decide
  have tty_named : settingName (String.ofList "TTY".toList) = some "tty" := by decide
  have pwd_named : settingName (String.ofList "PWD".toList) = some "pwd" := by decide
  have user_named : settingName (String.ofList "USER".toList) = some "target_user" := by decide
  rw [sudoSettings, String.toList_ofList (l := entry.settings.flatMap settingText), parted,
    split_settings keys values]
  simp only [entry.settings_eq, List.map_cons, List.map_nil, List.cons_append, List.nil_append,
    List.foldl_cons, List.foldl_nil]
  rw [sudoPart_written engine tty tty_plain tty_named,
    sudoPart_written engine pwd pwd_plain pwd_named,
    sudoPart_written engine targetUser user_plain user_named, sudoPart_nothing]

end Values

/-! The fields of a log. -/

section Fields
variable (log : DecodedLog) {name value : String}

theorem get_set_same (some_text : trim value ≠ "") (lower : toAsciiLowercase name = name) :
    (log.set name value).get name = some (DecodedLog.kept value) := by
  rw [DecodedLog.get_set, if_neg some_text, if_pos lower.symm]

theorem get_set_other {other : String} (different : other ≠ name)
    (lower : toAsciiLowercase name = name) : (log.set name value).get other = log.get other := by
  rw [DecodedLog.get_set, lower, if_neg different, ite_self]

theorem action_lower : toAsciiLowercase "action" = "action" := by decide

theorem user_lower : toAsciiLowercase "user" = "user" := by decide

theorem command_lower : toAsciiLowercase "command" = "command" := by decide

end Fields

section Main
variable (engine : Engine) {entry : SudoEntry}

/- The settings and the command, as one text. -/
def SudoEntry.body (entry : SudoEntry) : List Char :=
  entry.settings.flatMap settingText ++ ("COMMAND=".toList ++ entry.command)

theorem SudoEntry.message_eq (entry : SudoEntry) :
    entry.message = entry.user ++ (" : ".toList ++ entry.body) := rfl

/- A text that ends with the only `=` it has, and is longer than a key, stands in a value or after
   the settings. -/
theorem inside_settings {settings : List (List Char × List Char)} {start rest : List Char}
    (keys : ∀ setting ∈ settings, setting.1.length < start.length) (equals : '=' ∉ start)
    (blank : ' ' ∉ start) (long : 0 < start.length)
    (inside : start ++ ['='] <:+: settings.flatMap settingText ++ rest) :
    (∃ setting ∈ settings, start ++ ['='] <:+: setting.2) ∨ start ++ ['='] <:+: rest := by
  induction settings with
  | nil => exact Or.inr inside
  | cons setting settings ih =>
    have no_blank : ' ' ∉ start ++ ['='] := by simp [blank]
    have whole : (setting :: settings).flatMap settingText ++ rest =
        setting.1 ++ '=' :: (setting.2 ++ ' ' :: ([';'] ++ ' ' ::
          (settings.flatMap settingText ++ rest))) := by
      have parted : " ; ".toList = [' ', ';', ' '] := rfl
      rw [List.flatMap_cons, settingText, parted]
      simp only [List.append_assoc, List.cons_append, List.nil_append]
    rw [whole] at inside
    rcases inside_after equals inside with in_key | after_key
    · have fits := in_key.length_le
      have short := keys setting List.mem_cons_self
      simp only [List.length_append, List.length_singleton] at fits
      omega
    · rcases inside_around no_blank after_key with in_value | after_value
      · exact Or.inl ⟨setting, List.mem_cons_self, in_value⟩
      · rcases inside_around no_blank after_value with in_between | later
        · have fits := in_between.length_le
          simp only [List.length_append, List.length_singleton] at fits
          omega
        · rcases ih (fun s m => keys s (List.mem_cons_of_mem _ m)) later with ⟨s, m, found⟩ | behind
          · exact Or.inl ⟨s, List.mem_cons_of_mem _ m, found⟩
          · exact Or.inr behind

/- The settings have no `COMMAND=` when no value has one. -/
theorem settings_free (tty : ¬ "COMMAND=".toList <:+: entry.tty)
    (pwd : ¬ "COMMAND=".toList <:+: entry.pwd)
    (targetUser : ¬ "COMMAND=".toList <:+: entry.targetUser) :
    FirstAt "COMMAND=".toList (entry.settings.flatMap settingText) := by
  have command : "COMMAND=".toList = "COMMAND".toList ++ ['='] := by decide
  have start : "COMMAND=".toList.dropLast = "COMMAND".toList := by decide
  have keys : ∀ setting ∈ entry.settings, setting.1.length < "COMMAND".toList.length := by
    simp only [entry.settings_eq, List.forall_mem_cons, List.not_mem_nil, false_implies,
      implies_true, and_true]
    decide
  intro inside
  rw [start, command] at inside
  rw [command] at tty pwd targetUser
  rcases inside_settings keys (by decide) (by decide) (by decide) inside with
    ⟨setting, member, found⟩ | found
  · rw [entry.settings_eq] at member
    simp only [List.mem_cons, List.not_mem_nil, or_false] at member
    rcases member with rfl | rfl | rfl
    · exact tty found
    · exact pwd found
    · exact targetUser found
  · exact absurd found.length_le (by decide)

theorem settings_silent {name : String} (never : ∀ key, settingName key ≠ some name)
    (no_attempts : name ≠ "attempts") (no_reason : name ≠ "reason") (settings : String) :
    (sudoSettings engine .empty settings).log.get name = none := by
  rw [← String.ofList_toList (s := settings), Option.eq_none_iff_forall_ne_some]
  intro value got
  obtain ⟨_, _, key, _, named, _⟩ := sudoSettings_get engine no_attempts no_reason got
  exact never key named

theorem user_no_setting (key : String) : settingName key ≠ some "user" := by
  unfold settingName
  split_ifs <;> decide

theorem command_no_setting (key : String) : settingName key ≠ some "command" := by
  unfold settingName
  split_ifs <;> decide

/-- A log from which the user can be read back was decoded of a user who is one word. -/
theorem user_recovered (got : (decodeSudo engine .empty entry.message).get "user" =
    some (String.ofList entry.user)) :
    Whole entry.user ∧ (∀ c ∈ entry.user, nonBlank c = true) := by
  rw [decodeSudo, engine.preferred] at got
  split at got
  · rw [DecodedLog.get_empty] at got
    cases got
  · rename_i found captured_there
    obtain ⟨word, word_eq, one_word, some_letter⟩ := sudoLine_user captured_there
    simp only [word_eq] at got
    have silent := settings_silent engine user_no_setting (by decide) (by decide)
    have some_text : trim (String.ofList word) ≠ "" := plain_not_empty one_word some_letter
    have who (log : DecodedLog) (action : String) :
        ((log.set "user" (String.ofList word)).set "action" action).get "user" =
          some (DecodedLog.kept (String.ofList word)) := by
      rw [get_set_other _ (by decide) action_lower, get_set_same _ some_text user_lower]
    have kept : DecodedLog.kept (String.ofList word) = String.ofList entry.user := by
      split at got
      · simp only [if_true, who] at got
        exact Option.some.inj got
      · split at got
        · rw [who] at got
          exact Option.some.inj got
        · rw [silent] at got
          cases got
    have taken := congrArg String.toList kept
    rw [DecodedLog.kept, trim_plain one_word, String.toList_ofList, String.toList_ofList,
      String.toList_ofList] at taken
    have user_plain : ∀ c ∈ entry.user, nonBlank c = true := by
      rw [← taken]
      exact fun c member => one_word c (List.mem_of_mem_take member)
    have some_room : 0 < maxFieldChars := by decide
    refine ⟨⟨?_, trim_plain user_plain, ?_, fun line_end => ?_⟩, user_plain⟩
    · rw [← taken]
      intro nothing
      have := congrArg List.length nothing
      rw [List.length_take, List.length_nil] at this
      omega
    · rw [← taken, List.length_take]
      exact Nat.min_le_left _ _
    · exact absurd (user_plain '\n' line_end) (by decide)

/- What can be read back has no line break. -/
theorem readable_line (tty : Setting entry.tty) (pwd : Setting entry.pwd)
    (targetUser : Setting entry.targetUser) (command : Whole entry.command) :
    '\n' ∉ entry.body := by
  have parted : '\n' ∉ " ; ".toList := by decide
  rw [SudoEntry.body, entry.settings_eq]
  simp only [List.flatMap_cons, List.flatMap_nil, settingText, List.mem_append, List.mem_cons,
    List.append_nil, not_or]
  exact ⟨⟨⟨by decide, by decide, tty.one_line, parted⟩, ⟨by decide, by decide, pwd.one_line, parted⟩,
    by decide, by decide, targetUser.one_line, parted⟩, by decide, command.one_line⟩

/-- A line from which the user can be read back has no line break in it. -/
theorem line_recovered (one_word : ∀ c ∈ entry.user, nonBlank c = true) (nonempty : entry.user ≠ [])
    (got : (decodeSudo engine .empty entry.message).get "user" =
      some (String.ofList entry.user)) : '\n' ∉ entry.body := by
  intro line_end
  rw [decodeSudo, engine.preferred, entry.message_eq, sudoLine_captured one_word nonempty,
    if_pos (Or.inr line_end), DecodedLog.get_empty] at got
  cases got

/- The settings a value is read from are cut off the line at its first `COMMAND=`. -/
theorem cut_body : ∃ before command, entry.body = before ++ ("COMMAND=".toList ++ command) ∧
    FirstAt "COMMAND=".toList before :=
  first_place (by decide) ⟨entry.settings.flatMap settingText, entry.command, by
    rw [SudoEntry.body, List.append_assoc]⟩

theorem settingName_unique {key other name : String} (named : settingName key = some name)
    (other_named : settingName other = some name) : other = key := by
  unfold settingName at named other_named
  split_ifs at named other_named
  all_goals first
    | exact absurd (named.trans other_named.symm) (by decide)
    | simp_all

theorem read_get {user command : List Char} {action name : String} (log : DecodedLog) (not_command : name ≠ "command") (not_user : name ≠ "user")
    (not_action : name ≠ "action") :
    (((log.set "command" (String.ofList command)).set "user" (String.ofList user)).set "action"
      action).get name = log.get name := by
  rw [get_set_other _ not_action action_lower, get_set_other _ not_user user_lower,
    get_set_other _ not_command command_lower]

/- What is read of a line of which the first `COMMAND=` is known. -/
theorem recovered_get {before command : List Char} {name : String}
    (one_word : ∀ c ∈ entry.user, nonBlank c = true) (nonempty : entry.user ≠ [])
    (one_line : '\n' ∉ entry.body) (body_eq : entry.body = before ++ ("COMMAND=".toList ++ command))
    (first : FirstAt "COMMAND=".toList before) (not_command : name ≠ "command")
    (not_user : name ≠ "user") (not_action : name ≠ "action") :
    (decodeSudo engine .empty entry.message).get name =
      (sudoSettings engine .empty (String.ofList before)).log.get name := by
  have log_eq := decodeSudo_read engine one_word nonempty (body_eq ▸ one_line) first
  rw [← body_eq, ← entry.message_eq] at log_eq
  rw [log_eq, read_get _ not_command not_user not_action]

/-- A setting that is read back from the settings as they were written. -/
theorem setting_recovered {key value : List Char} {name : String}
    (member : (key, value) ∈ entry.settings)
    (named : settingName (String.ofList key) = some name) (no_attempts : name ≠ "attempts")
    (no_reason : name ≠ "reason") (one_line : '\n' ∉ entry.body)
    (free : ∀ setting ∈ entry.settings, ¬ separator <:+: setting.2)
    (no_command : ¬ "COMMAND=".toList <:+: value)
    (got : (sudoSettings engine .empty (String.ofList (entry.settings.flatMap settingText))).log.get
      name = some (String.ofList value)) : Setting value := by
  have once : ∀ setting ∈ entry.settings, setting.1 = key → setting.2 = value := by
    have distinct : (entry.settings.map Prod.fst).Nodup := by
      simp only [entry.settings_eq, List.map_cons, List.map_nil]
      decide
    intro setting setting_member same
    have := List.inj_on_of_nodup_map distinct setting_member member same
    rw [this]
  obtain ⟨nonempty, trimmed, short, first⟩ := value_written engine no_attempts no_reason
    (fun other reads => settingName_unique named reads) entry.setting_keys free
    (entry.setting_keys _ member) once got
  have in_line : ∀ c ∈ value, c ∈ entry.body := by
    intro c c_member
    have written : settingText (key, value) ⊆ entry.settings.flatMap settingText :=
      fun d d_member => List.mem_flatMap.mpr ⟨_, member, d_member⟩
    refine List.mem_append_left _ (written ?_)
    simp [settingText, c_member]
  exact { nonempty, trimmed, short, one_line := fun line_end => one_line (in_line _ line_end),
          no_separator := firstAt_iff.mp first, no_command }

/-- A command that is read back is whole. -/
theorem command_recovered {settings action : String} (one_line : '\n' ∉ entry.body)
    (got : ((((sudoSettings engine .empty settings).log.set "command"
      (String.ofList entry.command)).set "user" (String.ofList entry.user)).set "action"
        action).get "command" = some (String.ofList entry.command)) : Whole entry.command := by
  rw [get_set_other _ (by decide) action_lower, get_set_other _ (by decide) user_lower,
    DecodedLog.get_set] at got
  split_ifs at got with nothing same
  · rw [settings_silent engine command_no_setting (by decide) (by decide)] at got
    cases got
  · obtain ⟨_, nonempty, trimmed, short⟩ :=
      kept_whole (Option.some.inj got) nothing (Nat.le_refl _)
    refine ⟨nonempty, trimmed, short, fun line_end => one_line ?_⟩
    exact List.mem_append_right _ (List.mem_append_right _ line_end)
  · exact absurd command_lower.symm same

end Main

/-- What sudo wrote is read back of its line just when the user is one word, the directory, the
    terminal and the target have neither ` ; ` nor `COMMAND=` in them, and every value fits its
    field on one line. -/
theorem entry_recovered_iff (engine : Engine) (entry : SudoEntry) :
    entry.Recovered (decodeSudo engine .empty entry.message) ↔ entry.Readable := by
  constructor
  · rintro ⟨user, tty, pwd, targetUser, command⟩
    obtain ⟨user_whole, one_word⟩ := user_recovered engine user
    have one_line := line_recovered engine one_word user_whole.nonempty user
    have command_there : entry.body = entry.settings.flatMap settingText ++
        ("COMMAND=".toList ++ entry.command) := rfl
    have tty_member : ("TTY".toList, entry.tty) ∈ entry.settings := by simp [entry.settings_eq]
    have pwd_member : ("PWD".toList, entry.pwd) ∈ entry.settings := by simp [entry.settings_eq]
    have user_member : ("USER".toList, entry.targetUser) ∈ entry.settings := by
      simp [entry.settings_eq]
    have free : ∀ value ∈ entry.settings,
        ¬ separator <:+: value.2 ∧ ¬ "COMMAND=".toList <:+: value.2 := by
      obtain ⟨before, rest, body_eq, first⟩ := @cut_body entry
      rw [recovered_get engine one_word user_whole.nonempty one_line body_eq first (by decide)
        (by decide) (by decide)] at tty pwd targetUser
      obtain ⟨tty_in, tty_free⟩ := value_free engine (by decide) (by decide) tty
      obtain ⟨pwd_in, pwd_free⟩ := value_free engine (by decide) (by decide) pwd
      obtain ⟨user_in, user_free⟩ := value_free engine (by decide) (by decide) targetUser
      simp only [entry.settings_eq, List.forall_mem_cons, List.not_mem_nil, false_implies,
        implies_true, and_true]
      exact ⟨⟨tty_free, fun found => first.free (found.trans tty_in)⟩,
        ⟨pwd_free, fun found => first.free (found.trans pwd_in)⟩,
        ⟨user_free, fun found => first.free (found.trans user_in)⟩⟩
    have first := settings_free (free _ tty_member).2 (free _ pwd_member).2 (free _ user_member).2
    have log_eq := decodeSudo_read engine one_word user_whole.nonempty one_line first
    have separated := fun value member => (free value member).1
    rw [recovered_get engine one_word user_whole.nonempty one_line command_there first (by decide)
      (by decide) (by decide)] at tty pwd targetUser
    refine { user := user_whole, one_word, tty := ?_, pwd := ?_, targetUser := ?_, command := ?_ }
    · exact setting_recovered engine tty_member (by decide) (by decide) (by decide) one_line separated
        (free _ tty_member).2 tty
    · exact setting_recovered engine pwd_member (by decide) (by decide) (by decide) one_line separated
        (free _ pwd_member).2 pwd
    · exact setting_recovered engine user_member (by decide) (by decide) (by decide) one_line
        separated (free _ user_member).2 targetUser
    · rw [entry.message_eq, SudoEntry.body, log_eq] at command
      exact command_recovered engine one_line command
  · rintro ⟨user, one_word, tty, pwd, targetUser, command⟩
    have one_line := readable_line tty pwd targetUser command
    have first := settings_free tty.no_command pwd.no_command targetUser.no_command
    have log_eq := decodeSudo_read engine one_word user.nonempty one_line first
    rw [settings_written engine tty pwd targetUser] at log_eq
    rw [SudoEntry.Recovered, entry.message_eq, SudoEntry.body, log_eq]
    have tty_lower : toAsciiLowercase "tty" = "tty" := by decide
    have pwd_lower : toAsciiLowercase "pwd" = "pwd" := by decide
    have target_lower : toAsciiLowercase "target_user" = "target_user" := by decide
    refine ⟨?_, ?_, ?_, ?_, ?_⟩
    · rw [get_set_other _ (by decide) action_lower, get_set_same _ user.some_text user_lower,
        user.kept]
    · rw [read_get _ (by decide) (by decide) (by decide), get_set_other _ (by decide) target_lower,
        get_set_other _ (by decide) pwd_lower, get_set_same _ tty.some_text tty_lower, tty.kept]
    · rw [read_get _ (by decide) (by decide) (by decide), get_set_other _ (by decide) target_lower,
        get_set_same _ pwd.some_text pwd_lower, pwd.kept]
    · rw [read_get _ (by decide) (by decide) (by decide),
        get_set_same _ targetUser.some_text target_lower, targetUser.kept]
    · rw [get_set_other _ (by decide) action_lower, get_set_other _ (by decide) user_lower,
        get_set_same _ command.some_text command_lower, command.kept]

/- alice runs a shell as root, from a directory of her own making. -/
def hidden : SudoEntry where
  user := "alice".toList
  tty := "pts/0".toList
  pwd := "/tmp/COMMAND=ls".toList
  targetUser := "root".toList
  command := "/bin/sh".toList

/-- The name of the directory is taken for the command, and no target is left. -/
theorem hidden_not_recovered :
    let log := decodeSudo asciiEngine .empty hidden.message
    ¬ hidden.Recovered log ∧ log.get "command" = some "ls ; USER=root ; COMMAND=/bin/sh" ∧
      log.get "target_user" = none := by
  intro log
  have command : log.get "command" = some "ls ; USER=root ; COMMAND=/bin/sh" := by decide
  have target : log.get "target_user" = none := by decide
  refine ⟨fun recovered => ?_, command, target⟩
  have named := recovered.2.2.2.1
  rw [target] at named
  cases named

end SentinelAgent.Decode
