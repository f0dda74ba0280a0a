import SentinelAgent.Library.Text

/-!
The words of a command line: blanks part them, quotes and backslashes group. Every way to write a
word within these rules is read back as the word.
-/
namespace SentinelAgent.Sca
open Text

/- A word is there once something was written of it, were it a pair of quotes. -/
def finished (started : Bool) (word : List Char) : List (List Char) :=
  if started = true ∨ word ≠ [] then [word] else []

def splitFrom : Option Char → Bool → List Char → List Char → List (List Char)
  | _, started, word, [] => finished started word
  | quote, started, word, c :: rest =>
    if quote = some c then splitFrom none started word rest
    else if quote = none ∧ (c = '"' ∨ c = '\'') then splitFrom (some c) true word rest
    else if (quote = none ∨ quote = some '"') ∧ c = '\\' then
      match rest with
      | [] => finished started word
      | next :: rest => splitFrom quote true (word ++ [next]) rest
    else if quote = none ∧ isWhitespace c = true then
      finished started word ++ splitFrom none false [] rest
    else splitFrom quote true (word ++ [c]) rest

def splitCommand (line : List Char) : List (List Char) := splitFrom none false [] line

theorem splitFrom_cons (quote : Option Char) (started : Bool) (word : List Char) (c : Char)
    (rest : List Char) : splitFrom quote started word (c :: rest) =
      if quote = some c then splitFrom none started word rest
      else if quote = none ∧ (c = '"' ∨ c = '\'') then splitFrom (some c) true word rest
      else if (quote = none ∨ quote = some '"') ∧ c = '\\' then
        match rest with
        | [] => finished started word
        | next :: rest => splitFrom quote true (word ++ [next]) rest
      else if quote = none ∧ isWhitespace c = true then
        finished started word ++ splitFrom none false [] rest
      else splitFrom quote true (word ++ [c]) rest := by
  conv_lhs => unfold splitFrom

section Pieces

/- A character as itself or after a backslash. -/
inductive Letter where
  | plain (c : Char)
  | escaped (c : Char)

def Letter.value : Letter → Char
  | .plain c => c
  | .escaped c => c

def Letter.text : Letter → List Char
  | .plain c => [c]
  | .escaped c => ['\\', c]

/- A part of a word: a character outside quotes, or a pair of quotes and what is in it. -/
inductive Piece where
  | bare (letter : Letter)
  | double (letters : List Letter)
  | single (letters : List Char)

def Piece.value : Piece → List Char
  | .bare letter => [letter.value]
  | .double letters => letters.map Letter.value
  | .single letters => letters

/- The text of a part up to the quote that closes it, and that quote. -/
def Piece.opened : Piece → List Char
  | .bare letter => letter.text
  | .double letters => '"' :: letters.flatMap Letter.text
  | .single letters => '\'' :: letters

def Piece.closing : Piece → List Char
  | .bare _ => []
  | .double _ => ['"']
  | .single _ => ['\'']

def Piece.text (piece : Piece) : List Char := piece.opened ++ piece.closing

/- What stands for itself outside quotes and in double ones. -/
def Bare (c : Char) : Prop := c ≠ '"' ∧ c ≠ '\'' ∧ c ≠ '\\' ∧ isWhitespace c = false

def InDouble (c : Char) : Prop := c ≠ '"' ∧ c ≠ '\\'

def Piece.Valid : Piece → Prop
  | .bare (.plain c) => Bare c
  | .bare (.escaped _) => True
  | .double letters => ∀ c, .plain c ∈ letters → InDouble c
  | .single letters => '\'' ∉ letters

/- A word by its parts, of which there is at least one. -/
structure Written where
  pieces : List Piece
  nonempty : pieces ≠ []
  valid : ∀ piece ∈ pieces, piece.Valid

def Written.value (word : Written) : List Char := word.pieces.flatMap Piece.value

def Written.text (word : Written) : List Char := word.pieces.flatMap Piece.text

/- The text without the quote that closes its last part, if there is one. -/
def Written.unclosed (word : Written) : List Char :=
  word.pieces.dropLast.flatMap Piece.text ++ (word.pieces.getLast word.nonempty).opened

/- Any word between double quotes, each of its characters after a backslash. -/
def quoted (word : List Char) : Written where
  pieces := [.double (word.map .escaped)]
  nonempty := List.cons_ne_nil _ _
  valid := by simp [Piece.Valid]

theorem quoted_value (word : List Char) : (quoted word).value = word := by
  simp [Written.value, quoted, Piece.value, Function.comp_def, Letter.value]

end Pieces

section Read
variable {started : Bool} {word rest : List Char}

theorem split_double {letters : List Letter} (valid : ∀ c, .plain c ∈ letters → InDouble c)
    (word rest : List Char) : splitFrom (some '"') true word (letters.flatMap Letter.text ++ rest) =
      splitFrom (some '"') true (word ++ letters.map Letter.value) rest := by
  induction letters generalizing word with
  | nil => simp
  | cons letter letters ih =>
    have later := ih (fun c member => valid c (List.mem_cons_of_mem _ member))
    cases letter with
    | plain c =>
      obtain ⟨no_quote, no_escape⟩ := valid c List.mem_cons_self
      simp only [List.flatMap_cons, Letter.text, List.cons_append, List.nil_append]
      rw [splitFrom_cons, if_neg (by simpa using Ne.symm no_quote), if_neg (by simp),
        if_neg (by simp [no_escape]), if_neg (by simp), later]
      simp [Letter.value]
    | escaped c =>
      simp only [List.flatMap_cons, Letter.text, List.cons_append, List.nil_append]
      rw [splitFrom_cons, if_neg (by decide), if_neg (by simp), if_pos (by simp)]
      simp only
      rw [later]
      simp [Letter.value]

theorem split_single {letters : List Char} (valid : '\'' ∉ letters) (word rest : List Char) :
    splitFrom (some '\'') true word (letters ++ rest) =
      splitFrom (some '\'') true (word ++ letters) rest := by
  induction letters generalizing word with
  | nil => simp
  | cons c letters ih =>
    have other : '\'' ≠ c := fun same => valid (List.mem_cons.2 (Or.inl same))
    rw [List.cons_append, splitFrom_cons, if_neg (by simpa using other), if_neg (by simp),
      if_neg (by simp), if_neg (by simp), ih fun member => valid (List.mem_cons_of_mem c member)]
    simp

/- What is read of one part, with the quote it leaves open. -/
theorem split_opened {piece : Piece} (valid : piece.Valid) (started : Bool)
    (word rest : List Char) : splitFrom none started word (piece.opened ++ rest) =
      splitFrom piece.closing.head? true (word ++ piece.value) rest := by
  cases piece with
  | bare letter =>
    cases letter with
    | plain c =>
      obtain ⟨no_double, no_single, no_escape, no_blank⟩ := valid
      simp only [Piece.opened, Letter.text, List.cons_append, List.nil_append]
      rw [splitFrom_cons, if_neg (by simp), if_neg (by simp [no_double, no_single]),
        if_neg (by simp [no_escape]), if_neg (by simp [no_blank])]
      rfl
    | escaped c =>
      simp only [Piece.opened, Letter.text, List.cons_append, List.nil_append]
      rw [splitFrom_cons, if_neg (by simp), if_neg (by decide), if_pos (by simp)]
      rfl
  | double letters =>
    simp only [Piece.opened, List.cons_append]
    rw [splitFrom_cons, if_neg (by simp), if_pos (by simp), split_double valid]
    rfl
  | single letters =>
    simp only [Piece.opened, List.cons_append]
    rw [splitFrom_cons, if_neg (by simp), if_pos (by simp), split_single valid]
    rfl

theorem split_closed (piece : Piece) (word rest : List Char) :
    splitFrom piece.closing.head? true word (piece.closing ++ rest) =
      splitFrom none true word rest := by
  cases piece with
  | bare letter => rfl
  | double letters => rw [Piece.closing, List.singleton_append, splitFrom_cons, if_pos List.head?_cons]
  | single letters => rw [Piece.closing, List.singleton_append, splitFrom_cons, if_pos List.head?_cons]

theorem split_pieces {pieces : List Piece} (valid : ∀ piece ∈ pieces, piece.Valid)
    (some_piece : pieces ≠ [] ∨ started = true) (word rest : List Char) :
    splitFrom none started word (pieces.flatMap Piece.text ++ rest) =
      splitFrom none true (word ++ pieces.flatMap Piece.value) rest := by
  induction pieces generalizing started word with
  | nil => simp [some_piece.resolve_left (fun no_piece => no_piece rfl)]
  | cons piece pieces ih =>
    rw [List.flatMap_cons, Piece.text, List.append_assoc, List.append_assoc,
      split_opened (valid piece List.mem_cons_self), split_closed,
      ih (fun other member => valid other (List.mem_cons_of_mem piece member)) (Or.inr rfl)]
    simp

theorem split_word (written : Written) (started : Bool) (rest : List Char) :
    splitFrom none started [] (written.text ++ rest) =
      splitFrom none true written.value rest := by
  rw [Written.text, split_pieces written.valid (Or.inl written.nonempty), List.nil_append]
  rfl

theorem split_unclosed (written : Written) :
    splitFrom none false [] written.unclosed = [written.value] := by
  obtain ⟨pieces, nonempty, valid⟩ := written
  induction pieces using List.reverseRecOn with
  | nil => exact absurd rfl nonempty
  | append_singleton pieces last =>
    have last_valid : last.Valid := valid last (by simp)
    have opened : ∀ started word, splitFrom none started word last.opened =
        [word ++ last.value] := by
      intro started word
      have read := split_opened last_valid started word []
      rw [List.append_nil] at read
      rw [read, splitFrom, finished, if_pos (Or.inl rfl)]
    simp only [Written.unclosed, Written.value, List.dropLast_concat, List.getLast_append_singleton]
    cases pieces with
    | nil => simpa using opened false []
    | cons first pieces =>
      rw [split_pieces (fun piece member => valid piece (List.mem_append_left _ member))
        (Or.inl (List.cons_ne_nil _ _)), opened]
      simp

end Read

section Line

def Blank (text : List Char) : Prop := ∀ c ∈ text, isWhitespace c = true

theorem split_blanks {blanks : List Char} (blank : Blank blanks) (rest : List Char) :
    splitFrom none false [] (blanks ++ rest) = splitFrom none false [] rest := by
  induction blanks with
  | nil => rfl
  | cons c blanks ih =>
    have is_blank : isWhitespace c = true := blank c List.mem_cons_self
    have no_quote : ¬ (c = '"' ∨ c = '\'') := by
      rintro (rfl | rfl) <;> exact absurd is_blank (by decide)
    have no_escape : c ≠ '\\' := by
      rintro rfl
      exact absurd is_blank (by decide)
    rw [List.cons_append, splitFrom_cons, if_neg (by simp), if_neg (by simp [no_quote]),
      if_neg (by simp [no_escape]), if_pos ⟨rfl, is_blank⟩,
      ih fun other member => blank other (List.mem_cons_of_mem c member)]
    rfl

theorem split_after_word {blanks : List Char} (blank : Blank blanks) (some_blank : blanks ≠ [])
    (word rest : List Char) : splitFrom none true word (blanks ++ rest) =
      word :: splitFrom none false [] rest := by
  cases blanks with
  | nil => exact absurd rfl some_blank
  | cons c blanks =>
    have is_blank : isWhitespace c = true := blank c List.mem_cons_self
    have no_quote : ¬ (c = '"' ∨ c = '\'') := by
      rintro (rfl | rfl) <;> exact absurd is_blank (by decide)
    have no_escape : c ≠ '\\' := by
      rintro rfl
      exact absurd is_blank (by decide)
    rw [List.cons_append, splitFrom_cons, if_neg (by simp), if_neg (by simp [no_quote]),
      if_neg (by simp [no_escape]), if_pos ⟨rfl, is_blank⟩, split_blanks
        fun other member => blank other (List.mem_cons_of_mem c member)]
    rfl

/- The parts of a line: every word after its blanks, which only the first word can do without. -/
structure CommandLine where
  parts : List (List Char × Written)
  blank : ∀ part ∈ parts, Blank part.1
  apart : ∀ part ∈ parts.tail, part.1 ≠ []

def partText (part : List Char × Written) : List Char := part.1 ++ part.2.text

def CommandLine.text (line : CommandLine) : List Char := line.parts.flatMap partText

def CommandLine.words (line : CommandLine) : List (List Char) :=
  line.parts.map fun part => part.2.value

/- The line without the quote that closes its last word, if there is one. -/
def CommandLine.unclosed (line : CommandLine) : List Char :=
  line.parts.dropLast.flatMap partText ++
    (line.parts.getLast?.map fun part => part.1 ++ part.2.unclosed).getD []

theorem split_parts {parts : List (List Char × Written)} {rest : List Char}
    {words : List (List Char)} (blank : ∀ part ∈ parts, Blank part.1)
    (apart : ∀ part ∈ parts, part.1 ≠ [])
    (ending : ∀ word, splitFrom none true word rest = word :: words) (word : List Char) :
    splitFrom none true word (parts.flatMap partText ++ rest) =
      word :: (parts.map (fun part => part.2.value) ++ words) := by
  induction parts generalizing word with
  | nil => exact ending word
  | cons part parts ih =>
    have first_blank := blank part List.mem_cons_self
    have later := ih (fun other member => blank other (List.mem_cons_of_mem part member))
      (fun other member => apart other (List.mem_cons_of_mem part member))
    rw [List.flatMap_cons, partText, List.append_assoc, List.append_assoc,
      split_after_word first_blank (apart part List.mem_cons_self), split_word, later]
    rfl

theorem split_parts_first {parts : List (List Char × Written)} {rest : List Char}
    {words : List (List Char)} (blank : ∀ part ∈ parts, Blank part.1)
    (apart : ∀ part ∈ parts.tail, part.1 ≠ []) (some_part : parts ≠ [])
    (ending : ∀ word, splitFrom none true word rest = word :: words) :
    splitCommand (parts.flatMap partText ++ rest) =
      parts.map (fun part => part.2.value) ++ words := by
  cases parts with
  | nil => exact absurd rfl some_part
  | cons part parts =>
    rw [splitCommand, List.flatMap_cons, partText, List.append_assoc, List.append_assoc,
      split_blanks (blank part List.mem_cons_self), split_word,
      split_parts (fun other member => blank other (List.mem_cons_of_mem part member)) apart ending]
    rfl

theorem split_line (line : CommandLine) {after : List Char} (blank : Blank after) :
    splitCommand (line.text ++ after) = line.words := by
  have ending : ∀ word, splitFrom none true word after = [word] := by
    intro word
    by_cases no_blank : after = []
    · rw [no_blank, splitFrom, finished, if_pos (Or.inl rfl)]
    · have read := split_after_word blank no_blank word []
      rwa [List.append_nil] at read
  by_cases no_part : line.parts = []
  · have read := split_blanks blank []
    rw [List.append_nil] at read
    rw [CommandLine.text, CommandLine.words, no_part]
    exact read
  · rw [CommandLine.text, split_parts_first line.blank line.apart no_part ending, List.append_nil]
    rfl

theorem split_line_unclosed (line : CommandLine) : splitCommand line.unclosed = line.words := by
  obtain ⟨parts, blank, apart⟩ := line
  induction parts using List.reverseRecOn with
  | nil => rfl
  | append_singleton parts last =>
    have last_blank : Blank last.1 := blank last (by simp)
    simp only [CommandLine.unclosed, CommandLine.words, List.dropLast_concat,
      List.getLast?_concat, Option.map_some, Option.getD_some, List.map_append]
    cases parts with
    | nil => exact (split_blanks last_blank _).trans (split_unclosed last.2)
    | cons part parts =>
      have last_apart : last.1 ≠ [] := apart last (by simp)
      refine split_parts_first (fun other member => blank other (List.mem_append_left _ member))
        (fun other member => apart other (List.mem_append_left _ member))
        (List.cons_ne_nil _ _) fun word => ?_
      rw [split_after_word last_blank last_apart, split_unclosed]
      rfl

/- Every word between double quotes, after a blank. -/
def quotedLine (words : List (List Char)) : CommandLine where
  parts := words.map fun word => ([' '], quoted word)
  blank := by
    intro part member
    obtain ⟨word, _, rfl⟩ := List.mem_map.1 member
    intro c in_blank
    rw [List.mem_singleton.1 in_blank]
    decide
  apart := by
    intro part member
    obtain ⟨word, _, rfl⟩ := List.mem_map.1 (List.mem_of_mem_tail member)
    exact List.cons_ne_nil _ _

theorem quotedLine_words (words : List (List Char)) : (quotedLine words).words = words := by
  simp [CommandLine.words, quotedLine, Function.comp_def, quoted_value]

/- A word of characters that stand for themselves. -/
def bareLine {word : List Char} (some_letter : word ≠ []) (bare : ∀ c ∈ word, Bare c) :
    CommandLine where
  parts := [([], {
    pieces := word.map fun c => .bare (.plain c)
    nonempty := by simpa using some_letter
    valid := by
      intro piece member
      obtain ⟨c, in_word, rfl⟩ := List.mem_map.1 member
      exact bare c in_word })]
  blank := by simp [Blank]
  apart := by simp

theorem bareLine_text {word : List Char} (some_letter : word ≠ []) (bare : ∀ c ∈ word, Bare c) :
    (bareLine some_letter bare).text = word := by
  simp [CommandLine.text, bareLine, partText, Written.text, Piece.text, Piece.opened,
    Piece.closing, Letter.text, List.flatMap_map]

theorem bareLine_words {word : List Char} (some_letter : word ≠ []) (bare : ∀ c ∈ word, Bare c) :
    (bareLine some_letter bare).words = [word] := by
  simp [CommandLine.words, bareLine, Written.value, Piece.value, Letter.value, List.flatMap_map]

/-- However its words are written, quoted or not, a line is split back into them, also without
the quote that closes the last; a word needs no quotes to pass as it is unless it has a quote, a
blank or a backslash. -/
theorem line_read_back :
    (∀ line : CommandLine, (∀ after, Blank after →
      splitCommand (line.text ++ after) = line.words) ∧
      splitCommand line.unclosed = line.words) ∧
    (∀ words, splitCommand (quotedLine words).text = words) ∧
    ∀ word, word ≠ [] → (∀ c ∈ word, Bare c) → splitCommand word = [word] := by
  refine ⟨fun line => ⟨fun after blank => split_line line blank, split_line_unclosed line⟩,
    fun words => ?_, fun word some_letter bare => ?_⟩
  · have read := @split_line (quotedLine words) [] (by simp [Blank])
    rwa [List.append_nil, quotedLine_words] at read
  · have read := @split_line (bareLine some_letter bare) [] (by simp [Blank])
    rwa [List.append_nil, bareLine_text, bareLine_words] at read

theorem line_read_back_path : splitCommand ['-', 'v'] = [['-', 'v']] := by
  refine line_read_back.2.2 ['-', 'v'] (List.cons_ne_nil _ _) fun c member => ?_
  rcases List.mem_pair.1 member with rfl | rfl
  · exact ⟨by decide, by decide, by decide, by decide⟩
  · exact ⟨by decide, by decide, by decide, by decide⟩

/-- Outside quotes a backslash is no part of the word, and a quote that stays open refuses
nothing. -/
theorem backslash_dropped :
    (['C', ':', '\\', 'a'].all fun c => c != '"' && c != '\'' && !isWhitespace c) = true ∧
    splitCommand ['C', ':', '\\', 'a'] = [['C', ':', 'a']] ∧
    splitCommand ['a', ' ', '"', 'b', ' ', 'c'] = [['a'], ['b', ' ', 'c']] :=
  ⟨by decide, by decide, by decide⟩

end Line
end SentinelAgent.Sca
